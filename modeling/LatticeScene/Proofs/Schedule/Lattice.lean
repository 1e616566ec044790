import LatticeScene.Buffer
import LatticeScene.Schedule.Lattice
import LatticeScene.Proofs.Shape.Mesh
import Mathlib.Data.List.Forall2

/-!
# What a lattice layout refers to

A cell selects all its faces, or those whose bits are set in a number of which only the lowest six
bits count (`Cell.faces_shownFaces`).  A link refers to its two cells by number, and a number that
several cells have stands for the last of them (`LatticeLayout.center_eq`).
`LatticeLayout.firstUnknown?` is the first number in the links that no cell has.
-/

namespace LatticeScene.Schedule

open Shape

namespace Cell

/-- Whether a cell shows a face: it does if nothing is said, or if the bit of the face is set. -/
def selects (c : Cell) (face : Face) : Bool :=
  match c.faces with
  | none => true
  | some bits => bits.testBit face.slot

/-- The faces that a cell shows, in the order of their bits. -/
def selectedFaces (c : Cell) : List Face := Face.all.filter c.selects

/-- How many faces cells show. -/
def faceTotal (cells : List Cell) : Nat := total (cells.map fun c => c.selectedFaces.length)

/-- Only the six lowest bits of a number choose faces. -/
theorem toNat_bits_ofBits (bits : Nat) : (FaceSet.ofBits bits).bits.toNat = bits % 64 := by
  have hlt : bits % 64 < 64 := Nat.mod_lt bits (by decide)
  exact UInt8.toNat_ofNat_of_lt' (Nat.lt_trans hlt (by decide))

/-- The faces shown are those that the bits of a cell select, in the same order. -/
theorem faces_shownFaces (c : Cell) : c.shownFaces.faces = c.selectedFaces := by
  unfold shownFaces selectedFaces
  cases hfaces : c.faces with
  | none =>
    have hall : Face.all.filter c.selects = Face.all := by
      refine List.filter_eq_self.mpr fun face _ => ?_
      rw [selects, hfaces]
    rw [hall]
    exact FaceSet.faces_all
  | some bits =>
    have hslot : ∀ face : Face, face.slot < 6 := by
      intro face
      cases face <;> decide
    have htest : ∀ face : Face, (bits % 64).testBit face.slot = bits.testBit face.slot := by
      intro face
      have hmod := Nat.testBit_mod_two_pow bits 6 face.slot
      rwa [decide_eq_true (hslot face), Bool.true_and] at hmod
    rw [FaceSet.faces_eq_filter_testBit, toNat_bits_ofBits]
    refine List.filter_congr fun face _ => ?_
    rw [htest, selects, hfaces]

/-- No stray bits are counted. -/
theorem count_shownFaces (c : Cell) : c.shownFaces.count = c.selectedFaces.length := by
  have hbits : c.shownFaces.bits < 64 := by
    unfold shownFaces
    cases c.faces with
    | none => decide
    | some bits =>
      rw [UInt8.lt_iff_toNat_lt]
      have hlt : bits % 64 < 64 := Nat.mod_lt bits (by decide)
      rwa [← toNat_bits_ofBits] at hlt
  rw [FaceSet.count_eq_length_faces hbits, faces_shownFaces]

end Cell

namespace LatticeLayout

/-- The cell that a number stands for: the last one with this number. -/
def named? (cells : List Cell) (id : Nat) : Option Cell := (cells.filter (·.id == id)).getLast?

/-- The centre of a number is the position of the cell it stands for. -/
theorem center?_eq (cells : List Cell) (id : Nat) :
    center? cells id = (named? cells id).map (·.position) := by
  rw [center?, named?, List.getLast?_filter]

/-- A number without a cell is reported. -/
theorem center_eq (layout : LatticeLayout) (id : Nat) :
    layout.center id =
      match named? layout.cells id with
      | some cell => .ok cell.position
      | none => .error (.unknownCell id) := by
  rw [center, center?_eq]
  cases named? layout.cells id with
  | none => rfl
  | some cell => rfl

/-- A number stands for no cell only if no cell has it. -/
theorem isNone_named? (cells : List Cell) (id : Nat) :
    (named? cells id).isNone = cells.all (·.id != id) := by
  rw [Bool.eq_iff_iff, Option.isNone_iff_eq_none, named?, List.getLast?_eq_none_iff,
    List.filter_eq_nil_iff, List.all_eq_true]
  simp only [beq_iff_eq, bne_iff_ne, ne_eq]

/-- The numbers that links refer to, link by link and the source first. -/
def references (links : List Link) : List Nat :=
  links.flatMap fun link => [link.source, link.target]

/-- The first number in links that no cell has. -/
def firstUnknown? (cells : List Cell) (links : List Link) : Option Nat :=
  (references links).find? fun id => cells.all (·.id != id)

/-- A link is drawn between the centres of the cells that its numbers stand for. -/
def Joins (cells : List Cell) (link : Link) (segment : Vec3 Float32 × Vec3 Float32) : Prop :=
  ∃ source target, named? cells link.source = some source ∧ named? cells link.target = some target ∧
    segment = (source.position, target.position)

end LatticeLayout

end LatticeScene.Schedule
