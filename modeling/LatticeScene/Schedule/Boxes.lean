import LatticeScene.Shape.Spelling

/-!
# Schedules of boxes and of plumbing pieces

A schedule places boxes, whole ones of numbered types or plumbing pieces that expand to several.
-/

namespace LatticeScene.Schedule

/-!
## Faults of schedules

A schedule refers to its own entries by number.  A fault is a reference to an entry that is not
there.
-/

/-- A reference to an entry that a schedule does not have. -/
inductive Fault where
  /-- A box has a type without dimensions. -/
  | unknownBoxType (boxType : Nat)
  /-- A reference does not lie among the entries it counts. -/
  | danglingReference (reference entries : Nat)
  /-- A link ends in a cell that is not there. -/
  | unknownCell (cell : Nat)
deriving DecidableEq, Repr

/-- The text of a fault. -/
def Fault.message : Fault → String
  | unknownBoxType boxType => s!"box type {boxType} is not defined in the schedule"
  | danglingReference reference entries =>
    s!"reference {reference} is out of range for {entries} entries"
  | unknownCell cell => s!"link references unknown cell {cell}"

open Json Shape

/-!
## Schedules of whole boxes

A schedule of boxes places boxes of numbered types.  The dimensions of the types are kept in
order of their numbers, each number once.
-/

/-- The dimensions of box types, in order of their numbers. -/
structure BoxTypes where
  entries : List (Nat × Vec3 Float32)
deriving DecidableEq

namespace BoxTypes

/-- No box types. -/
def empty : BoxTypes := ⟨[]⟩

/-- Put an entry into its place, over one with the same number. -/
def insertEntry (boxType : Nat) (dimensions : Vec3 Float32) :
    List (Nat × Vec3 Float32) → List (Nat × Vec3 Float32)
  | [] => [(boxType, dimensions)]
  | entry :: rest =>
    if boxType < entry.1 then (boxType, dimensions) :: entry :: rest
    else if boxType = entry.1 then (boxType, dimensions) :: rest
    else entry :: insertEntry boxType dimensions rest

/-- Set the dimensions of a box type. -/
def insert (types : BoxTypes) (boxType : Nat) (dimensions : Vec3 Float32) : BoxTypes :=
  ⟨insertEntry boxType dimensions types.entries⟩

/-- The box types in a list, the last entry for each number. -/
def ofList (entries : List (Nat × Vec3 Float32)) : BoxTypes :=
  entries.foldl (fun types entry => types.insert entry.1 entry.2) empty

/-- The dimensions of a box type. -/
def get? (types : BoxTypes) (boxType : Nat) : Option (Vec3 Float32) :=
  types.entries.lookup boxType

/-- An entry that is put in is found under its own key, and the other entries are found as before.
-/
theorem lookup_insertEntry (k j : Nat) (d : Vec3 Float32) (entries : List (Nat × Vec3 Float32)) :
    (insertEntry k d entries).lookup j = if j = k then some d else entries.lookup j := by
  induction entries with
  | nil =>
    by_cases h : j = k
    · simp [insertEntry, h]
    · simp [insertEntry, List.lookup_cons, beq_false_of_ne h, h]
  | cons entry rest ih =>
    -- the entry goes in front of a greater key, over an equal one, or further back
    obtain ⟨m, e⟩ := entry
    unfold insertEntry
    by_cases h : j = k
    · subst h
      split
      · simp
      · split
        · simp
        · next hne => simp [List.lookup_cons, beq_false_of_ne hne, ih]
    · have hb : (j == k) = false := beq_false_of_ne h
      split
      · simp [List.lookup_cons, hb]
      · split
        · next heq =>
          simp only at heq
          subst heq
          simp [List.lookup_cons, hb]
        · simp [List.lookup_cons, ih, h]

/-- The last entry for a box type counts. -/
theorem get?_insert (types : BoxTypes) (k j : Nat) (d : Vec3 Float32) :
    (types.insert k d).get? j = if j = k then some d else types.get? j :=
  lookup_insertEntry k j d types.entries

end BoxTypes

/-- A box of a type with its minimum corner. -/
structure Placement where
  boxType : Nat
  corner : Vec3 Float32
deriving DecidableEq

/-- Boxes to be shown whole. -/
structure BoxSchedule where
  placements : List Placement
  types : BoxTypes
deriving DecidableEq

/-- Read a placement: an array of the type and the three coordinates. -/
def Placement.ofTree? : Tree → Option Placement
  | .array [boxType, x, y, z] =>
    return ⟨← boxType.nat32?, ⟨← x.float32?, ← y.float32?, ← z.float32?⟩⟩
  | _ => none

/-- Write a placement. -/
def Placement.toTree (p : Placement) : Tree :=
  .array (.ofNat p.boxType :: p.corner.toList.map .ofFloat32)

namespace BoxSchedule

/-- The schedule without boxes. -/
def empty : BoxSchedule := ⟨[], .empty⟩

/-- Whether there are no boxes. -/
def isEmpty (s : BoxSchedule) : Bool := s.placements.isEmpty

/-- The box that a placement stands for. -/
def box (s : BoxSchedule) (p : Placement) : Except Fault (CornerBox Float32) :=
  match s.types.get? p.boxType with
  | some dimensions => .ok ⟨p.corner, dimensions⟩
  | none => .error (.unknownBoxType p.boxType)

/-- Read a schedule of boxes. -/
def ofTree? (tree : Tree) : Option BoxSchedule := do
  match ← tree.fields? [["coords"], ["types"]] with
  | [placements, types] =>
    return {
      placements := ← Tree.required? (Tree.list? Placement.ofTree?) placements
      types := .ofList (← Tree.required? (Tree.nat32Map? Vec3.ofFloats?) types) }
  | _ => none

/-- Write the placements of a schedule. -/
def placementsTree (s : BoxSchedule) : Tree := .ofList Placement.toTree s.placements

/-- Write a schedule of boxes. -/
def toTree (s : BoxSchedule) : Tree :=
  .record [("coords", s.placementsTree),
    ("types", .record (s.types.entries.map fun entry => (toString entry.1, entry.2.toFloats)))]

end BoxSchedule

/-!
## Plumbing schedules

A plumbing piece is a unit cell of a schedule.  Two numbers say what it holds on the primal and on
the dual lattice: bit 3 stands for a core, and bits 2, 1 and 0 for an arm along x, y and z.
-/

/-- A unit cell of a plumbing schedule. -/
structure PlumbingPiece where
  /-- Where the piece is. -/
  position : Vec3 Float32
  /-- What it holds on the primal lattice. -/
  primal : Nat
  /-- What it holds on the dual lattice. -/
  dual : Nat
deriving DecidableEq

/-- The pieces of a plumbing schedule. -/
structure PlumbingSchedule where
  pieces : List PlumbingPiece
deriving DecidableEq

namespace PlumbingPiece

/-- Whether a number holds a core. -/
def hasCore (bits : Nat) : Bool := bits.testBit 3

/-- Whether a number holds an arm along an axis. -/
def hasArm (bits : Nat) (axis : Axis) : Bool := bits.testBit (2 - axis.index)

/-- Read the numbers for both lattices. -/
def bitsOfTree? (tree : Tree) : Option (Nat × Nat) := do
  match ← tree.fields? [["p"], ["d"]] with
  | [primal, dual] =>
    return (← Tree.required? Tree.nat32? primal, ← Tree.required? Tree.nat32? dual)
  | _ => none

/-- Read a piece. -/
def ofTree? (tree : Tree) : Option PlumbingPiece := do
  match ← tree.fields? [["P"], ["D"]] with
  | [position, bits] =>
    let position ← Tree.required? Vec3.ofFloats? position
    let (primal, dual) ← Tree.required? bitsOfTree? bits
    return { position, primal, dual }
  | _ => none

/-- Write a piece. -/
def toTree (p : PlumbingPiece) : Tree :=
  .record [("P", p.position.toFloats),
    ("D", .record [("p", .ofNat p.primal), ("d", .ofNat p.dual)])]

end PlumbingPiece

namespace PlumbingSchedule

/-- Read a plumbing schedule. -/
def ofTree? (tree : Tree) : Option PlumbingSchedule := do
  match ← tree.fields? [["plumbs"]] with
  | [pieces] => return ⟨← Tree.required? (Tree.list? PlumbingPiece.ofTree?) pieces⟩
  | _ => none

/-- Write a plumbing schedule. -/
def toTree (s : PlumbingSchedule) : Tree :=
  .record [("plumbs", .ofList PlumbingPiece.toTree s.pieces)]

end PlumbingSchedule

end LatticeScene.Schedule
