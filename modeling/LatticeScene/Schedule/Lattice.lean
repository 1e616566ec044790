import LatticeScene.Shape.Spelling
import LatticeScene.Schedule.Boxes

/-!
# Lattice layouts

A layout shows the cells of a lattice-surgery computation at one time, each with a colour, and the
links between cells that take part in the same operation.
-/

namespace LatticeScene.Schedule

open Json Shape

/-- A cell of a layout. -/
structure Cell where
  /-- The number by which links refer to the cell. -/
  id : Nat
  /-- The centre of the cell. -/
  position : Vec3 Float32
  /-- The colour of the cell. -/
  color : String
  /-- The operation that occupies the cell. -/
  operation : Option Nat
  /-- Which of its faces are shown, all of them when nothing is said. -/
  faces : Option Nat
deriving DecidableEq

/-- A link between two cells. -/
structure Link where
  source : Nat
  target : Nat
  /-- The colour of the link. -/
  color : Option String
deriving DecidableEq

/-- The cells and links of a layout. -/
structure LatticeLayout where
  cells : List Cell
  links : List Link
deriving DecidableEq

namespace Cell

/-- The faces that are shown. -/
def shownFaces (c : Cell) : FaceSet :=
  match c.faces with
  | none => .all
  | some bits => .ofBits bits

/-- Read a cell. -/
def ofTree? (tree : Tree) : Option Cell := do
  match ← tree.fields? [["id"], ["fx"], ["fy"], ["fz"], ["c"], ["op"], ["s"]] with
  | [id, x, y, z, color, operation, faces] =>
    return {
      id := ← Tree.orDefault? 0 Tree.nat64? id
      position := ⟨← Tree.required? Tree.float32? x, ← Tree.required? Tree.float32? y,
        ← Tree.required? Tree.float32? z⟩
      color := ← Tree.required? Tree.string? color
      operation := ← Tree.orDefault? none (Tree.orNull? Tree.nat64?) operation
      faces := ← Tree.orDefault? none (Tree.orNull? Tree.nat32?) faces }
  | _ => none

/-- Write a cell. -/
def toTree (c : Cell) : Tree :=
  .record [("id", .ofNat c.id), ("fx", .ofFloat32 c.position.x), ("fy", .ofFloat32 c.position.y),
    ("fz", .ofFloat32 c.position.z), ("c", .ofString c.color),
    ("op", .ofOption .ofNat c.operation), ("s", .ofOption .ofNat c.faces)]

end Cell

namespace Link

/-- Read a link. -/
def ofTree? (tree : Tree) : Option Link := do
  match ← tree.fields? [["source"], ["target"], ["c"]] with
  | [source, target, color] =>
    return {
      source := ← Tree.required? Tree.nat64? source
      target := ← Tree.required? Tree.nat64? target
      color := ← Tree.orDefault? none (Tree.orNull? Tree.string?) color }
  | _ => none

/-- Write a link. -/
def toTree (l : Link) : Tree :=
  .record [("source", .ofNat l.source), ("target", .ofNat l.target),
    ("c", .ofOption .ofString l.color)]

end Link

namespace LatticeLayout

/-- The centre of the last cell with a given number. -/
def center? (cells : List Cell) (id : Nat) : Option (Vec3 Float32) :=
  (cells.reverse.find? (·.id == id)).map (·.position)

/-- The centre of the cell at one end of a link. -/
def center (layout : LatticeLayout) (id : Nat) : Except Fault (Vec3 Float32) :=
  match center? layout.cells id with
  | some center => .ok center
  | none => .error (.unknownCell id)

/-- Read a layout.  Links may be missing. -/
def ofTree? (tree : Tree) : Option LatticeLayout := do
  match ← tree.fields? [["nodes"], ["links"]] with
  | [cells, links] =>
    return {
      cells := ← Tree.required? (Tree.list? Cell.ofTree?) cells
      links := ← Tree.orDefault? [] (Tree.list? Link.ofTree?) links }
  | _ => none

/-- Write a layout. -/
def toTree (l : LatticeLayout) : Tree :=
  .record [("nodes", .ofList Cell.toTree l.cells), ("links", .ofList Link.toTree l.links)]

end LatticeLayout

end LatticeScene.Schedule
