import LatticeScene.Shape.Space
import LatticeScene.Text

/-!
# The faces of a box

A box has six faces, and a `FaceSet` selects some of them.  Every face is laid out as a grid:
its columns advance along one axis, its rows along a second, and the face stands off from the
centre of the box along the third.

`FaceGrid.point` is the one formula for a vertex.  `Face.quad` uses it for the four corners of a
face and `FaceGrid.points` for all points of a subdivided one.  `cellTriangles` splits a cell of
a grid into two triangles.
-/

namespace LatticeScene.Shape

/-- One of the six faces of an axis-aligned box. -/
inductive Face where
  | posX
  | negX
  | posY
  | negY
  | posZ
  | negZ
deriving DecidableEq, Repr

/-- How the grid of a face lies in space. -/
structure FaceGrid (α : Type) where
  /-- The axis along which columns advance. -/
  u : Axis
  /-- The axis along which rows advance. -/
  v : Axis
  /-- The axis along which the face stands off from the centre. -/
  w : Axis
  /-- The direction of `u`, one or minus one. -/
  uSign : α
  /-- The direction of `v`, one or minus one. -/
  vSign : α

/-- The extents of a face: its width and height, and the depth of the box behind it.  A negative
depth turns the face around. -/
structure FaceExtents (α : Type) where
  width : α
  height : α
  depth : α

namespace Face

/-- All faces, in the order of their slots. -/
def all : List Face := [posX, negX, posY, negY, posZ, negZ]

/-- The bit of a face in a set of faces, which is also its material slot. -/
def slot : Face → Nat
  | posX => 0
  | negX => 1
  | posY => 2
  | negY => 3
  | posZ => 4
  | negZ => 5

/-- The name of a face. -/
def name : Face → String
  | posX => "PosX"
  | negX => "NegX"
  | posY => "PosY"
  | negY => "NegY"
  | posZ => "PosZ"
  | negZ => "NegZ"

variable {α : Type}

/-- How the grid of a face lies in space. -/
def grid [Scalar α] : Face → FaceGrid α :=
  let one : α := Scalar.ofNat 1
  fun
  | posX => ⟨.z, .y, .x, -one, -one⟩
  | negX => ⟨.z, .y, .x, one, -one⟩
  | posY => ⟨.x, .z, .y, one, one⟩
  | negY => ⟨.x, .z, .y, one, -one⟩
  | posZ => ⟨.x, .y, .z, one, -one⟩
  | negZ => ⟨.x, .y, .z, -one, -one⟩

/-- The extents of a face of a box.  The depth is negated on the negative faces, which lie on the
far side. -/
def extents [Neg α] (dimensions : Vec3 α) : Face → FaceExtents α
  | posX => ⟨dimensions.z, dimensions.y, dimensions.x⟩
  | negX => ⟨dimensions.z, dimensions.y, -dimensions.x⟩
  | posY => ⟨dimensions.x, dimensions.z, dimensions.y⟩
  | negY => ⟨dimensions.x, dimensions.z, -dimensions.y⟩
  | posZ => ⟨dimensions.x, dimensions.y, dimensions.z⟩
  | negZ => ⟨dimensions.x, dimensions.y, -dimensions.z⟩

/-- The numbers of columns and rows of a face, from those of cells along each axis of the box. -/
def segments (perAxis : Vec3 Nat) : Face → Nat × Nat
  | posX | negX => (perAxis.z, perAxis.y)
  | posY | negY => (perAxis.x, perAxis.z)
  | posZ | negZ => (perAxis.x, perAxis.y)

end Face

/-! ### Sets of faces -/

/-- A selection of faces, one bit for each.  The two bits above them belong to no face. -/
structure FaceSet where
  bits : UInt8
deriving DecidableEq, Repr

namespace FaceSet

/-- The set with only one face. -/
def single (face : Face) : FaceSet := ⟨1 <<< face.slot.toUInt8⟩

/-- All six faces. -/
def all : FaceSet := ⟨0x3F⟩

/-- The faces that the lowest six bits of a number select. -/
def ofBits (bits : Nat) : FaceSet := ⟨(bits % 64).toUInt8⟩

/-- Whether no bit is set. -/
def isEmpty (s : FaceSet) : Bool := s.bits == 0

/-- Whether a face is selected. -/
def contains (s : FaceSet) (face : Face) : Bool :=
  s.bits &&& (single face).bits == (single face).bits

/-- The selected faces, in the order of their slots. -/
def faces (s : FaceSet) : List Face := Face.all.filter s.contains

/-- How many bits are set. -/
def count (s : FaceSet) : Nat := (List.range 8).countP s.bits.toNat.testBit

/-- The names of faces in texts. -/
def flags : List Text.NamedFlag :=
  [⟨"POS_X", 1⟩, ⟨"NEG_X", 2⟩, ⟨"POS_Y", 4⟩, ⟨"NEG_Y", 8⟩, ⟨"POS_Z", 16⟩, ⟨"NEG_Z", 32⟩,
    ⟨"ALL", 63⟩]

/-- The text of a set of faces. -/
def text (s : FaceSet) : String := Text.NamedFlag.write flags s.bits

/-- The set of faces that a text stands for. -/
def ofText? (t : String) : Option FaceSet := (Text.NamedFlag.read? flags t).map (⟨·⟩)

end FaceSet

/-! ### Points of a face -/

namespace FaceGrid

variable {α : Type} [Scalar α]

/-- The outward normal of a face that stands off by `depth`. -/
def normal (g : FaceGrid α) (depth : α) : Vec3 α :=
  g.w.unit.scale (if Scalar.ofNat 0 < depth then Scalar.ofNat 1 else -Scalar.ofNat 1)

/-- The point of a face at the distances `x` and `y` from its lower edges, for a box around
`origin`. -/
def point (g : FaceGrid α) (origin : Vec3 α) (extents : FaceExtents α) (x y : α) : Vec3 α :=
  let two : α := Scalar.ofNat 2
  let atU := Vec3.zero.set g.u ((x - extents.width / two) * g.uSign + origin.get g.u)
  let atV := atU.set g.v ((y - extents.height / two) * g.vSign + origin.get g.v)
  atV.set g.w (extents.depth / two + origin.get g.w)

/-- The points of a face with the given numbers of columns and rows, each with its column and
row, row by row. -/
def points (g : FaceGrid α) (origin : Vec3 α) (extents : FaceExtents α) (columns rows : Nat) :
    List (Nat × Nat × Vec3 α) :=
  let columnWidth := extents.width / Scalar.ofNat columns
  let rowHeight := extents.height / Scalar.ofNat rows
  (List.range (rows + 1)).flatMap fun iy =>
    (List.range (columns + 1)).map fun ix =>
      (ix, iy, g.point origin extents (Scalar.ofNat ix * columnWidth) (Scalar.ofNat iy * rowHeight))

end FaceGrid

/-- The corners of the two triangles of the cell in column `ix` and row `iy`, as numbers of grid
points, in a grid with `rowWidth` points to a row. -/
def cellTriangles (ix iy rowWidth : Nat) : List (Vec3 Nat) :=
  let a := ix + rowWidth * iy
  let b := ix + rowWidth * (iy + 1)
  let c := (ix + 1) + rowWidth * (iy + 1)
  let d := (ix + 1) + rowWidth * iy
  [⟨a, b, d⟩, ⟨b, c, d⟩]

/-- A face that is not subdivided. -/
structure Quad (α : Type) where
  /-- The corners, row by row. -/
  corners : Vector (Vec3 α) 4
  /-- The outward normal. -/
  normal : Vec3 α

namespace Quad

variable {α : Type}

/-- The corners of the two triangles of a quad, in drawing order. -/
def triangles (q : Quad α) : List (Vec3 α) :=
  (cellTriangles 0 0 2).flatMap fun t => t.toList.filterMap (q.corners[·]?)

end Quad

/-- The four corners of a face around `origin`. -/
def FaceGrid.quad {α : Type} [Scalar α] (g : FaceGrid α) (origin : Vec3 α)
    (extents : FaceExtents α) : Quad α :=
  let corner (ix iy : Nat) :=
    g.point origin extents (Scalar.ofNat ix * extents.width) (Scalar.ofNat iy * extents.height)
  { corners := #v[corner 0 0, corner 1 0, corner 0 1, corner 1 1]
    normal := g.normal extents.depth }

/-- The quad of a face of the box centred on `origin`. -/
def Face.quad {α : Type} [Scalar α] (face : Face) (origin dimensions : Vec3 α) : Quad α :=
  face.grid.quad origin (face.extents dimensions)

/-- The corners of the triangles of the selected faces of a box, in drawing order. -/
def FaceSet.triangles {α : Type} [Scalar α] (faces : FaceSet) (origin dimensions : Vec3 α) :
    List (Vec3 α) :=
  faces.faces.flatMap fun face => (face.quad origin dimensions).triangles

end LatticeScene.Shape
