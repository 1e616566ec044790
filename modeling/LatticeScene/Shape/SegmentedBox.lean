import LatticeScene.Shape.Mesh

/-!
# Subdivided boxes

A `SegmentedBox` is a box around the origin whose faces are grids of cells.  Vertices are shared
within a face and not between faces; each has a normal and a place on the face, from zero to one
along both of its sides.  The indices of every face form a group of their own, so that every face
can have its own material.
-/

namespace LatticeScene.Shape

/-- A run of indices that is drawn with one material. -/
structure Group where
  /-- The first index of the run. -/
  start : Nat
  /-- How many indices there are. -/
  count : Nat
  /-- The material. -/
  materialSlot : Nat
deriving DecidableEq, Repr

/-- The group of the indices from `start` up to `stop`.  Both ends are cut to 32 bits. -/
def Group.ofRange (start stop materialSlot : Nat) : Group :=
  ⟨start.toUInt32.toNat, (stop.toUInt32 - start.toUInt32).toNat, materialSlot⟩

/-- What a subdivided box is built from. -/
structure BoxParameters where
  /-- Width, height and depth. -/
  dimensions : Vec3 Float32
  /-- How many cells there are along width, height and depth. -/
  segments : Vec3 Nat
  /-- Which faces there are. -/
  faces : FaceSet
deriving DecidableEq

/-- A box whose faces are grids of cells. -/
structure SegmentedBox where
  parameters : BoxParameters
  /-- The components of the vertices. -/
  positions : Array Float32
  /-- The components of their normals. -/
  normals : Array Float32
  /-- Their places on the faces, two numbers to a vertex. -/
  uvs : Array Float32
  /-- The corners of the triangles. -/
  indices : Array UInt32
  /-- One group for every face. -/
  groups : Array Group

namespace SegmentedBox

/-- An extent of zero, or of NaN, counts as one. -/
def extentOrUnit (extent : Float32) : Float32 :=
  if extent == 0 || extent.isNaN then 1 else extent

/-- Parameters with the defaults put in: no faces select all of them, an extent of zero or NaN is
one, and no cells are one cell. -/
def completed (faces : FaceSet) (dimensions : Vec3 Float32) (segments : Vec3 Nat) : BoxParameters :=
  { dimensions := dimensions.map extentOrUnit
    segments := segments.map (max 1)
    faces := if faces.isEmpty then .all else faces }

/-- How many vertices there are. -/
def vertexCount (b : SegmentedBox) : Nat := b.positions.size / 3

/-- How many triangles there are. -/
def triangleCount (b : SegmentedBox) : Nat := b.indices.size / 3

/-- The numbers of the grid points that the triangles of a face have as corners, cell by cell. -/
def faceTriangles (columns rows : Nat) : List (Vec3 Nat) :=
  (List.range rows).flatMap fun iy =>
    (List.range columns).flatMap fun ix => cellTriangles ix iy (columns + 1)

/-- The place on a face of the grid point in column `ix` and row `iy`: rows count downwards from
one. -/
def gridUV (ix iy columns rows : Nat) : List Float32 :=
  [Scalar.ofNat ix / Scalar.ofNat columns, 1 - Scalar.ofNat iy / Scalar.ofNat rows]

/-- Append the grid of a face. -/
def addFace (b : SegmentedBox) (face : Face) : SegmentedBox :=
  let grid : FaceGrid Float32 := face.grid
  let extents := face.extents b.parameters.dimensions
  let (columns, rows) := face.segments b.parameters.segments
  let points := grid.points Vec3.zero extents columns rows
  let normal := (grid.normal extents.depth).toList
  let corners := (faceTriangles columns rows).flatMap fun t =>
    t.toList.map fun corner => (b.vertexCount + corner).toUInt32
  { parameters := b.parameters
    positions := b.positions ++ (points.flatMap fun (_, _, point) => point.toList).toArray
    normals := b.normals ++ (points.flatMap fun _ => normal).toArray
    uvs := b.uvs ++ (points.flatMap fun (ix, iy, _) => gridUV ix iy columns rows).toArray
    indices := b.indices ++ corners.toArray
    groups := b.groups.push
      (.ofRange b.indices.size (b.indices.size + corners.length) face.slot) }

/-- The selected faces of a box, with the defaults of `completed`. -/
def ofFaces (faces : FaceSet) (dimensions : Vec3 Float32) (segments : Vec3 Nat) : SegmentedBox :=
  let parameters := completed faces dimensions segments
  parameters.faces.faces.foldl addFace
    { parameters, positions := #[], normals := #[], uvs := #[], indices := #[], groups := #[] }

/-- A box with all its faces. -/
def ofAllFaces (dimensions : Vec3 Float32) (segments : Vec3 Nat) : SegmentedBox :=
  ofFaces .all dimensions segments

end SegmentedBox

end LatticeScene.Shape
