import LatticeScene.Shape.SegmentedBox
import LatticeScene.Json.Record

/-!
# Shapes in JSON

How vectors, boxes, sets of faces and meshes are read from JSON and written as JSON.  A vector is
an array of its three components, and a set of faces is its text.
-/

namespace LatticeScene.Shape

open Json

/-- Read three components. -/
def Vec3.ofTree? {α : Type} (read : Tree → Option α) : Tree → Option (Vec3 α)
  | .array [x, y, z] => return ⟨← read x, ← read y, ← read z⟩
  | _ => none

/-- Write three components. -/
def Vec3.toTree {α : Type} (write : α → Tree) (v : Vec3 α) : Tree := .array (v.toList.map write)

/-- Read a point or a size. -/
def Vec3.ofFloats? : Tree → Option (Vec3 Float32) := Vec3.ofTree? Tree.float32?

/-- Write a point or a size. -/
def Vec3.toFloats : Vec3 Float32 → Tree := Vec3.toTree Tree.ofFloat32

/-- Read a box. -/
def CornerBox.ofTree? (tree : Tree) : Option (CornerBox Float32) := do
  match ← tree.fields? [["position"], ["dimensions"]] with
  | [position, dimensions] =>
    return {
      position := ← Tree.required? Vec3.ofFloats? position
      dimensions := ← Tree.required? Vec3.ofFloats? dimensions }
  | _ => none

/-- Write a box. -/
def CornerBox.toTree (b : CornerBox Float32) : Tree :=
  .record [("position", b.position.toFloats), ("dimensions", b.dimensions.toFloats)]

/-- Read a set of faces. -/
def FaceSet.ofTree? (tree : Tree) : Option FaceSet := tree.string?.bind ofText?

/-- Write a set of faces. -/
def FaceSet.toTree (s : FaceSet) : Tree := .ofString s.text

/-- Read the parameters of a subdivided box. -/
def BoxParameters.ofTree? (tree : Tree) : Option BoxParameters := do
  match ← tree.fields? [["dimensions"], ["segments"], ["faces"]] with
  | [dimensions, segments, faces] =>
    return {
      dimensions := ← Tree.required? Vec3.ofFloats? dimensions
      segments := ← Tree.required? (Vec3.ofTree? Tree.nat32?) segments
      faces := ← Tree.required? FaceSet.ofTree? faces }
  | _ => none

/-- Write the parameters of a subdivided box. -/
def BoxParameters.toTree (p : BoxParameters) : Tree :=
  .record [("dimensions", p.dimensions.toFloats), ("segments", p.segments.toTree Tree.ofNat),
    ("faces", p.faces.toTree)]

/-- Read a group of indices. -/
def Group.ofTree? (tree : Tree) : Option Group := do
  match ← tree.fields? [["start"], ["count"], ["material_slot"]] with
  | [start, count, materialSlot] =>
    return {
      start := ← Tree.required? Tree.nat32? start
      count := ← Tree.required? Tree.nat32? count
      materialSlot := ← Tree.required? Tree.nat32? materialSlot }
  | _ => none

/-- Write a group of indices. -/
def Group.toTree (g : Group) : Tree :=
  .record [("start", .ofNat g.start), ("count", .ofNat g.count),
    ("material_slot", .ofNat g.materialSlot)]

/-- Read a mesh. -/
def Mesh.ofTree? (tree : Tree) : Option Mesh := do
  match ← tree.fields? [["positions"], ["indices"]] with
  | [positions, indices] =>
    let positions ← Tree.required? (Tree.list? Tree.float32?) positions
    let indices ← Tree.required? (Tree.list? Tree.nat32?) indices
    return ⟨positions.toArray, (indices.map Nat.toUInt32).toArray⟩
  | _ => none

/-- Write a mesh. -/
def Mesh.toTree (m : Mesh) : Tree :=
  .record [("positions", .ofList .ofFloat32 m.positions.toList),
    ("indices", .ofList (fun i => .ofNat i.toNat) m.indices.toList)]

end LatticeScene.Shape
