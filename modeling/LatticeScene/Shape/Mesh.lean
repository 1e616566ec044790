import LatticeScene.Shape.Face

/-!
# Meshes

A `Mesh` is what is drawn in one go: vertex positions in one flat buffer, three numbers to a
vertex, and indices into them.  Nothing is assumed about the buffers.  Numbers at the end that
make no whole vertex belong to no vertex, indices at the end that make no whole triangle belong
to no triangle, and an index may name a vertex that is not there.

`Mesh.flatNormals` gives every vertex the normal of the triangle it belongs to.  The normals of
all vertices are written into one buffer, which is as long as that of the positions, and a normal
is not written past its end (`Mesh.writeNormal?`).
-/

namespace LatticeScene.Shape

/-- The triples in a list, less what is left over at its end, after those of `before`, which are
kept in reverse. -/
def triplesFrom {α : Type} (before : List (Vec3 α)) : List α → List (Vec3 α)
  | a :: b :: c :: rest => triplesFrom (⟨a, b, c⟩ :: before) rest
  | _ => before.reverse

/-- Cut a list into triples.  One or two elements at the end may be left over. -/
def triples {α : Type} (xs : List α) : List (Vec3 α) := triplesFrom [] xs

/-- What was grouped before comes in front of the triples of the rest, in the order it was found. -/
theorem triplesFrom_eq {α : Type} (before : List (Vec3 α)) (xs : List α) :
    triplesFrom before xs = before.reverse ++ triples xs := by
  -- three numbers are taken at a time, so that the induction is on a bound of the length
  have h : ∀ n (xs : List α), xs.length ≤ n → ∀ before : List (Vec3 α),
      triplesFrom before xs = before.reverse ++ triplesFrom [] xs := by
    intro n
    induction n with
    | zero =>
      intro xs hx before
      cases xs with
      | nil => simp [triplesFrom]
      | cons => simp at hx
    | succ n ih =>
      intro xs hx before
      match xs with
      | [] => simp [triplesFrom]
      | [_] => simp [triplesFrom]
      | [_, _] => simp [triplesFrom]
      | a :: b :: c :: rest =>
        simp only [List.length_cons] at hx
        simp only [triplesFrom]
        rw [ih rest (by omega) (⟨a, b, c⟩ :: before), ih rest (by omega) [⟨a, b, c⟩]]
        simp
  exact h xs.length xs (Nat.le_refl _) before

/-- Three numbers in front make a triple in front. -/
@[simp] theorem triples_cons {α : Type} (a b c : α) (rest : List α) :
    triples (a :: b :: c :: rest) = ⟨a, b, c⟩ :: triples rest := by
  simp [triples, triplesFrom, triplesFrom_eq [⟨a, b, c⟩] rest]

/-- Writing triples out and cutting them up again gives them back. -/
theorem triples_flatMap {α : Type} (vs : List (Vec3 α)) :
    triples (vs.flatMap Vec3.toList) = vs := by
  induction vs with
  | nil => rfl
  | cons v vs ih => simp [List.flatMap_cons, Vec3.toList, ih]

/-- Vertex positions and the indices that draw them. -/
structure Mesh where
  /-- The components of the vertices, one after the other. -/
  positions : Array Float32
  /-- The indices of the vertices in drawing order. -/
  indices : Array UInt32
deriving DecidableEq

namespace Mesh

/-- A mesh that draws every vertex once, in order.  The number of indices is one of 32 bits, too. -/
def sequential (positions : Array Float32) : Mesh :=
  ⟨positions, (Array.range (positions.size / 3).toUInt32.toNat).map Nat.toUInt32⟩

/-- How many vertices there are. -/
def vertexCount (m : Mesh) : Nat := m.positions.size / 3

/-- How many triangles the indices make. -/
def triangleCount (m : Mesh) : Nat := m.indices.size / 3

/-- Whether there are no positions. -/
def isEmpty (m : Mesh) : Bool := m.positions.isEmpty

/-- The vertex with a given index. -/
def vertex? (m : Mesh) (i : Nat) : Option (Vec3 Float32) := do
  return ⟨← m.positions[3 * i]?, ← m.positions[3 * i + 1]?, ← m.positions[3 * i + 2]?⟩

/-- All vertices in order. -/
def vertices (m : Mesh) : List (Vec3 Float32) := triples m.positions.toList

/-- The indices of all triangles in order. -/
def triangles (m : Mesh) : List (Vec3 UInt32) := triples m.indices.toList

/-- The envelope of all vertices. -/
def bounds (m : Mesh) : Envelope := Envelope.ofPoints m.vertices

/-- The bytes of both buffers. -/
def byteSize (m : Mesh) : Nat := 4 * m.positions.size + 4 * m.indices.size

/-- The normal of a triangle: zero when its corners lie on a line. -/
def triangleNormal (a b c : Vec3 Float32) : Vec3 Float32 := ((b - a).cross (c - a)).normalized

/-- The corners of a triangle, none when one of them is not there. -/
def corners? (m : Mesh) (t : Vec3 UInt32) : Option (Vec3 (Vec3 Float32)) := do
  return ⟨← m.vertex? t.x.toNat, ← m.vertex? t.y.toNat, ← m.vertex? t.z.toNat⟩

/-- Write a normal over the components of a vertex, if they are all there. -/
def writeNormal? (normals : Array Float32) (i : Nat) (normal : Vec3 Float32) :
    Option (Array Float32) :=
  if 3 * i + 3 ≤ normals.size then
    some (((normals.setIfInBounds (3 * i) normal.x).setIfInBounds (3 * i + 1)
      normal.y).setIfInBounds (3 * i + 2) normal.z)
  else none

/-- Give the corners of a triangle its normal.  A triangle with a corner that is not there gives
no normals. -/
def shadeTriangle? (m : Mesh) (normals : Array Float32) (t : Vec3 UInt32) :
    Option (Array Float32) :=
  match m.corners? t with
  | none => some normals
  | some ⟨a, b, c⟩ =>
    let normal := triangleNormal a b c
    t.toList.foldlM (fun normals i => writeNormal? normals i.toNat normal) normals

/-- The components of the normals of all vertices, zero at first, or nothing if one of them is
written where there are no components. -/
def flatNormals? (m : Mesh) : Option (Array Float32) :=
  m.triangles.foldlM m.shadeTriangle? (Array.replicate m.positions.size 0)

/-- The components of the normals of all vertices. -/
def flatNormals (m : Mesh) : Array Float32 := m.flatNormals?.getD #[]

end Mesh

end LatticeScene.Shape
