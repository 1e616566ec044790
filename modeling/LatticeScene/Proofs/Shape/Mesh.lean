import LatticeScene.Shape.Face
import Mathlib.Data.Nat.Bitwise
import LatticeScene.Shape.Mesh

/-!
# Faces and meshes

How many vertices a set of faces gives, and how the vertices of a mesh are read.
-/

namespace LatticeScene.Shape

/-!
## The faces that a set selects

A `FaceSet` is eight bits, of which the lowest six stand for faces.  The faces of a set come in the
order of these bits (`faces_eq_filter_testBit`), and each gives two triangles, so that a set with
`n` faces gives `6 * n` vertices (`length_triangles`).  `FaceSet.count` counts all eight bits: it is
the number of faces unless one of the two stray bits is set.
-/

/-- A rectangle is drawn by two triangles. -/
@[simp] theorem Quad.length_triangles {α : Type} (q : Quad α) : q.triangles.length = 6 := rfl

namespace FaceSet

/-! ### Bits and faces -/

/-- The bit of a face is the power of two of its slot. -/
theorem toNat_bits_single (face : Face) : (single face).bits.toNat = 1 <<< face.slot := by
  cases face <;> rfl

/-- A face is selected exactly when its bit is set. -/
theorem contains_eq_testBit (s : FaceSet) (face : Face) :
    s.contains face = s.bits.toNat.testBit face.slot := by
  have hbit : (single face).bits.toNat = 2 ^ face.slot := by
    rw [toNat_bits_single, Nat.one_shiftLeft]
  have hand : (s.bits &&& (single face).bits).toNat =
      (s.bits.toNat.testBit face.slot).toNat * 2 ^ face.slot := by
    rw [UInt8.toNat_and, hbit, Nat.and_two_pow]
  rw [Bool.eq_iff_iff, contains, beq_iff_eq, ← UInt8.toNat_inj, hand, hbit]
  have hpos : 0 < 2 ^ face.slot := Nat.two_pow_pos face.slot
  cases s.bits.toNat.testBit face.slot with
  | false => simp [hpos.ne]
  | true => simp

/-- The faces of a set are those whose bits are set, in the order of the bits. -/
theorem faces_eq_filter_testBit (s : FaceSet) :
    s.faces = Face.all.filter fun face => s.bits.toNat.testBit face.slot := by
  rw [faces]
  exact List.filter_congr fun face _ => s.contains_eq_testBit face

/-- A set of one face has this face alone. -/
@[simp] theorem faces_single (face : Face) : (single face).faces = [face] := by
  cases face <;> decide

/-- The set of all faces has every face. -/
@[simp] theorem faces_all : all.faces = Face.all := by decide

/-- A set without bits has no faces. -/
theorem faces_of_isEmpty {s : FaceSet} (h : s.isEmpty = true) : s.faces = [] := by
  rw [isEmpty, beq_iff_eq] at h
  rw [faces_eq_filter_testBit, h]
  decide

/-- An empty set counts no face. -/
theorem count_of_isEmpty {s : FaceSet} (h : s.isEmpty = true) : s.count = 0 := by
  rw [isEmpty, beq_iff_eq] at h
  rw [count, h]
  decide

/-- A set that is not empty counts at least one face. -/
theorem count_pos {s : FaceSet} (h : s.isEmpty = false) : 0 < s.count := by
  by_contra hcount
  have hclear : ∀ i ∈ List.range 8, ¬s.bits.toNat.testBit i = true :=
    List.countP_eq_zero.mp (Nat.eq_zero_of_not_pos hcount)
  have hbits : s.bits.toNat = 0 := by
    refine Nat.eq_of_testBit_eq fun i => ?_
    rw [Nat.zero_testBit]
    by_cases hi : i < 8
    · exact Bool.eq_false_of_not_eq_true (hclear i (List.mem_range.mpr hi))
    · exact Nat.testBit_eq_false_of_lt (Nat.lt_of_lt_of_le s.bits.toNat_lt
        (Nat.pow_le_pow_right (by decide) (Nat.le_of_not_lt hi)))
  have hzero : s.bits = 0 := UInt8.toNat_inj.mp hbits
  rw [isEmpty, hzero] at h
  exact absurd h (by decide)

/-! ### Counting -/

/-- The bits of a set are those of its faces and two stray ones. -/
theorem count_eq_length_faces_add (s : FaceSet) :
    s.count = s.faces.length + [6, 7].countP s.bits.toNat.testBit := by
  have hslots : List.range 8 = Face.all.map Face.slot ++ [6, 7] := rfl
  rw [count, hslots, List.countP_append, List.countP_map, faces_eq_filter_testBit,
    List.countP_eq_length_filter]
  rfl

/-- A set counts each of its faces, and it may count bits that stand for no face. -/
theorem length_faces_le_count (s : FaceSet) : s.faces.length ≤ s.count := by
  have h := s.count_eq_length_faces_add
  omega

/-- A set without stray bits has as many faces as bits. -/
theorem count_eq_length_faces {s : FaceSet} (h : s.bits < 64) : s.count = s.faces.length := by
  have hlt : s.bits.toNat < 2 ^ 6 := UInt8.lt_iff_toNat_lt.mp h
  have hstray : ∀ i ∈ [6, 7], ¬s.bits.toNat.testBit i = true := by
    intro i hi
    have hle : 6 ≤ i := by
      simp only [List.mem_cons, List.not_mem_nil, or_false] at hi
      omega
    rw [Nat.testBit_eq_false_of_lt (Nat.lt_of_lt_of_le hlt (Nat.pow_le_pow_right (by decide) hle))]
    decide
  rw [count_eq_length_faces_add, List.countP_eq_zero.mpr hstray, Nat.add_zero]

/-! ### Vertices -/

section Vertices

variable {α : Type} [Scalar α]

/-- There are six vertices to each face of a set. -/
theorem length_triangles (s : FaceSet) (origin dimensions : Vec3 α) :
    (s.triangles origin dimensions).length = 6 * s.faces.length := by
  rw [triangles, List.length_flatMap]
  simp only [Quad.length_triangles]
  induction s.faces with
  | nil => rfl
  | cons face faces ih =>
    rw [List.map_cons, List.sum_cons, ih, List.length_cons]
    omega

/-- A set is drawn face by face. -/
theorem triangles_eq_flatMap_single (s : FaceSet) (origin dimensions : Vec3 α) :
    s.triangles origin dimensions =
      s.faces.flatMap fun face => (single face).triangles origin dimensions := by
  simp only [triangles, faces_single, List.flatMap_cons, List.flatMap_nil, List.append_nil]

end Vertices

end FaceSet

/-!
## Vertices and indices of meshes

A mesh has a vertex for every three numbers (`length_vertices`), and these are the vertices that can
be read (`exists_vertex?_iff`).  A mesh that is drawn in order has its vertices as indices, if 32
bits can number them (`toNat_indices_sequential`).
-/

/-- Lists of one length make a list that many times as long. -/
theorem length_flatMap_of_length {α β : Type} {f : α → List β} {n : Nat}
    (h : ∀ a, (f a).length = n) (as : List α) : (as.flatMap f).length = n * as.length := by
  induction as with
  | nil => rfl
  | cons a as ih =>
    rw [List.flatMap_cons, List.length_append, h, ih, List.length_cons, Nat.mul_succ, Nat.add_comm]

/-- The components of vertices are three times as many as the vertices. -/
theorem length_flatMap_toList {α : Type} (vertices : List (Vec3 α)) :
    (vertices.flatMap Vec3.toList).length = 3 * vertices.length :=
  length_flatMap_of_length (f := Vec3.toList) (n := 3) (fun _ => rfl) vertices

/-! ### Triples -/

section Triples

variable {α : Type}

/-- There is a triple for every three elements. -/
theorem length_triples : (xs : List α) → (triples xs).length = xs.length / 3
  | [] => (Nat.zero_div 3).symm
  | [_] => (Nat.div_eq_of_lt (by decide : 1 < 3)).symm
  | [_, _] => (Nat.div_eq_of_lt (by decide : 2 < 3)).symm
  | a :: b :: c :: rest => by
    rw [triples_cons, List.length_cons, length_triples rest]
    simp only [List.length_cons]
    omega

/-- Whole triples stay in step. -/
theorem triples_append : (xs : List α) → (ys : List α) → 3 ∣ xs.length →
    triples (xs ++ ys) = triples xs ++ triples ys
  | [], _, _ => rfl
  | [_], _, h => absurd h (by simp)
  | [_, _], _, h => absurd h (by simp)
  | a :: b :: c :: rest, ys, h => by
    have hrest : 3 ∣ rest.length := by
      simp only [List.length_cons] at h
      omega
    simp only [List.cons_append, triples_cons, triples_append rest ys hrest]

/-- A triple has three elements in a row. -/
theorem getElem?_triples_eq_some_iff {t : Vec3 α} : (xs : List α) → (k : Nat) →
    ((triples xs)[k]? = some t ↔
      xs[3 * k]? = some t.x ∧ xs[3 * k + 1]? = some t.y ∧ xs[3 * k + 2]? = some t.z)
  | [], k => by simp [triples, triplesFrom]
  | [_], k => by simp [triples, triplesFrom]
  | [_, _], k => by
    refine iff_of_false (by simp [triples, triplesFrom]) fun h => ?_
    have hlast := (List.getElem?_eq_some_iff.mp h.2.2).1
    simp only [List.length_cons, List.length_nil] at hlast
    omega
  | a :: b :: c :: rest, 0 => by
    obtain ⟨x, y, z⟩ := t
    simp [Vec3.mk.injEq]
  | a :: b :: c :: rest, k + 1 => by
    rw [triples_cons, List.getElem?_cons_succ, getElem?_triples_eq_some_iff rest k]
    rfl

end Triples

/-! ### Vertices and indices -/

namespace Mesh

/-- The vertex with an index is the one in that place. -/
theorem vertex?_eq (m : Mesh) (i : Nat) : m.vertex? i = m.vertices[i]? := by
  refine Option.ext fun v => ?_
  rw [vertices, getElem?_triples_eq_some_iff]
  simp only [vertex?, Array.getElem?_toList, Option.bind_eq_bind, Option.pure_def,
    Option.bind_eq_some_iff, Option.some.injEq]
  constructor
  · rintro ⟨x, hx, y, hy, z, hz, rfl⟩
    exact ⟨hx, hy, hz⟩
  · rintro ⟨hx, hy, hz⟩
    exact ⟨v.x, hx, v.y, hy, v.z, hz, rfl⟩

/-- A mesh has as many vertices as its positions have triples. -/
theorem length_vertices (m : Mesh) : m.vertices.length = m.vertexCount := by
  rw [vertices, length_triples, Array.length_toList, vertexCount]

/-- The vertices that can be read are those that are counted. -/
theorem exists_vertex?_iff (m : Mesh) {i : Nat} :
    (∃ v, m.vertex? i = some v) ↔ i < m.vertexCount := by
  rw [vertex?_eq, ← m.length_vertices]
  constructor
  · rintro ⟨v, hv⟩
    exact (List.getElem?_eq_some_iff.mp hv).1
  · intro h
    exact ⟨_, List.getElem?_eq_getElem h⟩

/-- Meshes with whole vertices have the vertices of all their positions together. -/
theorem flatMap_vertices {meshes : List Mesh} (h : ∀ mesh ∈ meshes, 3 ∣ mesh.positions.size) :
    meshes.flatMap vertices = triples (meshes.flatMap (·.positions.toList)) := by
  induction meshes with
  | nil => rfl
  | cons mesh meshes ih =>
    have hmesh : 3 ∣ mesh.positions.toList.length := h mesh List.mem_cons_self
    have hrest := ih fun other hother => h other (List.mem_cons_of_mem mesh hother)
    rw [List.flatMap_cons, List.flatMap_cons, triples_append _ _ hmesh, hrest]
    rfl

/-- Whole positions make a vertex if there are any. -/
theorem vertices_ne_nil {m : Mesh} (hne : m.isEmpty = false) (h : 3 ∣ m.positions.size) :
    m.vertices ≠ [] := by
  intro hnil
  have hlength : m.vertices.length = m.positions.size / 3 := m.length_vertices
  rw [hnil, List.length_nil] at hlength
  have hzero : m.positions.size = 0 := by omega
  rw [isEmpty, Array.isEmpty, hzero] at hne
  exact absurd hne (by decide)

/-- A mesh that is drawn in order has its vertices as indices. -/
theorem toNat_indices_sequential {positions : Array Float32}
    (h : (sequential positions).vertexCount < UInt32.size) :
    (sequential positions).indices.toList.map UInt32.toNat =
      List.range (sequential positions).vertexCount := by
  have hcount : (positions.size / 3).toUInt32.toNat = (sequential positions).vertexCount :=
    UInt32.toNat_ofNat_of_lt' h
  have hindices : (sequential positions).indices.toList =
      (List.range (sequential positions).vertexCount).map Nat.toUInt32 := by
    rw [← hcount, sequential, Array.toList_map, Array.toList_range]
  rw [hindices, List.map_map]
  refine (List.map_congr_left fun v hv => ?_).trans (List.map_id _)
  exact UInt32.toNat_ofNat_of_lt' (Nat.lt_trans (List.mem_range.mp hv) h)

end Mesh

end LatticeScene.Shape
