import LatticeScene.Proofs.Shape.BoxRefusal

/-!
# The normal of a vertex

A triangle gives its normal to its corners if they are all there (`Mesh.Shades`), and a later
triangle overwrites what an earlier one has given.  So a vertex has the normal of the last triangle
that shades it (`Mesh.IsLastAt`), and zero if there is none.

The normals stand in one buffer, and a write past its end would leave a mesh without normals.  It
never comes to this: the buffer is as long as that of the positions, and a vertex that can be read
has a normal that can be written (`Mesh.exists_shadeTriangle?`).  What a triangle does to the buffer
is said once and followed through all triangles (`Mesh.Shaded`).

In a batch of boxes no two triangles have a corner in common, so that every vertex has the normal of
its own triangle (`Mesh.DrawsInOrder.exists_hasNormal`).
-/

namespace LatticeScene.Shape

namespace Mesh

variable (m : Mesh)

/-! ### Corners -/

/-- All corners of a triangle are there. -/
def InRange (t : Vec3 UInt32) : Prop := ∀ i ∈ t.toList, i.toNat < m.vertexCount

/-- A triangle gives its normal to a vertex: the vertex is one of its corners, all of which are
there. -/
def Shades (t : Vec3 UInt32) (v : Nat) : Prop := m.InRange t ∧ ∃ i ∈ t.toList, i.toNat = v

/-- Of some triangles one is the last that gives its normal to a vertex. -/
def IsLastAt (ts : List (Vec3 UInt32)) (v : Nat) (t : Vec3 UInt32) : Prop :=
  ∃ before after, ts = before ++ t :: after ∧ m.Shades t v ∧ ∀ later ∈ after, ¬m.Shades later v

/-- A triangle is there when each of its three corners is. -/
theorem inRange_iff {t : Vec3 UInt32} :
    m.InRange t ↔
      t.x.toNat < m.vertexCount ∧ t.y.toNat < m.vertexCount ∧ t.z.toNat < m.vertexCount := by
  simp only [InRange, Vec3.toList, List.forall_mem_cons, List.not_mem_nil, false_implies,
    implies_true, and_true]

/-- The corners of a triangle are found when each of the three vertices is. -/
theorem corners?_eq_some_iff {t : Vec3 UInt32} {a b c : Vec3 Float32} :
    m.corners? t = some ⟨a, b, c⟩ ↔
      m.vertex? t.x.toNat = some a ∧ m.vertex? t.y.toNat = some b ∧
        m.vertex? t.z.toNat = some c := by
  simp only [corners?, Option.bind_eq_bind, Option.pure_def, Option.bind_eq_some_iff,
    Option.some.injEq, Vec3.mk.injEq]
  constructor
  · rintro ⟨a, ha, b, hb, c, hc, rfl, rfl, rfl⟩
    exact ⟨ha, hb, hc⟩
  · rintro ⟨ha, hb, hc⟩
    exact ⟨a, ha, b, hb, c, hc, rfl, rfl, rfl⟩

/-- The corners of a triangle are read exactly if they are all there. -/
theorem corners?_cases (t : Vec3 UInt32) :
    (m.InRange t ∧ ∃ a b c, m.corners? t = some ⟨a, b, c⟩) ∨
      (¬m.InRange t ∧ m.corners? t = none) := by
  have hrange : m.InRange t ↔ ∃ a b c, m.corners? t = some ⟨a, b, c⟩ := by
    simp only [inRange_iff, ← exists_vertex?_iff, corners?_eq_some_iff]
    constructor
    · rintro ⟨⟨a, ha⟩, ⟨b, hb⟩, c, hc⟩
      exact ⟨a, b, c, ha, hb, hc⟩
    · rintro ⟨a, b, c, ha, hb, hc⟩
      exact ⟨⟨a, ha⟩, ⟨b, hb⟩, c, hc⟩
  by_cases hin : m.InRange t
  · exact Or.inl ⟨hin, hrange.mp hin⟩
  · refine Or.inr ⟨hin, Option.eq_none_iff_forall_ne_some.mpr ?_⟩
    rintro ⟨a, b, c⟩ hcorners
    exact hin (hrange.mpr ⟨a, b, c, hcorners⟩)

section Last

variable {m} {ts : List (Vec3 UInt32)} {v : Nat} {t : Vec3 UInt32}

/-- None of no triangles is the last one. -/
theorem not_isLastAt_nil : ¬m.IsLastAt [] v t := by
  rintro ⟨before, after, hsplit, -⟩
  exact List.append_ne_nil_of_right_ne_nil before (List.cons_ne_nil t after) hsplit.symm

/-- The last triangle that shades a vertex is the first one if no later one shades it, or else the
last of the others. -/
theorem isLastAt_cons_iff {first : Vec3 UInt32} :
    m.IsLastAt (first :: ts) v t ↔
      (first = t ∧ m.Shades t v ∧ ∀ later ∈ ts, ¬m.Shades later v) ∨ m.IsLastAt ts v t := by
  constructor
  · rintro ⟨before, after, hsplit, hlast⟩
    cases before with
    | nil =>
      obtain ⟨rfl, rfl⟩ := List.cons.inj hsplit
      exact Or.inl ⟨rfl, hlast⟩
    | cons other before =>
      exact Or.inr ⟨before, after, (List.cons.inj hsplit).2, hlast⟩
  · rintro (⟨rfl, hlast⟩ | ⟨before, after, rfl, hlast⟩)
    · exact ⟨[], ts, rfl, hlast⟩
    · exact ⟨first :: before, after, rfl, hlast⟩

/-- Either none of some triangles shades a vertex, or one of them is the last to do so. -/
theorem exists_isLastAt_or (ts : List (Vec3 UInt32)) (v : Nat) :
    (∃ t, m.IsLastAt ts v t) ∨ ∀ t ∈ ts, ¬m.Shades t v := by
  induction ts with
  | nil => exact Or.inr fun t ht => absurd ht List.not_mem_nil
  | cons first ts ih =>
    rcases ih with ⟨t, hlast⟩ | hnone
    · exact Or.inl ⟨t, isLastAt_cons_iff.mpr (Or.inr hlast)⟩
    · by_cases hfirst : m.Shades first v
      · exact Or.inl ⟨first, isLastAt_cons_iff.mpr (Or.inl ⟨rfl, hfirst, hnone⟩)⟩
      · exact Or.inr (List.forall_mem_cons.mpr ⟨hfirst, hnone⟩)

end Last

/-! ### One normal -/

/-- The components of a normal stand where those of the position of a vertex do. -/
def HasNormal (normals : Array Float32) (v : Nat) (normal : Vec3 Float32) : Prop :=
  ∀ axis : Axis, normals[3 * v + axis.index]? = some (normal.get axis)

/-- A buffer comes from another one by writing a normal over those of some vertices. -/
structure Overwrites (written : Nat → Prop) (normal : Vec3 Float32) (normals next : Array Float32) :
    Prop where
  size_eq : next.size = normals.size
  hasNormal : ∀ v, written v → HasNormal next v normal
  getElem?_eq : ∀ place, ¬written (place / 3) → next[place]? = normals[place]?

section Writes

variable {normals next last : Array Float32} {normal : Vec3 Float32}

/-- A vertex has its normal as long as nothing is written there. -/
theorem HasNormal.congr {v : Nat} (h : HasNormal normals v normal)
    (heq : ∀ place, place / 3 = v → next[place]? = normals[place]?) : HasNormal next v normal := by
  intro axis
  have hplace : (3 * v + axis.index) / 3 = v := by
    cases axis <;> simp only [Axis.index] <;> omega
  rw [heq _ hplace, h axis]

/-- Of two writes the later one holds, and beside it the earlier one. -/
theorem Overwrites.trans {written written' : Nat → Prop}
    (h : Overwrites written normal normals next) (h' : Overwrites written' normal next last) :
    Overwrites (fun v => written v ∨ written' v) normal normals last := by
  constructor
  · rw [h'.size_eq, h.size_eq]
  · intro v hv
    by_cases hlater : written' v
    · exact h'.hasNormal v hlater
    · refine (h.hasNormal v (hv.resolve_right hlater)).congr ?_
      rintro place rfl
      exact h'.getElem?_eq place hlater
  · intro place hplace
    rw [h'.getElem?_eq place fun hlater => hplace (Or.inr hlater),
      h.getElem?_eq place fun hwritten => hplace (Or.inl hwritten)]

/-- A normal is written where the buffer has room for it, and nothing else is touched. -/
theorem exists_writeNormal? {i : Nat} (h : 3 * i + 3 ≤ normals.size) (normal : Vec3 Float32) :
    ∃ next, writeNormal? normals i normal = some next ∧
      Overwrites (fun v => i = v) normal normals next := by
  refine ⟨_, if_pos h, ?_, ?_, ?_⟩
  · rw [Array.size_setIfInBounds, Array.size_setIfInBounds, Array.size_setIfInBounds]
  · rintro v rfl axis
    cases axis <;>
      simp only [Axis.index, Vec3.get, Array.getElem?_setIfInBounds, Array.size_setIfInBounds] <;>
      grind
  · intro place hplace
    rw [Array.getElem?_setIfInBounds_ne (by omega), Array.getElem?_setIfInBounds_ne (by omega),
      Array.getElem?_setIfInBounds_ne (by omega)]

/-- Corners that are all there get a normal. -/
theorem exists_foldlM_writeNormal? {places : List UInt32}
    (h : ∀ i ∈ places, 3 * i.toNat + 3 ≤ normals.size) (normal : Vec3 Float32) :
    ∃ next, places.foldlM (fun normals i => writeNormal? normals i.toNat normal) normals =
        some next ∧
      Overwrites (fun v => ∃ i ∈ places, i.toNat = v) normal normals next := by
  induction places generalizing normals with
  | nil =>
    exact ⟨normals, rfl, rfl, fun v ⟨i, hi, _⟩ => absurd hi List.not_mem_nil, fun place _ => rfl⟩
  | cons i places ih =>
    obtain ⟨hi, hplaces⟩ := List.forall_mem_cons.mp h
    obtain ⟨next, hnext, hfirst⟩ := exists_writeNormal? hi normal
    rw [← hfirst.size_eq] at hplaces
    obtain ⟨last, hlast, hrest⟩ := ih hplaces
    refine ⟨last, ?_, ?_⟩
    · rw [List.foldlM_cons, hnext]
      exact hlast
    · simp only [List.exists_mem_cons_iff]
      exact hfirst.trans hrest

end Writes

/-! ### All normals -/

/-- A buffer of normals comes from another one by shading triangles in turn. -/
structure Shaded (ts : List (Vec3 UInt32)) (normals next : Array Float32) : Prop where
  size_eq : next.size = normals.size
  hasNormal : ∀ v t, m.IsLastAt ts v t →
    ∃ a b c, m.corners? t = some ⟨a, b, c⟩ ∧ HasNormal next v (triangleNormal a b c)
  getElem?_eq : ∀ place, (∀ t ∈ ts, ¬m.Shades t (place / 3)) → next[place]? = normals[place]?

section Shading

variable {m} {normals next last : Array Float32}

/-- Shading one triangle and then the others is shading all of them. -/
theorem Shaded.cons {t : Vec3 UInt32} {ts : List (Vec3 UInt32)} (h : m.Shaded [t] normals next)
    (hrest : m.Shaded ts next last) : m.Shaded (t :: ts) normals last := by
  constructor
  · rw [hrest.size_eq, h.size_eq]
  · intro v s hs
    rcases isLastAt_cons_iff.mp hs with ⟨rfl, hshades, hnone⟩ | hlater
    · have honly : m.IsLastAt [t] v t := ⟨[], [], rfl, hshades, by simp⟩
      obtain ⟨a, b, c, hcorners, hnormal⟩ := h.hasNormal v t honly
      -- no later triangle shades the vertex, and so its normal is kept
      refine ⟨a, b, c, hcorners, hnormal.congr ?_⟩
      rintro place rfl
      exact hrest.getElem?_eq place hnone
    · exact hrest.hasNormal v s hlater
  · intro place hplace
    obtain ⟨ht, hts⟩ := List.forall_mem_cons.mp hplace
    rw [hrest.getElem?_eq place hts, h.getElem?_eq place (List.forall_mem_singleton.mpr ht)]

/-- A triangle is shaded without a write past the end. -/
theorem exists_shadeTriangle? (h : 3 * m.vertexCount ≤ normals.size) (t : Vec3 UInt32) :
    ∃ next, m.shadeTriangle? normals t = some next ∧ m.Shaded [t] normals next := by
  have honly : ∀ {v s}, m.IsLastAt [t] v s → t = s ∧ m.Shades t v := by
    intro v s hs
    rcases isLastAt_cons_iff.mp hs with ⟨rfl, hshades, -⟩ | hnil
    · exact ⟨rfl, hshades⟩
    · exact absurd hnil not_isLastAt_nil
  rcases m.corners?_cases t with ⟨hin, a, b, c, hcorners⟩ | ⟨hout, hcorners⟩
  · have hroom : ∀ i ∈ t.toList, 3 * i.toNat + 3 ≤ normals.size := by
      intro i hi
      have hlt := hin i hi
      omega
    obtain ⟨next, hnext, hwrites⟩ := exists_foldlM_writeNormal? hroom (triangleNormal a b c)
    refine ⟨next, ?_, hwrites.size_eq, fun v s hs => ?_, fun place hplace => ?_⟩
    · rw [shadeTriangle?, hcorners]
      exact hnext
    · obtain ⟨rfl, -, hcorner⟩ := honly hs
      exact ⟨a, b, c, hcorners, hwrites.hasNormal v hcorner⟩
    · refine hwrites.getElem?_eq place fun hcorner => ?_
      exact hplace t (List.mem_singleton_self t) ⟨hin, hcorner⟩
  -- a triangle with a missing corner shades nothing
  · refine ⟨normals, ?_, rfl, fun v s hs => ?_, fun place _ => rfl⟩
    · rw [shadeTriangle?, hcorners]
    · exact absurd (honly hs).2.1 hout

/-- Every triangle can be shaded in a buffer with room for the normals of all vertices. -/
theorem exists_foldlM_shadeTriangle? (h : 3 * m.vertexCount ≤ normals.size)
    (ts : List (Vec3 UInt32)) :
    ∃ next, ts.foldlM m.shadeTriangle? normals = some next ∧ m.Shaded ts normals next := by
  induction ts generalizing normals with
  | nil =>
    exact ⟨normals, rfl, rfl, fun v t ht => absurd ht not_isLastAt_nil, fun place _ => rfl⟩
  | cons t ts ih =>
    obtain ⟨next, hnext, hshaded⟩ := exists_shadeTriangle? h t
    rw [← hshaded.size_eq] at h
    obtain ⟨last, hlast, hrest⟩ := ih h
    refine ⟨last, ?_, hshaded.cons hrest⟩
    rw [List.foldlM_cons, hnext]
    exact hlast

end Shading

/-- All triangles are shaded without a write past the end. -/
theorem flatNormals?_spec :
    m.flatNormals? = some m.flatNormals ∧
      m.Shaded m.triangles (Array.replicate m.positions.size 0) m.flatNormals := by
  have hroom : 3 * m.vertexCount ≤ (Array.replicate m.positions.size (0 : Float32)).size := by
    rw [Array.size_replicate, vertexCount]
    omega
  obtain ⟨normals, hnormals, hshaded⟩ := exists_foldlM_shadeTriangle? hroom m.triangles
  have heq : m.flatNormals = normals := by
    rw [flatNormals, flatNormals?, hnormals]
    rfl
  rw [heq]
  exact ⟨hnormals, hshaded⟩

/-- A mesh has as many components of normals as of positions. -/
theorem size_flatNormals : m.flatNormals.size = m.positions.size := by
  rw [m.flatNormals?_spec.2.size_eq, Array.size_replicate]

/-- Where no triangle writes there is zero. -/
theorem getElem?_flatNormals_eq_zero {place : Nat} (h : ∀ t ∈ m.triangles, ¬m.Shades t (place / 3))
    (hplace : place < m.positions.size) : m.flatNormals[place]? = some 0 := by
  rw [m.flatNormals?_spec.2.getElem?_eq place h, Array.getElem?_replicate, if_pos hplace]

/-- A vertex that no triangle shades has no normal. -/
theorem hasNormal_zero {v : Nat} (hv : v < m.vertexCount) (h : ∀ t ∈ m.triangles, ¬m.Shades t v) :
    HasNormal m.flatNormals v Vec3.zero := by
  have hroom : 3 * v + 3 ≤ m.positions.size := by
    rw [vertexCount] at hv
    omega
  intro axis
  have hzero : (Vec3.zero : Vec3 Float32).get axis = 0 := by cases axis <;> rfl
  have hindex : axis.index < 3 := by cases axis <;> decide
  have hvertex : (3 * v + axis.index) / 3 = v := by omega
  rw [← hvertex] at h
  rw [hzero, m.getElem?_flatNormals_eq_zero h (by omega)]

/-- No triangle shades what is not there. -/
theorem Shades.lt {m : Mesh} {t : Vec3 UInt32} {v : Nat} (h : m.Shades t v) :
    v < m.vertexCount := by
  obtain ⟨hin, i, hi, rfl⟩ := h
  exact hin i hi

/-! ### Vertices of one triangle -/

/-- A mesh that has its vertices as indices, three to a triangle. -/
def DrawsInOrder : Prop :=
  3 ∣ m.vertexCount ∧ m.indices.toList.map UInt32.toNat = List.range m.vertexCount

section InOrder

variable {m}

/-- In a mesh drawn in order the index in a place is that place. -/
theorem DrawsInOrder.toNat_eq (h : m.DrawsInOrder) {place : Nat} {i : UInt32}
    (hi : m.indices.toList[place]? = some i) : i.toNat = place := by
  have hplace := congrArg (fun places : List Nat => places[place]?) h.2
  simp only [List.getElem?_map, hi, Option.map_some] at hplace
  obtain ⟨hlt, heq⟩ := List.getElem?_eq_some_iff.mp hplace.symm
  rw [List.getElem_range] at heq
  exact heq.symm

/-- The corners of a triangle are three vertices in a row. -/
theorem DrawsInOrder.corners_eq (h : m.DrawsInOrder) {k : Nat} {t : Vec3 UInt32}
    (ht : m.triangles[k]? = some t) :
    t.x.toNat = 3 * k ∧ t.y.toNat = 3 * k + 1 ∧ t.z.toNat = 3 * k + 2 := by
  obtain ⟨hx, hy, hz⟩ := (getElem?_triples_eq_some_iff _ k).mp ht
  exact ⟨h.toNat_eq hx, h.toNat_eq hy, h.toNat_eq hz⟩

/-- In a mesh drawn in order a vertex is shaded by the triangle it belongs to, and by no other. -/
theorem DrawsInOrder.shades_iff (h : m.DrawsInOrder) {k v : Nat} {t : Vec3 UInt32}
    (ht : m.triangles[k]? = some t) (hv : v < m.vertexCount) : m.Shades t v ↔ k = v / 3 := by
  obtain ⟨hx, hy, hz⟩ := h.corners_eq ht
  have hdvd := h.1
  simp only [Shades, inRange_iff, Vec3.toList, List.exists_mem_cons_iff, List.not_mem_nil,
    false_and, exists_false, or_false, hx, hy, hz]
  omega

/-- A vertex of a mesh that is drawn in order has the normal of its own triangle. -/
theorem DrawsInOrder.exists_hasNormal (h : m.DrawsInOrder) {v : Nat} (hv : v < m.vertexCount) :
    ∃ a b c, m.vertex? (3 * (v / 3)) = some a ∧ m.vertex? (3 * (v / 3) + 1) = some b ∧
      m.vertex? (3 * (v / 3) + 2) = some c ∧ HasNormal m.flatNormals v (triangleNormal a b c) := by
  have hsize : m.indices.size = m.vertexCount := by
    have hlength := congrArg List.length h.2
    rwa [List.length_map, List.length_range, Array.length_toList] at hlength
  have hcount : v / 3 < m.triangles.length := by
    rw [triangles, length_triples, Array.length_toList, hsize]
    have hdvd := h.1
    omega
  have hown : m.triangles[v / 3]? = some m.triangles[v / 3] := List.getElem?_eq_getElem hcount
  have hlast : m.IsLastAt m.triangles v m.triangles[v / 3] := by
    refine ⟨m.triangles.take (v / 3), m.triangles.drop (v / 3 + 1), ?_,
      (h.shades_iff hown hv).mpr rfl, fun later hlater hshades => ?_⟩
    · rw [List.cons_getElem_drop_succ, List.take_append_drop]
    · obtain ⟨k, hk⟩ := List.mem_iff_getElem?.mp hlater
      rw [List.getElem?_drop] at hk
      have hplace := (h.shades_iff hk hv).mp hshades
      omega
  -- the corners of this triangle are the vertices in its places
  obtain ⟨a, b, c, hcorners, hnormal⟩ := m.flatNormals?_spec.2.hasNormal v _ hlast
  obtain ⟨ha, hb, hc⟩ := m.corners?_eq_some_iff.mp hcorners
  obtain ⟨hx, hy, hz⟩ := h.corners_eq hown
  rw [hx] at ha
  rw [hy] at hb
  rw [hz] at hc
  exact ⟨a, b, c, ha, hb, hc, hnormal⟩

end InOrder

end Mesh

namespace BoxBatch

variable {b : BoxBatch} {capacity : Nat} {vertices : List (Vec3 Float32)}

/-- The mesh of a batch with whole triangles draws its vertices in order. -/
theorem Holds.drawsInOrder_toMesh (h : b.Holds capacity vertices) (hdvd : 3 ∣ vertices.length) :
    b.toMesh.DrawsInOrder := by
  constructor
  · rwa [h.vertexCount_toMesh]
  · rw [h.indices_toMesh, h.vertexCount_toMesh]

/-- Whatever is done to a batch, its mesh is drawn in order. -/
theorem Holds.drawsInOrder_actAll (h : b.Holds capacity vertices) (hdvd : 3 ∣ vertices.length)
    (actions : List BatchAction) : (b.actAll actions).toMesh.DrawsInOrder := by
  induction actions generalizing b vertices with
  | nil => exact h.drawsInOrder_toMesh hdvd
  | cons action actions ih =>
    rw [BoxBatch.actAll, List.foldl_cons]
    cases action with
    | add call =>
      by_cases haccepted : (b.call call).error? = none
      · have hcall : 3 ∣ (vertices ++ call.vertices).length := by
          rw [List.length_append, BoxCall.vertices, FaceSet.length_triangles]
          omega
        exact ih (h.call_of_accepted haccepted) hcall
      · rw [act, h.call_of_refused haccepted]
        exact ih h hdvd
    | finish =>
      -- an empty batch is left behind, to which nothing can be added
      have hfinished : (b.act .finish).finished = true := by rw [act_finish h.unfinished]
      have hrest := actAll_of_finished hfinished actions
      have hempty : (b.act .finish).toMesh = ⟨#[], #[]⟩ :=
        (finish_of_unfinished h.unfinished).2.toMesh_eq
      rw [BoxBatch.actAll] at hrest
      rw [hrest, hempty]
      exact ⟨Nat.dvd_zero 3, rfl⟩

/-- The mesh that is handed out is the mesh of the batch. -/
theorem eq_toMesh_of_finish {mesh : Mesh} (h : b.finish.1 = .ok mesh) : mesh = b.toMesh := by
  cases hfinished : b.finished with
  | true =>
    have hfinish : b.finish = (.error .useAfterFinalize, b) := if_pos hfinished
    rw [hfinish] at h
    cases h
  | false =>
    rw [(finish_of_unfinished hfinished).1, Except.ok.injEq] at h
    exact h.symm

end BoxBatch

namespace Mesh

/-- Whatever its buffers are, the normals of a mesh are computed without a write out of range, and
a vertex has the normal of the last triangle that has it as a corner, of those whose corners are all
there.  Positions that make no vertex have zeros.  In the mesh of a batch of boxes a vertex has the
normal of the one triangle to which it belongs. -/
theorem flatNormals_of_last_triangle (m : Mesh) :
    m.flatNormals? = some m.flatNormals ∧
      m.flatNormals.size = m.positions.size ∧
      (∀ v < m.vertexCount,
        (∀ t, m.IsLastAt m.triangles v t → ∃ a b c, m.corners? t = some ⟨a, b, c⟩ ∧
          HasNormal m.flatNormals v ((b - a).cross (c - a)).normalized) ∧
        ((∀ t ∈ m.triangles, ¬m.Shades t v) → HasNormal m.flatNormals v Vec3.zero) ∧
        ((∃ t, m.IsLastAt m.triangles v t) ∨ ∀ t ∈ m.triangles, ¬m.Shades t v)) ∧
      (∀ place, 3 * m.vertexCount ≤ place → place < m.positions.size →
        m.flatNormals[place]? = some 0) ∧
      m.positions.size ≤ 3 * m.vertexCount + 2 ∧
      ∀ (capacity : Nat) (new : BoxBatch) (actions : List BatchAction),
        BoxBatch.ofCapacity capacity = .ok new →
          (m = (new.actAll actions).toMesh ∨ (new.actAll actions).finish.1 = .ok m) →
            ∀ v < m.vertexCount, ∃ a b c, m.vertex? (3 * (v / 3)) = some a ∧
              m.vertex? (3 * (v / 3) + 1) = some b ∧ m.vertex? (3 * (v / 3) + 2) = some c ∧
                HasNormal m.flatNormals v ((b - a).cross (c - a)).normalized := by
  obtain ⟨hnormals, hshaded⟩ := m.flatNormals?_spec
  have hsize : m.positions.size ≤ 3 * m.vertexCount + 2 := by
    rw [vertexCount]
    omega
  refine ⟨hnormals, m.size_flatNormals, fun v hv => ?_, fun place hfirst hlast => ?_, hsize,
    fun capacity new actions hnew hmesh v hv => ?_⟩
  · exact ⟨hshaded.hasNormal v, m.hasNormal_zero hv, exists_isLastAt_or m.triangles v⟩
  · refine m.getElem?_flatNormals_eq_zero (fun t _ hshades => ?_) hlast
    have hlt := hshades.lt
    omega
  · have hempty : new.Holds capacity [] := BoxBatch.holds_of_ofCapacity hnew
    have horder := hempty.drawsInOrder_actAll (Nat.dvd_zero 3) actions
    rcases hmesh with rfl | hfinish
    · exact horder.exists_hasNormal hv
    · rw [← BoxBatch.eq_toMesh_of_finish hfinish] at horder
      exact horder.exists_hasNormal hv

/-- Two triangles with a side in common and one that reaches for a tenth vertex, a loose index, and
a loose number behind the four vertices. -/
def overlapping : Mesh :=
  ⟨#[0, 0, 0, 1, 0, 0, 0, 1, 0, 0, 0, 1, 7], #[0, 1, 2, 1, 2, 3, 0, 1, 9, 0]⟩

/-- The second vertex has the normal of the second triangle, and the third triangle changes nothing.
The first vertex has the normal of the first triangle. -/
theorem flatNormals_of_last_triangle_overlapping :
    (0 < overlapping.vertexCount ∧ overlapping.IsLastAt overlapping.triangles 0 ⟨0, 1, 2⟩ ∧
        HasNormal overlapping.flatNormals 0 ⟨0, 0, 1⟩) ∧
      (1 < overlapping.vertexCount ∧ overlapping.IsLastAt overlapping.triangles 1 ⟨1, 2, 3⟩ ∧
        HasNormal overlapping.flatNormals 1 (triangleNormal ⟨1, 0, 0⟩ ⟨0, 1, 0⟩ ⟨0, 0, 1⟩)) ∧
      overlapping.flatNormals.size = 13 ∧ overlapping.flatNormals[12]? = some 0 := by
  obtain ⟨-, hsize, hvertices, hrest, -, -⟩ := flatNormals_of_last_triangle overlapping
  have hin : overlapping.InRange ⟨0, 1, 2⟩ :=
    (inRange_iff _).mpr ⟨by decide, by decide, by decide⟩
  have hin' : overlapping.InRange ⟨1, 2, 3⟩ :=
    (inRange_iff _).mpr ⟨by decide, by decide, by decide⟩
  have hout : ∀ v, ¬overlapping.Shades ⟨0, 1, 9⟩ v := fun v h =>
    absurd ((inRange_iff _).mp h.1).2.2 (by decide)
  have hnot : ¬overlapping.Shades ⟨1, 2, 3⟩ 0 := fun h => absurd h.2 (by simp [Vec3.toList])
  have hfirst : overlapping.IsLastAt overlapping.triangles 0 ⟨0, 1, 2⟩ :=
    ⟨[], [⟨1, 2, 3⟩, ⟨0, 1, 9⟩], rfl, ⟨hin, 0, by decide⟩, by simp [hnot, hout]⟩
  have hsecond : overlapping.IsLastAt overlapping.triangles 1 ⟨1, 2, 3⟩ :=
    ⟨[⟨0, 1, 2⟩], [⟨0, 1, 9⟩], rfl, ⟨hin', 1, by decide⟩, by simp [hout]⟩
  have hcorners : overlapping.corners? ⟨0, 1, 2⟩ = some ⟨⟨0, 0, 0⟩, ⟨1, 0, 0⟩, ⟨0, 1, 0⟩⟩ := rfl
  have hcorners' : overlapping.corners? ⟨1, 2, 3⟩ = some ⟨⟨1, 0, 0⟩, ⟨0, 1, 0⟩, ⟨0, 0, 1⟩⟩ := rfl
  obtain ⟨a, b, c, habc, hnormal⟩ := (hvertices 0 (by decide)).1 _ hfirst
  obtain ⟨a', b', c', habc', hnormal'⟩ := (hvertices 1 (by decide)).1 _ hsecond
  rw [hcorners, Option.some.injEq, Vec3.mk.injEq] at habc
  rw [hcorners', Option.some.injEq, Vec3.mk.injEq] at habc'
  obtain ⟨rfl, rfl, rfl⟩ := habc
  obtain ⟨rfl, rfl, rfl⟩ := habc'
  have hup : ((⟨1, 0, 0⟩ - ⟨0, 0, 0⟩ : Vec3 Float32).cross
      (⟨0, 1, 0⟩ - ⟨0, 0, 0⟩)).normalized = ⟨0, 0, 1⟩ := by
    decide +kernel
  rw [hup] at hnormal
  exact ⟨⟨by decide, hfirst, hnormal⟩, ⟨by decide, hsecond, hnormal'⟩, hsize,
    hrest 12 (by decide) (by decide)⟩

end Mesh

end LatticeScene.Shape
