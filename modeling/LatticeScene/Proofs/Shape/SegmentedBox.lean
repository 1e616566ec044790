import LatticeScene.Shape.SegmentedBox
import LatticeScene.Proofs.Shape.Mesh

/-!
# The buffers of a subdivided box

A face of a subdivided box is a grid of cells, and the triangles of the cells have exactly the grid
points as corners (`lt_of_mem_faceTriangles`, `exists_mem_faceTriangles`).  Every face brings its
own points and counts them from those that are there, so that each face that is added leaves the
buffers in order (`InOrder.addFace`): there is a normal for every vertex, no index is out of range,
and no vertex is left out.
-/

namespace LatticeScene.Shape

/-! ### Grids -/

section Grids

variable {columns rows : Nat}

/-- A rectangle has a row for each of its rows and a point for each of its columns. -/
theorem length_rectangle {α : Type} (f : Nat → Nat → α) (rows columns : Nat) :
    ((List.range rows).flatMap fun y => (List.range columns).map fun x => f x y).length =
      columns * rows := by
  induction rows with
  | zero => rfl
  | succ rows ih =>
    rw [List.range_succ, List.flatMap_append, List.length_append, ih, List.flatMap_cons,
      List.flatMap_nil, List.append_nil, List.length_map, List.length_range, Nat.mul_succ]

/-- A grid has one point more than cells along each side. -/
theorem FaceGrid.length_points {α : Type} [Scalar α] (g : FaceGrid α) (origin : Vec3 α)
    (extents : FaceExtents α) (columns rows : Nat) :
    (g.points origin extents columns rows).length = (columns + 1) * (rows + 1) :=
  length_rectangle _ _ _

namespace SegmentedBox

/-- The place of the point in a column and a row of a grid. -/
def gridPlace (columns x y : Nat) : Nat := x + (columns + 1) * y

/-- The place of a point of a grid is among those of the grid. -/
theorem gridPlace_lt {x y : Nat} (hx : x ≤ columns) (hy : y ≤ rows) :
    gridPlace columns x y < (columns + 1) * (rows + 1) := by
  have hrow : (columns + 1) * y ≤ (columns + 1) * rows := Nat.mul_le_mul_left _ hy
  rw [gridPlace, Nat.mul_succ]
  omega

/-- Every place is that of a point. -/
theorem exists_gridPlace_eq {place : Nat} (h : place < (columns + 1) * (rows + 1)) :
    ∃ x ≤ columns, ∃ y ≤ rows, gridPlace columns x y = place := by
  have hx : place % (columns + 1) < columns + 1 := Nat.mod_lt _ (Nat.succ_pos _)
  have hy : place / (columns + 1) < rows + 1 := Nat.div_lt_of_lt_mul h
  exact ⟨_, Nat.le_of_lt_succ hx, _, Nat.le_of_lt_succ hy, Nat.mod_add_div _ _⟩

/-- The corners of the triangles of a cell are the four points around it. -/
theorem mem_cell_iff {ix iy corner : Nat} :
    (∃ t ∈ cellTriangles ix iy (columns + 1), corner ∈ t.toList) ↔
      ∃ x y, (x = ix ∨ x = ix + 1) ∧ (y = iy ∨ y = iy + 1) ∧
        corner = gridPlace columns x y := by
  unfold cellTriangles gridPlace
  simp only [List.mem_cons, List.not_mem_nil, or_false, exists_eq_or_imp, exists_eq_left,
    Vec3.toList]
  constructor
  · rintro ((rfl | rfl | rfl) | (rfl | rfl | rfl))
    · exact ⟨ix, iy, Or.inl rfl, Or.inl rfl, rfl⟩
    · exact ⟨ix, iy + 1, Or.inl rfl, Or.inr rfl, rfl⟩
    · exact ⟨ix + 1, iy, Or.inr rfl, Or.inl rfl, rfl⟩
    · exact ⟨ix, iy + 1, Or.inl rfl, Or.inr rfl, rfl⟩
    · exact ⟨ix + 1, iy + 1, Or.inr rfl, Or.inr rfl, rfl⟩
    · exact ⟨ix + 1, iy, Or.inr rfl, Or.inl rfl, rfl⟩
  · rintro ⟨x, y, rfl | rfl, rfl | rfl, rfl⟩
    · exact Or.inl (Or.inl rfl)
    · exact Or.inl (Or.inr (Or.inl rfl))
    · exact Or.inl (Or.inr (Or.inr rfl))
    · exact Or.inr (Or.inr (Or.inl rfl))

/-- A triangle of a face is one of those of some cell. -/
theorem mem_faceTriangles {t : Vec3 Nat} :
    t ∈ faceTriangles columns rows ↔
      ∃ iy < rows, ∃ ix < columns, t ∈ cellTriangles ix iy (columns + 1) := by
  simp only [faceTriangles, List.mem_flatMap, List.mem_range]

/-- No corner of a face is out of its grid. -/
theorem lt_of_mem_faceTriangles {t : Vec3 Nat} (ht : t ∈ faceTriangles columns rows)
    {corner : Nat} (hcorner : corner ∈ t.toList) : corner < (columns + 1) * (rows + 1) := by
  obtain ⟨iy, hiy, ix, hix, hcell⟩ := mem_faceTriangles.mp ht
  obtain ⟨x, y, hx, hy, rfl⟩ := mem_cell_iff.mp ⟨t, hcell, hcorner⟩
  exact gridPlace_lt (by omega) (by omega)

/-- No point of the grid of a face is left out by its triangles. -/
theorem exists_mem_faceTriangles (hcolumns : 0 < columns) (hrows : 0 < rows) {place : Nat}
    (h : place < (columns + 1) * (rows + 1)) :
    ∃ t ∈ faceTriangles columns rows, place ∈ t.toList := by
  obtain ⟨x, hx, y, hy, rfl⟩ := exists_gridPlace_eq h
  -- a point at the far end of its row or column belongs to the last cell there
  have hcell : ∃ t ∈ cellTriangles (min x (columns - 1)) (min y (rows - 1)) (columns + 1),
      gridPlace columns x y ∈ t.toList :=
    mem_cell_iff.mpr ⟨x, y, by omega, by omega, rfl⟩
  obtain ⟨t, ht, hmem⟩ := hcell
  exact ⟨t, mem_faceTriangles.mpr ⟨_, by omega, _, by omega, ht⟩, hmem⟩

end SegmentedBox

end Grids

namespace SegmentedBox

/-! ### Faces -/

/-- Buffers that can be drawn: whole vertices with a normal each, and whole triangles, which have
all the vertices as corners and nothing else. -/
structure InOrder (b : SegmentedBox) : Prop where
  positions_whole : 3 ∣ b.positions.size
  size_normals : b.normals.size = b.positions.size
  indices_whole : 3 ∣ b.indices.size
  index_lt : ∀ i ∈ b.indices, i.toNat < b.vertexCount
  exists_index : ∀ v < b.vertexCount, ∃ i ∈ b.indices, i.toNat = v

section Faces

variable (b : SegmentedBox) (face : Face)

/-- How many points the grid of a face has. -/
def pointCount (segments : Nat × Nat) : Nat := (segments.1 + 1) * (segments.2 + 1)

/-- The indices that draw a face. -/
def faceCorners (segments : Nat × Nat) : List UInt32 :=
  (faceTriangles segments.1 segments.2).flatMap fun t =>
    t.toList.map fun corner => (b.vertexCount + corner).toUInt32

/-- Adding a face leaves the parameters of a box alone. -/
theorem parameters_addFace : (b.addFace face).parameters = b.parameters := rfl

/-- The indices of a face that is added come after those of the faces before it. -/
theorem indices_addFace :
    (b.addFace face).indices =
      b.indices ++ (b.faceCorners (face.segments b.parameters.segments)).toArray := rfl

/-- A face that is added brings three numbers to each of its points. -/
theorem size_positions_addFace :
    (b.addFace face).positions.size =
      b.positions.size + 3 * pointCount (face.segments b.parameters.segments) := by
  simp only [addFace, Array.size_append, List.size_toArray]
  rw [length_flatMap_of_length (n := 3) (fun _ => rfl), FaceGrid.length_points, pointCount]

/-- A face that is added brings a normal to each of its points. -/
theorem size_normals_addFace :
    (b.addFace face).normals.size =
      b.normals.size + 3 * pointCount (face.segments b.parameters.segments) := by
  simp only [addFace, Array.size_append, List.size_toArray]
  rw [length_flatMap_of_length (n := 3) (fun _ => rfl), FaceGrid.length_points, pointCount]

/-- The indices of a face make whole triangles. -/
theorem dvd_length_faceCorners (segments : Nat × Nat) : 3 ∣ (b.faceCorners segments).length := by
  rw [faceCorners, length_flatMap_of_length (n := 3) (fun _ => rfl)]
  exact Nat.dvd_mul_right 3 _

/-- A face that is added brings its points as vertices. -/
theorem vertexCount_addFace :
    (b.addFace face).vertexCount =
      b.vertexCount + pointCount (face.segments b.parameters.segments) := by
  rw [vertexCount, size_positions_addFace, Nat.add_mul_div_left _ _ (by decide), vertexCount]

end Faces

section Order

variable {b : SegmentedBox} {face : Face}

/-- The indices of a face are the places of its points, counted from the vertices that are there. -/
theorem mem_faceCorners {segments : Nat × Nat} {i : UInt32} :
    i ∈ b.faceCorners segments ↔
      ∃ t ∈ faceTriangles segments.1 segments.2, ∃ corner ∈ t.toList,
        (b.vertexCount + corner).toUInt32 = i := by
  simp only [faceCorners, List.mem_flatMap, List.mem_map]

/-- A face leaves the buffers in order, as long as 32 bits can number the vertices. -/
theorem InOrder.addFace (h : b.InOrder) (hcolumns : 0 < (face.segments b.parameters.segments).1)
    (hrows : 0 < (face.segments b.parameters.segments).2)
    (hsize : (b.addFace face).vertexCount ≤ UInt32.size) : (b.addFace face).InOrder := by
  have hcount := b.vertexCount_addFace face
  have hplace : ∀ corner < pointCount (face.segments b.parameters.segments),
      (b.vertexCount + corner).toUInt32.toNat = b.vertexCount + corner := by
    intro corner hcorner
    exact UInt32.toNat_ofNat_of_lt' (by omega)
  constructor
  case positions_whole =>
    rw [size_positions_addFace]
    exact Nat.dvd_add h.positions_whole (Nat.dvd_mul_right 3 _)
  case size_normals =>
    rw [size_positions_addFace, size_normals_addFace, h.size_normals]
  case indices_whole =>
    rw [indices_addFace, Array.size_append, List.size_toArray]
    exact Nat.dvd_add h.indices_whole (b.dvd_length_faceCorners _)
  -- an index is an old one, or it points into the block of the new face
  case index_lt =>
    intro i hi
    rw [indices_addFace] at hi
    rcases Array.mem_append.mp hi with hold | hnew
    · have hlt := h.index_lt i hold
      omega
    · obtain ⟨t, ht, corner, hcorner, rfl⟩ := mem_faceCorners.mp (List.mem_toArray.mp hnew)
      have hlt : corner < pointCount (face.segments b.parameters.segments) :=
        lt_of_mem_faceTriangles ht hcorner
      rw [hplace corner hlt]
      omega
  case exists_index =>
    intro v hv
    rw [indices_addFace]
    by_cases hold : v < b.vertexCount
    · obtain ⟨i, hi, hv⟩ := h.exists_index v hold
      exact ⟨i, Array.mem_append_left _ hi, hv⟩
    · have hlt : v - b.vertexCount < pointCount (face.segments b.parameters.segments) := by omega
      obtain ⟨t, ht, hmem⟩ := exists_mem_faceTriangles hcolumns hrows hlt
      refine ⟨_, Array.mem_append_right _ (List.mem_toArray.mpr
        (mem_faceCorners.mpr ⟨t, ht, _, hmem, rfl⟩)), ?_⟩
      rw [hplace _ hlt]
      omega

/-- Adding faces takes no vertices away. -/
theorem vertexCount_le_foldl_addFace (b : SegmentedBox) (faces : List Face) :
    b.vertexCount ≤ (faces.foldl SegmentedBox.addFace b).vertexCount := by
  induction faces generalizing b with
  | nil => exact Nat.le_refl _
  | cons face faces ih =>
    have hface := b.vertexCount_addFace face
    have hrest := ih (b.addFace face)
    rw [List.foldl_cons]
    omega

/-- Faces that are added one after the other leave the buffers in order. -/
theorem InOrder.foldl_addFace (h : b.InOrder) {faces : List Face}
    (hsegments : ∀ face : Face, 0 < (face.segments b.parameters.segments).1 ∧
      0 < (face.segments b.parameters.segments).2)
    (hsize : (faces.foldl SegmentedBox.addFace b).vertexCount ≤ UInt32.size) :
    (faces.foldl SegmentedBox.addFace b).InOrder := by
  induction faces generalizing b with
  | nil => exact h
  | cons face faces ih =>
    rw [List.foldl_cons] at hsize ⊢
    have hfirst : (b.addFace face).vertexCount ≤ UInt32.size :=
      Nat.le_trans (vertexCount_le_foldl_addFace _ faces) hsize
    have hface := h.addFace (hsegments face).1 (hsegments face).2 hfirst
    exact ih hface hsegments hsize

/-- A box without faces has no vertices. -/
theorem vertexCount_start (parameters : BoxParameters) :
    vertexCount ⟨parameters, #[], #[], #[], #[], #[]⟩ = 0 := Nat.zero_div 3

/-- Every face of a box has cells in both directions. -/
theorem segments_completed_pos (faces : FaceSet) (dimensions : Vec3 Float32) (segments : Vec3 Nat)
    (face : Face) :
    0 < (face.segments (completed faces dimensions segments).segments).1 ∧
      0 < (face.segments (completed faces dimensions segments).segments).2 := by
  have hone : ∀ n, 0 < max 1 n := fun n => Nat.lt_of_lt_of_le Nat.one_pos (Nat.le_max_left 1 n)
  cases face <;> exact ⟨hone _, hone _⟩

/-- A box without faces is in order. -/
theorem inOrder_start (parameters : BoxParameters) :
    InOrder ⟨parameters, #[], #[], #[], #[], #[]⟩ := by
  constructor
  case positions_whole => exact Nat.dvd_zero 3
  case size_normals => rfl
  case indices_whole => exact Nat.dvd_zero 3
  case index_lt =>
    intro i hi
    exact absurd hi (Array.not_mem_empty i)
  case exists_index =>
    intro v hv
    rw [vertexCount_start] at hv
    exact absurd hv (Nat.not_lt_zero v)

/-- A box can be drawn when 32 bits can number its vertices. -/
theorem inOrder_ofFaces (faces : FaceSet) (dimensions : Vec3 Float32) (segments : Vec3 Nat)
    (hsize : (ofFaces faces dimensions segments).vertexCount ≤ UInt32.size) :
    (ofFaces faces dimensions segments).InOrder :=
  InOrder.foldl_addFace (inOrder_start _) (segments_completed_pos faces dimensions segments) hsize

/-- A box whose faces are not subdivided has the four corners of each. -/
theorem vertexCount_ofAllFaces_one (dimensions : Vec3 Float32) :
    (ofAllFaces dimensions (Vec3.splat 1)).vertexCount = 24 := by
  have hfaces : (completed .all dimensions (Vec3.splat 1)).faces.faces = Face.all :=
    FaceSet.faces_all
  rw [ofAllFaces, ofFaces, hfaces]
  simp only [Face.all, List.foldl_cons, List.foldl_nil, vertexCount_addFace, parameters_addFace,
    vertexCount_start]
  rfl

end Order

end SegmentedBox

end LatticeScene.Shape
