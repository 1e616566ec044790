import LatticeScene.Proofs.Shape.Grid
import LatticeScene.Proofs.Shape.SegmentedBox

/-!
# Indexed grids

The points of a grid are numbered row by row, from a first index on.  With these numbers for
corners, the triangles of a grid are an indexed mesh of which `TriangulatesGrid` lists what is
promised: no triangle is degenerate, all points are used and no others, every line of the grid is
run through as often as it should be, and in the plane of the grid the triangles cover all of it
once.

Points are recovered from their indices (`gridPoint_gridIndex`), so that all of this is a matter of
points (`triangulatesGrid_map`).
-/

namespace LatticeScene.Shape.SegmentedBox

/-- The index of a point of a grid whose points are numbered from `first` on. -/
def gridIndex (first columns : Nat) (point : Nat × Nat) : Nat :=
  first + gridPlace columns point.1 point.2

/-- The point of a grid with a given index. -/
def gridPoint (first columns index : Nat) : Nat × Nat :=
  ((index - first) % (columns + 1), (index - first) / (columns + 1))

/-- Triangles that cut the cells of a grid in two, with the points of the grid numbered from `first`
on. -/
structure TriangulatesGrid (triangles : List (Vec3 Nat)) (first columns rows : Nat) : Prop where
  /-- There are two triangles to a cell, row by row. -/
  eq_map : triangles = (gridTriangles columns rows).map (Vec3.map (gridIndex first columns))
  /-- A triangle has three corners. -/
  corners_ne : ∀ t ∈ triangles, t.x ≠ t.y ∧ t.y ≠ t.z ∧ t.z ≠ t.x
  /-- The corners are points of the grid. -/
  mem_block : ∀ t ∈ triangles, ∀ i ∈ t.toList,
    first ≤ i ∧ i < first + (columns + 1) * (rows + 1)
  /-- Every point of the grid is a corner. -/
  exists_mem : ∀ i, first ≤ i → i < first + (columns + 1) * (rows + 1) →
    ∃ t ∈ triangles, i ∈ t.toList
  /-- No edge occurs twice in the same direction. -/
  nodup_edges : (edges triangles).Nodup
  /-- Every edge runs along a line of the grid. -/
  exists_line : ∀ e ∈ edges triangles, ∃ line : GridLine, line.InGrid columns rows ∧
    (e = (gridIndex first columns line.start, gridIndex first columns line.stop) ∨
      e = (gridIndex first columns line.stop, gridIndex first columns line.start))
  /-- A line inside the grid, or across a cell, is run through once in each direction. -/
  count_inner : ∀ line : GridLine, line.InGrid columns rows → ¬line.OnBorder columns rows →
    (edges triangles).count
        (gridIndex first columns line.start, gridIndex first columns line.stop) = 1 ∧
      (edges triangles).count
        (gridIndex first columns line.stop, gridIndex first columns line.start) = 1
  /-- A line on the border is run through once. -/
  count_border : ∀ line : GridLine, line.InGrid columns rows → line.OnBorder columns rows →
    (edges triangles).count
        (gridIndex first columns line.start, gridIndex first columns line.stop) +
      (edges triangles).count
        (gridIndex first columns line.stop, gridIndex first columns line.start) = 1
  /-- All triangles run around in the same direction, and have half the area of a cell. -/
  side_eq : ∀ t ∈ triangles,
    side (gridPosition (gridPoint first columns t.x)) (gridPosition (gridPoint first columns t.y))
      (gridPosition (gridPoint first columns t.z)) = -1
  /-- They leave no gap. -/
  exists_covers : ∀ p : Rat × Rat, 0 ≤ p.1 → p.1 ≤ columns → 0 ≤ p.2 → p.2 ≤ rows →
    ∃ t ∈ triangles, Covers (t.map (gridPosition ∘ gridPoint first columns)) p
  /-- They do not overlap. -/
  eq_of_inside : ∀ t ∈ triangles, ∀ t' ∈ triangles, ∀ p : Rat × Rat,
    CoversInside (t.map (gridPosition ∘ gridPoint first columns)) p →
      CoversInside (t'.map (gridPosition ∘ gridPoint first columns)) p → t = t'

/-! ### Points and indices -/

section Indices

variable {first columns rows : Nat}

/-- The point of a grid is found again from its index. -/
theorem gridPoint_gridIndex {point : Nat × Nat} (h : point.1 ≤ columns) :
    gridPoint first columns (gridIndex first columns point) = point := by
  have hlt : point.1 < columns + 1 := Nat.lt_succ_of_le h
  rw [gridPoint, gridIndex, Nat.add_sub_cancel_left, gridPlace, Nat.add_mul_mod_self_left,
    Nat.mod_eq_of_lt hlt, Nat.add_mul_div_left _ _ (Nat.succ_pos columns), Nat.div_eq_of_lt hlt,
    Nat.zero_add]

/-- Points of one grid with the same index are the same. -/
theorem gridIndex_inj {p q : Nat × Nat} (hp : p.1 ≤ columns) (hq : q.1 ≤ columns)
    (h : gridIndex first columns p = gridIndex first columns q) : p = q := by
  have hpoint := congrArg (gridPoint first columns) h
  rwa [gridPoint_gridIndex hp, gridPoint_gridIndex hq] at hpoint

/-- The corners of the triangles of a grid are in its columns. -/
theorem column_le_of_mem_gridTriangles {t : Vec3 (Nat × Nat)}
    (ht : t ∈ gridTriangles columns rows) :
    t.x.1 ≤ columns ∧ t.y.1 ≤ columns ∧ t.z.1 ≤ columns := by
  obtain ⟨x, y, ⟨hx, -⟩, hcell⟩ := mem_gridTriangles.mp ht
  simp only [cellPoints, List.mem_cons, List.not_mem_nil, or_false] at hcell
  rcases hcell with rfl | rfl
  · exact ⟨hx.le, hx.le, hx⟩
  · exact ⟨hx.le, hx, hx⟩

/-- A triangle is recovered from the indices of its corners. -/
theorem map_gridPoint_map_gridIndex {t : Vec3 (Nat × Nat)}
    (ht : t ∈ gridTriangles columns rows) :
    (t.map (gridIndex first columns)).map (gridPosition ∘ gridPoint first columns) =
      t.map gridPosition := by
  obtain ⟨hx, hy, hz⟩ := column_le_of_mem_gridTriangles ht
  simp only [Vec3.map, Function.comp_apply, gridPoint_gridIndex hx, gridPoint_gridIndex hy,
    gridPoint_gridIndex hz]

/-- The ends of an edge are in the columns of the grid. -/
theorem column_le_of_mem_edges {e : (Nat × Nat) × (Nat × Nat)}
    (he : e ∈ edges (gridTriangles columns rows)) : e.1.1 ≤ columns ∧ e.2.1 ≤ columns := by
  obtain ⟨line, hline, rfl | rfl⟩ := exists_line_of_mem_edges he
  · exact ⟨line.column_start_le hline, line.column_stop_le hline⟩
  · exact ⟨line.column_stop_le hline, line.column_start_le hline⟩

/-- The triangles of a face are those of its grid, with the places of points for corners. -/
theorem faceTriangles_eq :
    faceTriangles columns rows =
      (gridTriangles columns rows).map
        (Vec3.map fun point => gridPlace columns point.1 point.2) := by
  simp only [faceTriangles, gridTriangles, List.map_flatMap]
  rfl

/-- The triangles of a grid, given by indices, are those of a face, counted from its first vertex.
-/
theorem map_gridIndex_eq (first : Nat) :
    (gridTriangles columns rows).map (Vec3.map (gridIndex first columns)) =
      (faceTriangles columns rows).map (Vec3.map (first + ·)) := by
  rw [faceTriangles_eq, List.map_map]
  rfl

/-! ### Edges -/

/-- The edges between indices are those between the points of the grid. -/
theorem edges_map_gridIndex :
    edges ((gridTriangles columns rows).map (Vec3.map (gridIndex first columns))) =
      (edges (gridTriangles columns rows)).map
        (Prod.map (gridIndex first columns) (gridIndex first columns)) := edges_map _ _

/-- No edge between indices is run through twice in the same direction. -/
theorem nodup_edges_map_gridIndex :
    (edges ((gridTriangles columns rows).map (Vec3.map (gridIndex first columns)))).Nodup := by
  rw [edges_map_gridIndex]
  refine nodup_edges_gridTriangles.map_on fun e he e' he' heq => ?_
  obtain ⟨hstart, hstop⟩ := column_le_of_mem_edges he
  obtain ⟨hstart', hstop'⟩ := column_le_of_mem_edges he'
  obtain ⟨hfst, hsnd⟩ := Prod.mk.inj heq
  exact Prod.ext (gridIndex_inj hstart hstart' hfst) (gridIndex_inj hstop hstop' hsnd)

/-- An edge between points is an edge between their indices. -/
theorem mem_edges_map_gridIndex {p q : Nat × Nat} (hp : p.1 ≤ columns) (hq : q.1 ≤ columns) :
    (gridIndex first columns p, gridIndex first columns q) ∈
        edges ((gridTriangles columns rows).map (Vec3.map (gridIndex first columns))) ↔
      (p, q) ∈ edges (gridTriangles columns rows) := by
  rw [edges_map_gridIndex, List.mem_map]
  constructor
  · rintro ⟨⟨p', q'⟩, he, heq⟩
    obtain ⟨hp', hq'⟩ := column_le_of_mem_edges he
    obtain ⟨hfst, hsnd⟩ := Prod.mk.inj heq
    obtain rfl : p' = p := gridIndex_inj hp' hp hfst
    obtain rfl : q' = q := gridIndex_inj hq' hq hsnd
    exact he
  · exact fun he => ⟨(p, q), he, rfl⟩

/-- How often a line is run through in each direction. -/
theorem count_edges_map_gridIndex (first : Nat) {line : GridLine} (h : line.InGrid columns rows)
    [Decidable (line.IsForward columns)] [Decidable (line.IsBackward rows)] :
    (edges ((gridTriangles columns rows).map (Vec3.map (gridIndex first columns)))).count
        (gridIndex first columns line.start, gridIndex first columns line.stop) =
        (if line.IsForward columns then 1 else 0) ∧
      (edges ((gridTriangles columns rows).map (Vec3.map (gridIndex first columns)))).count
        (gridIndex first columns line.stop, gridIndex first columns line.start) =
        (if line.IsBackward rows then 1 else 0) := by
  have hstart := line.column_start_le h
  have hstop := line.column_stop_le h
  rw [nodup_edges_map_gridIndex.count, nodup_edges_map_gridIndex.count]
  simp only [mem_edges_map_gridIndex hstart hstop, mem_edges_map_gridIndex hstop hstart,
    forward_mem_edges_iff h, backward_mem_edges_iff h, and_self]

end Indices

/-- The triangles of a grid with cells triangulate it. -/
theorem triangulatesGrid_map {columns rows : Nat} (hcolumns : 0 < columns) (hrows : 0 < rows)
    (first : Nat) :
    TriangulatesGrid ((gridTriangles columns rows).map (Vec3.map (gridIndex first columns))) first
      columns rows := by
  classical
  constructor
  case eq_map => rfl
  -- what holds of points holds of indices, which tell the points of the grid apart
  case corners_ne =>
    intro t ht
    obtain ⟨points, hpoints, rfl⟩ := List.mem_map.mp ht
    obtain ⟨hx, hy, hz⟩ := column_le_of_mem_gridTriangles hpoints
    have hne := corners_ne_of_mem_gridTriangles hpoints
    exact ⟨fun h => hne.1 (gridIndex_inj hx hy h), fun h => hne.2.1 (gridIndex_inj hy hz h),
      fun h => hne.2.2 (gridIndex_inj hz hx h)⟩
  -- here the indices are counted from the first vertex of the face
  case mem_block =>
    rw [map_gridIndex_eq]
    intro t ht i hi
    obtain ⟨places, hplaces, rfl⟩ := List.mem_map.mp ht
    obtain ⟨place, hplace, rfl⟩ : ∃ place ∈ places.toList, first + place = i := by
      simpa [Vec3.map, Vec3.toList, eq_comm] using hi
    have hlt := lt_of_mem_faceTriangles hplaces hplace
    omega
  case exists_mem =>
    rw [map_gridIndex_eq]
    intro i hfirst hi
    obtain ⟨places, hplaces, hmem⟩ :=
      exists_mem_faceTriangles hcolumns hrows (show i - first < _ by omega)
    refine ⟨_, List.mem_map.mpr ⟨places, hplaces, rfl⟩, ?_⟩
    have hi : i = first + (i - first) := by omega
    rw [hi]
    exact List.mem_map_of_mem hmem
  case nodup_edges => exact nodup_edges_map_gridIndex
  case exists_line =>
    intro e he
    rw [edges_map_gridIndex] at he
    obtain ⟨ends, hends, rfl⟩ := List.mem_map.mp he
    obtain ⟨line, hline, rfl | rfl⟩ := exists_line_of_mem_edges hends
    · exact ⟨line, hline, Or.inl rfl⟩
    · exact ⟨line, hline, Or.inr rfl⟩
  case count_inner =>
    intro line hline hinner
    obtain ⟨hforward, hbackward⟩ := line.directions_of_inner hline hinner
    obtain ⟨hcount, hcount'⟩ := count_edges_map_gridIndex first hline
    rw [hcount, hcount', if_pos hforward, if_pos hbackward]
    exact ⟨rfl, rfl⟩
  case count_border =>
    intro line hline hborder
    obtain ⟨hcount, hcount'⟩ := count_edges_map_gridIndex first hline
    rw [hcount, hcount']
    rcases line.direction_of_onBorder hcolumns hrows hline hborder with ⟨hone, hnot⟩ | ⟨hnot, hone⟩
    · rw [if_pos hone, if_neg hnot]
    · rw [if_pos hone, if_neg hnot]
  case side_eq =>
    intro t ht
    obtain ⟨points, hpoints, rfl⟩ := List.mem_map.mp ht
    obtain ⟨hx, hy, hz⟩ := column_le_of_mem_gridTriangles hpoints
    simp only [Vec3.map, gridPoint_gridIndex hx, gridPoint_gridIndex hy, gridPoint_gridIndex hz]
    exact side_of_mem_gridTriangles hpoints
  case exists_covers =>
    intro p hleft hright hbottom htop
    obtain ⟨points, hpoints, hcovers⟩ :=
      Shape.exists_covers hcolumns hrows hleft hright hbottom htop
    refine ⟨_, List.mem_map.mpr ⟨points, hpoints, rfl⟩, ?_⟩
    rwa [map_gridPoint_map_gridIndex hpoints]
  case eq_of_inside =>
    intro t ht t' ht' p hinside hinside'
    obtain ⟨points, hpoints, rfl⟩ := List.mem_map.mp ht
    obtain ⟨points', hpoints', rfl⟩ := List.mem_map.mp ht'
    rw [map_gridPoint_map_gridIndex hpoints] at hinside
    rw [map_gridPoint_map_gridIndex hpoints'] at hinside'
    rw [eq_of_coversInside hpoints hpoints' hinside hinside']

end LatticeScene.Shape.SegmentedBox
