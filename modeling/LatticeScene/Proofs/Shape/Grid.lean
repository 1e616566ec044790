import LatticeScene.Shape.Space
import Mathlib

/-!
# Triangulated grids

The lines and the area of a grid whose cells are cut into two triangles each.
-/

namespace LatticeScene.Shape

/-!
## The lines of a triangulated grid

A grid of cells has lines along its rows, lines along its columns, and a diagonal across every cell.
Each cell is cut along its diagonal into two triangles (`gridTriangles`), and the `edges` of
triangles are directed: they run around each triangle through its corners in order.

Two cells have no edge in common (`eq_of_mem_edges_cellPoints`), and so no edge occurs twice
(`nodup_edges_gridTriangles`).  Which line is run through in which direction is said by
`forward_mem_edges_iff` and `backward_mem_edges_iff`: a line between two triangles is run through
once in each direction, and a line on the border once in one of them.
-/

/-! ### Edges of triangles -/

section Edges

variable {α β : Type}

/-- The edges of triangles, in the direction in which each triangle runs through its corners. -/
def edges (triangles : List (Vec3 α)) : List (α × α) :=
  triangles.flatMap fun t => [(t.x, t.y), (t.y, t.z), (t.z, t.x)]

/-- Edges go where corners go. -/
theorem edges_map (f : α → β) (triangles : List (Vec3 α)) :
    edges (triangles.map (Vec3.map f)) = (edges triangles).map (Prod.map f f) := by
  rw [edges, edges, List.flatMap_map, List.map_flatMap]
  rfl

/-- The edges of several groups of triangles are those of each group, one group after the other. -/
theorem edges_flatMap {ι : Type} (f : ι → List (Vec3 α)) (xs : List ι) :
    edges (xs.flatMap f) = xs.flatMap fun x => edges (f x) := List.flatMap_assoc

end Edges

/-! ### Cells and lines -/

/-- The two triangles of the cell in column `x` and row `y`, with columns and rows for corners. -/
def cellPoints (x y : Nat) : List (Vec3 (Nat × Nat)) :=
  [⟨(x, y), (x, y + 1), (x + 1, y)⟩, ⟨(x, y + 1), (x + 1, y + 1), (x + 1, y)⟩]

/-- The triangles of all cells, row by row. -/
def gridTriangles (columns rows : Nat) : List (Vec3 (Nat × Nat)) :=
  (List.range rows).flatMap fun y => (List.range columns).flatMap fun x => cellPoints x y

/-- A line from one point of a grid to the next. -/
inductive GridLine where
  /-- From the point in column `x` and row `y` to the next column. -/
  | alongRow (x y : Nat)
  /-- From the point in column `x` and row `y` to the next row. -/
  | alongColumn (x y : Nat)
  /-- Across the cell in column `x` and row `y`. -/
  | diagonal (x y : Nat)
deriving DecidableEq

namespace GridLine

/-- The end at which a line starts. -/
def start : GridLine → Nat × Nat
  | alongRow x y => (x, y)
  | alongColumn x y => (x, y)
  | diagonal x y => (x, y + 1)

/-- The other end of a line. -/
def stop : GridLine → Nat × Nat
  | alongRow x y => (x + 1, y)
  | alongColumn x y => (x, y + 1)
  | diagonal x y => (x + 1, y)

/-- Whether a line is one of a grid. -/
def InGrid (columns rows : Nat) : GridLine → Prop
  | alongRow x y => x < columns ∧ y ≤ rows
  | alongColumn x y => x ≤ columns ∧ y < rows
  | diagonal x y => x < columns ∧ y < rows

/-- Whether a line of a grid has a cell on one side only. -/
def OnBorder (columns rows : Nat) : GridLine → Prop
  | alongRow _ y => y = 0 ∨ y = rows
  | alongColumn x _ => x = 0 ∨ x = columns
  | diagonal _ _ => False

/-- Whether a line of a grid has a triangle that runs from its start to its end. -/
def IsForward (columns : Nat) : GridLine → Prop
  | alongRow _ y => 0 < y
  | alongColumn x _ => x < columns
  | diagonal _ _ => True

/-- Whether a line of a grid has a triangle that runs from its end to its start. -/
def IsBackward (rows : Nat) : GridLine → Prop
  | alongRow _ y => y < rows
  | alongColumn x _ => 0 < x
  | diagonal _ _ => True

section Lines

variable {columns rows : Nat} {line : GridLine}

/-- The start of a line of a grid is in one of its columns of points. -/
theorem column_start_le (h : line.InGrid columns rows) : line.start.1 ≤ columns := by
  cases line <;> simp only [InGrid, start] at h ⊢ <;> omega

/-- The end of a line of a grid is in one of its columns of points. -/
theorem column_stop_le (h : line.InGrid columns rows) : line.stop.1 ≤ columns := by
  cases line <;> simp only [InGrid, stop] at h ⊢ <;> omega

/-- Inside a grid both directions are run through. -/
theorem directions_of_inner (h : line.InGrid columns rows) (hinner : ¬line.OnBorder columns rows) :
    line.IsForward columns ∧ line.IsBackward rows := by
  cases line with
  | alongRow x y =>
    simp only [InGrid, OnBorder, IsForward, IsBackward] at *
    omega
  | alongColumn x y =>
    simp only [InGrid, OnBorder, IsForward, IsBackward] at *
    omega
  | diagonal x y => exact ⟨trivial, trivial⟩

/-- On the border of a grid with cells only one direction is run through. -/
theorem direction_of_onBorder (hcolumns : 0 < columns) (hrows : 0 < rows)
    (h : line.InGrid columns rows) (hborder : line.OnBorder columns rows) :
    (line.IsForward columns ∧ ¬line.IsBackward rows) ∨
      (¬line.IsForward columns ∧ line.IsBackward rows) := by
  cases line with
  | alongRow x y =>
    simp only [InGrid, OnBorder, IsForward, IsBackward] at *
    omega
  | alongColumn x y =>
    simp only [InGrid, OnBorder, IsForward, IsBackward] at *
    omega
  | diagonal x y => exact hborder.elim

end Lines

end GridLine

/-! ### Edges of a grid -/

/-- The edges of a cell: three sides of the one triangle and three of the other. -/
theorem mem_edges_cellPoints {x y : Nat} {e : (Nat × Nat) × (Nat × Nat)} :
    e ∈ edges (cellPoints x y) ↔
      e = ((x, y), (x, y + 1)) ∨ e = ((x, y + 1), (x + 1, y)) ∨ e = ((x + 1, y), (x, y)) ∨
        e = ((x, y + 1), (x + 1, y + 1)) ∨ e = ((x + 1, y + 1), (x + 1, y)) ∨
          e = ((x + 1, y), (x, y + 1)) := by
  simp only [edges, cellPoints, List.flatMap_cons, List.flatMap_nil, List.cons_append,
    List.nil_append, List.mem_cons, List.not_mem_nil, or_false]

/-- The two triangles of a cell run through no edge twice in the same direction. -/
theorem nodup_edges_cellPoints (x y : Nat) : (edges (cellPoints x y)).Nodup := by
  simp [edges, cellPoints]

/-- An edge belongs to one cell only. -/
theorem eq_of_mem_edges_cellPoints {x y x' y' : Nat} {e : (Nat × Nat) × (Nat × Nat)}
    (h : e ∈ edges (cellPoints x y)) (h' : e ∈ edges (cellPoints x' y')) : x = x' ∧ y = y' := by
  rw [mem_edges_cellPoints] at h h'
  rcases h with rfl | rfl | rfl | rfl | rfl | rfl <;>
    simp only [Prod.mk.injEq] at h' <;> omega

section Grid

variable {columns rows : Nat}

/-- A triangle of a grid is one of the two in some cell. -/
theorem mem_gridTriangles {t : Vec3 (Nat × Nat)} :
    t ∈ gridTriangles columns rows ↔ ∃ x y, (x < columns ∧ y < rows) ∧ t ∈ cellPoints x y := by
  simp only [gridTriangles, List.mem_flatMap, List.mem_range]
  constructor
  · rintro ⟨y, hy, x, hx, ht⟩
    exact ⟨x, y, ⟨hx, hy⟩, ht⟩
  · rintro ⟨x, y, ⟨hx, hy⟩, ht⟩
    exact ⟨y, hy, x, hx, ht⟩

/-- The three corners of a triangle are different points. -/
theorem corners_ne_of_mem_gridTriangles {t : Vec3 (Nat × Nat)}
    (ht : t ∈ gridTriangles columns rows) : t.x ≠ t.y ∧ t.y ≠ t.z ∧ t.z ≠ t.x := by
  obtain ⟨x, y, -, hcell⟩ := mem_gridTriangles.mp ht
  simp only [cellPoints, List.mem_cons, List.not_mem_nil, or_false] at hcell
  rcases hcell with rfl | rfl <;> simp

/-- The edges of a grid are those of its cells, row by row. -/
theorem edges_gridTriangles :
    edges (gridTriangles columns rows) =
      (List.range rows).flatMap fun y =>
        (List.range columns).flatMap fun x => edges (cellPoints x y) := by
  rw [gridTriangles, edges_flatMap]
  simp only [edges_flatMap]

/-- An edge of a grid is one of some cell. -/
theorem mem_edges_gridTriangles {e : (Nat × Nat) × (Nat × Nat)} :
    e ∈ edges (gridTriangles columns rows) ↔
      ∃ x y, (x < columns ∧ y < rows) ∧ e ∈ edges (cellPoints x y) := by
  rw [edges_gridTriangles]
  simp only [List.mem_flatMap, List.mem_range]
  constructor
  · rintro ⟨y, hy, x, hx, he⟩
    exact ⟨x, y, ⟨hx, hy⟩, he⟩
  · rintro ⟨x, y, ⟨hx, hy⟩, he⟩
    exact ⟨y, hy, x, hx, he⟩

/-- No edge of a grid occurs twice: the edges of one cell are different, and other cells have other
edges. -/
theorem nodup_edges_gridTriangles : (edges (gridTriangles columns rows)).Nodup := by
  rw [edges_gridTriangles, List.nodup_flatMap]
  constructor
  · intro y _
    rw [List.nodup_flatMap]
    refine ⟨fun x _ => nodup_edges_cellPoints x y, ?_⟩
    refine List.nodup_range.imp fun hne e he he' => hne ?_
    exact (eq_of_mem_edges_cellPoints he he').1
  · refine List.nodup_range.imp fun hne e he he' => hne ?_
    obtain ⟨x, -, he⟩ := List.mem_flatMap.mp he
    obtain ⟨x', -, he'⟩ := List.mem_flatMap.mp he'
    exact (eq_of_mem_edges_cellPoints he he').2

/-- Every edge runs along a line of the grid. -/
theorem exists_line_of_mem_edges {e : (Nat × Nat) × (Nat × Nat)}
    (h : e ∈ edges (gridTriangles columns rows)) :
    ∃ line : GridLine, line.InGrid columns rows ∧
      (e = (line.start, line.stop) ∨ e = (line.stop, line.start)) := by
  obtain ⟨x, y, ⟨hx, hy⟩, he⟩ := mem_edges_gridTriangles.mp h
  rw [mem_edges_cellPoints] at he
  rcases he with rfl | rfl | rfl | rfl | rfl | rfl
  · exact ⟨.alongColumn x y, ⟨hx.le, hy⟩, Or.inl rfl⟩
  · exact ⟨.diagonal x y, ⟨hx, hy⟩, Or.inl rfl⟩
  · exact ⟨.alongRow x y, ⟨hx, hy.le⟩, Or.inr rfl⟩
  · exact ⟨.alongRow x (y + 1), ⟨hx, hy⟩, Or.inl rfl⟩
  · exact ⟨.alongColumn (x + 1) y, ⟨hx, hy⟩, Or.inr rfl⟩
  · exact ⟨.diagonal x y, ⟨hx, hy⟩, Or.inr rfl⟩

variable {line : GridLine}

/-- Forwards, a line along a row belongs to the cell in the row before it, and a line along a column
to the cell in its own column. -/
theorem forward_mem_edges_iff (h : line.InGrid columns rows) :
    (line.start, line.stop) ∈ edges (gridTriangles columns rows) ↔ line.IsForward columns := by
  simp only [mem_edges_gridTriangles, mem_edges_cellPoints]
  cases line with
  | alongRow x y =>
    simp only [GridLine.InGrid, GridLine.IsForward, GridLine.start, GridLine.stop,
      Prod.mk.injEq] at h ⊢
    constructor
    · rintro ⟨x', y', hcell, hedge⟩
      omega
    · intro hpos
      exact ⟨x, y - 1, by omega, by omega⟩
  | alongColumn x y =>
    simp only [GridLine.InGrid, GridLine.IsForward, GridLine.start, GridLine.stop,
      Prod.mk.injEq] at h ⊢
    constructor
    · rintro ⟨x', y', hcell, hedge⟩
      omega
    · intro hlt
      exact ⟨x, y, by omega, by omega⟩
  | diagonal x y => exact iff_of_true ⟨x, y, h, Or.inr (Or.inl rfl)⟩ trivial

/-- Backwards, a line along a row belongs to the cell in its own row, and a line along a column to
the cell in the column before it. -/
theorem backward_mem_edges_iff (h : line.InGrid columns rows) :
    (line.stop, line.start) ∈ edges (gridTriangles columns rows) ↔ line.IsBackward rows := by
  simp only [mem_edges_gridTriangles, mem_edges_cellPoints]
  cases line with
  | alongRow x y =>
    simp only [GridLine.InGrid, GridLine.IsBackward, GridLine.start, GridLine.stop,
      Prod.mk.injEq] at h ⊢
    constructor
    · rintro ⟨x', y', hcell, hedge⟩
      omega
    · intro hlt
      exact ⟨x, y, by omega, by omega⟩
  | alongColumn x y =>
    simp only [GridLine.InGrid, GridLine.IsBackward, GridLine.start, GridLine.stop,
      Prod.mk.injEq] at h ⊢
    constructor
    · rintro ⟨x', y', hcell, hedge⟩
      omega
    · intro hpos
      -- the cell to the left runs through the line backwards
      exact ⟨x - 1, y, by omega, by omega⟩
  | diagonal x y =>
    exact iff_of_true
      ⟨x, y, h, Or.inr (Or.inr (Or.inr (Or.inr (Or.inr rfl))))⟩ trivial

end Grid

/-!
## The area of a triangulated grid

A grid is laid out in the plane with its columns and rows as coordinates.  `side a b p` says on
which side of the line from `a` to `b` a point lies, and by how much.  The triangles of a grid all
have their third corner on the same side of the first two (`side_of_mem_gridTriangles`), which makes
that side the inner one.

The lower triangle of a cell has the points of the cell up to the diagonal, and the upper one those
from there on (`covers_lower_iff`, `covers_upper_iff`).  So the triangles leave no gap
(`exists_covers`) and do not overlap (`eq_of_coversInside`).
-/

/-- On which side of the line from `a` to `b` a point lies, with twice the area of the triangle that
the three points make. -/
def side (a b p : Rat × Rat) : Rat := (b.1 - a.1) * (p.2 - a.2) - (p.1 - a.1) * (b.2 - a.2)

/-- A triangle covers the points that are not on the outer side of one of its edges. -/
def Covers (t : Vec3 (Rat × Rat)) (p : Rat × Rat) : Prop :=
  side t.x t.y p ≤ 0 ∧ side t.y t.z p ≤ 0 ∧ side t.z t.x p ≤ 0

/-- The points that a triangle covers and that are not on its edges. -/
def CoversInside (t : Vec3 (Rat × Rat)) (p : Rat × Rat) : Prop :=
  side t.x t.y p < 0 ∧ side t.y t.z p < 0 ∧ side t.z t.x p < 0

/-- Where the point in a column and a row lies. -/
def gridPosition (point : Nat × Nat) : Rat × Rat := (point.1, point.2)

/-! ### One cell -/

section Cell

variable {x y : Nat} {p : Rat × Rat}

/-- The distances of a point from the edges of the lower triangle of a cell. -/
theorem side_lower (x y : Nat) (p : Rat × Rat) :
    side (gridPosition (x, y)) (gridPosition (x, y + 1)) p = x - p.1 ∧
      side (gridPosition (x, y + 1)) (gridPosition (x + 1, y)) p = (p.1 - x) + (p.2 - y) - 1 ∧
      side (gridPosition (x + 1, y)) (gridPosition (x, y)) p = y - p.2 := by
  simp only [side, gridPosition]
  push_cast
  refine ⟨?_, ?_, ?_⟩ <;> ring

/-- The distances of a point from the edges of the upper triangle of a cell. -/
theorem side_upper (x y : Nat) (p : Rat × Rat) :
    side (gridPosition (x, y + 1)) (gridPosition (x + 1, y + 1)) p = p.2 - y - 1 ∧
      side (gridPosition (x + 1, y + 1)) (gridPosition (x + 1, y)) p = p.1 - x - 1 ∧
      side (gridPosition (x + 1, y)) (gridPosition (x, y + 1)) p =
        1 - ((p.1 - x) + (p.2 - y)) := by
  simp only [side, gridPosition]
  push_cast
  refine ⟨?_, ?_, ?_⟩ <;> ring

/-- The lower triangle of a cell covers what is not beyond the left side, the bottom and the
diagonal. -/
theorem covers_lower_iff :
    Covers (Vec3.map gridPosition ⟨(x, y), (x, y + 1), (x + 1, y)⟩) p ↔
      x ≤ p.1 ∧ y ≤ p.2 ∧ (p.1 - x) + (p.2 - y) ≤ 1 := by
  obtain ⟨hleft, hdiagonal, hbottom⟩ := side_lower x y p
  simp only [Covers, Vec3.map, hleft, hdiagonal, hbottom, sub_nonpos]
  tauto

/-- The upper triangle of a cell covers what is not beyond the right side, the top and the diagonal.
-/
theorem covers_upper_iff :
    Covers (Vec3.map gridPosition ⟨(x, y + 1), (x + 1, y + 1), (x + 1, y)⟩) p ↔
      p.1 ≤ x + 1 ∧ p.2 ≤ y + 1 ∧ 1 ≤ (p.1 - x) + (p.2 - y) := by
  obtain ⟨htop, hright, hdiagonal⟩ := side_upper x y p
  simp only [Covers, Vec3.map, htop, hright, hdiagonal, sub_sub, sub_nonpos]
  tauto

/-- The lower triangle of a cell has inside what is on the inner side of its three edges. -/
theorem coversInside_lower_iff :
    CoversInside (Vec3.map gridPosition ⟨(x, y), (x, y + 1), (x + 1, y)⟩) p ↔
      x < p.1 ∧ y < p.2 ∧ (p.1 - x) + (p.2 - y) < 1 := by
  obtain ⟨hleft, hdiagonal, hbottom⟩ := side_lower x y p
  simp only [CoversInside, Vec3.map, hleft, hdiagonal, hbottom, sub_neg]
  tauto

/-- The upper triangle of a cell has inside what is on the inner side of its three edges. -/
theorem coversInside_upper_iff :
    CoversInside (Vec3.map gridPosition ⟨(x, y + 1), (x + 1, y + 1), (x + 1, y)⟩) p ↔
      p.1 < x + 1 ∧ p.2 < y + 1 ∧ 1 < (p.1 - x) + (p.2 - y) := by
  obtain ⟨htop, hright, hdiagonal⟩ := side_upper x y p
  simp only [CoversInside, Vec3.map, htop, hright, hdiagonal, sub_sub, sub_neg]
  tauto

/-- What is inside a triangle is inside its cell, and on its side of the diagonal. -/
theorem inside_cell_of_mem {t : Vec3 (Nat × Nat)} (ht : t ∈ cellPoints x y)
    (h : CoversInside (t.map gridPosition) p) :
    (x < p.1 ∧ p.1 < x + 1 ∧ y < p.2 ∧ p.2 < y + 1) ∧
      ((t = ⟨(x, y), (x, y + 1), (x + 1, y)⟩ ∧ (p.1 - x) + (p.2 - y) < 1) ∨
        (t = ⟨(x, y + 1), (x + 1, y + 1), (x + 1, y)⟩ ∧ 1 < (p.1 - x) + (p.2 - y))) := by
  simp only [cellPoints, List.mem_cons, List.not_mem_nil, or_false] at ht
  rcases ht with rfl | rfl
  · obtain ⟨hleft, hbottom, hdiagonal⟩ := coversInside_lower_iff.mp h
    exact ⟨⟨hleft, by linarith, hbottom, by linarith⟩, Or.inl ⟨rfl, hdiagonal⟩⟩
  · obtain ⟨hright, htop, hdiagonal⟩ := coversInside_upper_iff.mp h
    exact ⟨⟨by linarith, hright, by linarith, htop⟩, Or.inr ⟨rfl, hdiagonal⟩⟩

end Cell

/-! ### The whole grid -/

/-- A number up to `n` lies between two neighbours among the natural numbers. -/
theorem exists_floor {n : Nat} (hn : 0 < n) {q : Rat} (hq : 0 ≤ q) (hle : q ≤ n) :
    ∃ k < n, k ≤ q ∧ q ≤ k + 1 := by
  induction n with
  | zero => exact absurd hn (Nat.lt_irrefl 0)
  | succ n ih =>
    by_cases hlast : n ≤ q
    · exact ⟨n, Nat.lt_succ_self n, hlast, by exact_mod_cast hle⟩
    · have hlt : q < n := lt_of_not_ge hlast
      have hpos : 0 < n := by exact_mod_cast lt_of_le_of_lt hq hlt
      obtain ⟨k, hk, hcell⟩ := ih hpos hlt.le
      exact ⟨k, Nat.lt_succ_of_lt hk, hcell⟩

section Grid

variable {columns rows : Nat}

/-- All triangles run around in the same direction, and have half the area of a cell. -/
theorem side_of_mem_gridTriangles {t : Vec3 (Nat × Nat)} (ht : t ∈ gridTriangles columns rows) :
    side (gridPosition t.x) (gridPosition t.y) (gridPosition t.z) = -1 := by
  obtain ⟨x, y, -, hcell⟩ := mem_gridTriangles.mp ht
  simp only [cellPoints, List.mem_cons, List.not_mem_nil, or_false] at hcell
  rcases hcell with rfl | rfl
  · rw [(side_lower x y _).1, gridPosition]
    push_cast
    ring
  · rw [(side_upper x y _).1, gridPosition]
    push_cast
    ring

/-- The triangles of a grid leave no gap. -/
theorem exists_covers {p : Rat × Rat} (hcolumns : 0 < columns) (hrows : 0 < rows)
    (hleft : 0 ≤ p.1) (hright : p.1 ≤ columns) (hbottom : 0 ≤ p.2) (htop : p.2 ≤ rows) :
    ∃ t ∈ gridTriangles columns rows, Covers (t.map gridPosition) p := by
  obtain ⟨x, hx, hleft, hright⟩ := exists_floor hcolumns hleft hright
  obtain ⟨y, hy, hbottom, htop⟩ := exists_floor hrows hbottom htop
  rcases le_total ((p.1 - x) + (p.2 - y)) 1 with hlower | hupper
  · refine ⟨_, mem_gridTriangles.mpr ⟨x, y, ⟨hx, hy⟩, List.mem_cons_self⟩, ?_⟩
    exact covers_lower_iff.mpr ⟨hleft, hbottom, hlower⟩
  · refine ⟨_, mem_gridTriangles.mpr ⟨x, y, ⟨hx, hy⟩, List.mem_cons_of_mem _
      List.mem_cons_self⟩, ?_⟩
    exact covers_upper_iff.mpr ⟨hright, htop, hupper⟩

/-- The triangles of a grid do not overlap. -/
theorem eq_of_coversInside {p : Rat × Rat} {t t' : Vec3 (Nat × Nat)}
    (ht : t ∈ gridTriangles columns rows) (ht' : t' ∈ gridTriangles columns rows)
    (h : CoversInside (t.map gridPosition) p) (h' : CoversInside (t'.map gridPosition) p) :
    t = t' := by
  obtain ⟨x, y, -, hcell⟩ := mem_gridTriangles.mp ht
  obtain ⟨x', y', -, hcell'⟩ := mem_gridTriangles.mp ht'
  obtain ⟨⟨hleft, hright, hbottom, htop⟩, hhalf⟩ := inside_cell_of_mem hcell h
  obtain ⟨⟨hleft', hright', hbottom', htop'⟩, hhalf'⟩ := inside_cell_of_mem hcell' h'
  -- two cells that have an inner point in common are the same
  have hx : x < x' + 1 := by exact_mod_cast hleft.trans hright'
  have hx' : x' < x + 1 := by exact_mod_cast hleft'.trans hright
  have hy : y < y' + 1 := by exact_mod_cast hbottom.trans htop'
  have hy' : y' < y + 1 := by exact_mod_cast hbottom'.trans htop
  obtain rfl : x = x' := by omega
  obtain rfl : y = y' := by omega
  rcases hhalf with ⟨rfl, hlower⟩ | ⟨rfl, hupper⟩
  · rcases hhalf' with ⟨rfl, -⟩ | ⟨-, hupper'⟩
    · rfl
    · exact absurd hlower (not_lt_of_gt hupper')
  · rcases hhalf' with ⟨-, hlower'⟩ | ⟨rfl, -⟩
    · exact absurd hlower' (not_lt_of_gt hupper)
    · rfl

end Grid

end LatticeScene.Shape
