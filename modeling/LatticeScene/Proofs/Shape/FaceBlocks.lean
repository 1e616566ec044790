import LatticeScene.Buffer
import LatticeScene.Proofs.Shape.GridMesh

/-!
# The faces of a subdivided box, one after the other

Every face of a subdivided box has a block of vertices and a group of indices of its own, and they
come in the order of the faces.  A face that is added leaves alone what is there
(`prefix_foldl_addFace`), so that the block of a face, and its group, are found where those of the
faces before it end: `getElem?_vertices_of_split` says which vertices are found there,
`getElem?_groups_of_split` which group, and `drop_take_indices_of_split` which indices it covers.
-/

namespace LatticeScene.Shape

/-- A group of indices whose ends fit in 32 bits. -/
theorem Group.ofRange_of_lt {start count materialSlot : Nat} (h : start + count < UInt32.size) :
    Group.ofRange start (start + count) materialSlot = ⟨start, count, materialSlot⟩ := by
  have hstart : start.toUInt32.toNat = start := UInt32.toNat_ofNat_of_lt' (by omega)
  have hstop : (start + count).toUInt32.toNat = start + count := UInt32.toNat_ofNat_of_lt' h
  have hle : start.toUInt32 ≤ (start + count).toUInt32 := by
    rw [UInt32.le_iff_toNat_le, hstart, hstop]
    exact Nat.le_add_right start count
  have hcount : ((start + count).toUInt32 - start.toUInt32).toNat = count := by
    rw [UInt32.toNat_sub_of_le _ _ hle, hstart, hstop]
    exact Nat.add_sub_cancel_left start count
  rw [Group.ofRange, hstart, hcount]

/-- A point of a rectangle is found by its column and row. -/
theorem getElem?_rectangle {α : Type} (f : Nat → Nat → α) {rows columns x y : Nat}
    (hx : x < columns) (hy : y < rows) :
    ((List.range rows).flatMap fun y => (List.range columns).map fun x => f x y)[x + columns * y]? =
      some (f x y) := by
  induction rows with
  | zero => exact absurd hy (Nat.not_lt_zero y)
  | succ rows ih =>
    have hlength := length_rectangle f rows columns
    rw [List.range_succ, List.flatMap_append, List.flatMap_cons, List.flatMap_nil, List.append_nil]
    by_cases hlast : y = rows
    · subst hlast
      rw [List.getElem?_append_right (by omega), hlength, Nat.add_sub_cancel, List.getElem?_map,
        List.getElem?_range hx]
      rfl
    · have hrow : columns * y + columns ≤ columns * rows := by
        rw [← Nat.mul_succ]
        exact Nat.mul_le_mul_left columns (by omega)
      rw [List.getElem?_append_left (by omega)]
      exact ih (by omega)

namespace SegmentedBox

/-! ### One face -/

/-- How many indices the group of a face has. -/
def indexCount (segments : Nat × Nat) : Nat := 6 * segments.1 * segments.2

/-- The vertices of a box, three numbers to each. -/
def vertices (b : SegmentedBox) : List (Vec3 Float32) := triples b.positions.toList

/-- The points of a face of a box. -/
def facePoints (parameters : BoxParameters) (face : Face) : List (Vec3 Float32) :=
  let segments := face.segments parameters.segments
  (face.grid.points Vec3.zero (face.extents parameters.dimensions) segments.1 segments.2).map
    fun point => point.2.2

/-- The triangles that the indices of a group make. -/
def groupTriangles (b : SegmentedBox) (group : Group) : List (Vec3 Nat) :=
  triples (((b.indices.toList.drop group.start).take group.count).map UInt32.toNat)

/-- A face has as many points as its grid. -/
theorem length_facePoints (parameters : BoxParameters) (face : Face) :
    (facePoints parameters face).length = pointCount (face.segments parameters.segments) := by
  rw [facePoints, List.length_map, FaceGrid.length_points, pointCount]

/-- The point in a column and a row of a face is found by its place. -/
theorem getElem?_facePoints {parameters : BoxParameters} {face : Face} {columns rows x y : Nat}
    (hsegments : face.segments parameters.segments = (columns, rows)) (hx : x ≤ columns)
    (hy : y ≤ rows) :
    let extents := face.extents parameters.dimensions
    (facePoints parameters face)[gridPlace columns x y]? =
      some (face.grid.point Vec3.zero extents
        (Scalar.ofNat x * (extents.width / Scalar.ofNat columns))
        (Scalar.ofNat y * (extents.height / Scalar.ofNat rows))) := by
  intro extents
  have hpoint := getElem?_rectangle (fun ix iy => (ix, iy, face.grid.point Vec3.zero extents
    (Scalar.ofNat ix * (extents.width / Scalar.ofNat columns))
    (Scalar.ofNat iy * (extents.height / Scalar.ofNat rows)))) (Nat.lt_succ_of_le hx)
    (Nat.lt_succ_of_le hy)
  rw [facePoints, hsegments, List.getElem?_map, gridPlace]
  exact congrArg (Option.map _) hpoint

/-- A face has two triangles to each of its cells. -/
theorem length_faceTriangles (columns rows : Nat) :
    (faceTriangles columns rows).length = 2 * columns * rows := by
  have hrow : ∀ y, ((List.range columns).flatMap fun x =>
      cellTriangles x y (columns + 1)).length = 2 * columns := by
    intro y
    rw [length_flatMap_of_length (n := 2) (fun _ => rfl), List.length_range]
  rw [faceTriangles, length_flatMap_of_length hrow, List.length_range]

section AddFace

variable (b : SegmentedBox) (face : Face)

/-- A face has six indices to each of its cells. -/
theorem length_faceCorners (segments : Nat × Nat) :
    (b.faceCorners segments).length = indexCount segments := by
  rw [faceCorners, length_flatMap_of_length (n := 3) (fun _ => rfl), length_faceTriangles,
    indexCount]
  ring

/-- The points of a face that is added come after those of the faces before it. -/
theorem positions_addFace :
    (b.addFace face).positions.toList =
      b.positions.toList ++ (facePoints b.parameters face).flatMap Vec3.toList := by
  rw [facePoints, List.flatMap_map]
  exact Array.toList_append

/-- A face that is added brings two texture coordinates to each of its points. -/
theorem size_uvs_addFace :
    (b.addFace face).uvs.size =
      b.uvs.size + 2 * pointCount (face.segments b.parameters.segments) := by
  simp only [addFace, Array.size_append, List.size_toArray]
  rw [length_flatMap_of_length (n := 2) (fun _ => rfl), FaceGrid.length_points, pointCount]

/-- A face that is added brings six indices to each of its cells. -/
theorem size_indices_addFace :
    (b.addFace face).indices.size =
      b.indices.size + indexCount (face.segments b.parameters.segments) := by
  have hcorners : (b.faceCorners (face.segments b.parameters.segments)).toArray.size =
      indexCount (face.segments b.parameters.segments) := b.length_faceCorners _
  rw [indices_addFace, Array.size_append, hcorners]

/-- A face that is added brings a group of its own, which covers the indices it brought. -/
theorem groups_addFace :
    (b.addFace face).groups.toList =
      b.groups.toList ++ [.ofRange b.indices.size
        (b.indices.size + indexCount (face.segments b.parameters.segments)) face.slot] := by
  rw [← length_faceCorners b]
  exact Array.toList_push

/-- As long as 32 bits can number the vertices, the indices of a face are the places of its points,
counted from the vertices that are there. -/
theorem map_toNat_faceCorners {segments : Nat × Nat}
    (hsize : b.vertexCount + pointCount segments ≤ UInt32.size) :
    (b.faceCorners segments).map UInt32.toNat =
      ((faceTriangles segments.1 segments.2).map (Vec3.map (b.vertexCount + ·))).flatMap
        Vec3.toList := by
  rw [faceCorners, List.map_flatMap, List.flatMap_map]
  refine List.flatMap_congr fun t ht => ?_
  have hplace : ∀ corner ∈ t.toList,
      (b.vertexCount + corner).toUInt32.toNat = b.vertexCount + corner := by
    intro corner hcorner
    have hlt : corner < pointCount segments := lt_of_mem_faceTriangles ht hcorner
    exact UInt32.toNat_ofNat_of_lt' (by omega)
  rw [List.map_map]
  exact List.map_congr_left hplace

end AddFace

/-! ### Several faces -/

section Faces

variable (b : SegmentedBox) (faces : List Face)

/-- Adding faces leaves the parameters of a box alone. -/
theorem parameters_foldl_addFace : (faces.foldl addFace b).parameters = b.parameters := by
  induction faces generalizing b with
  | nil => rfl
  | cons face faces ih => rw [List.foldl_cons, ih, parameters_addFace]

/-- The points of several faces stand one face after the other. -/
theorem positions_foldl_addFace :
    (faces.foldl addFace b).positions.toList =
      b.positions.toList ++ (faces.flatMap (facePoints b.parameters)).flatMap Vec3.toList := by
  induction faces generalizing b with
  | nil => exact (List.append_nil _).symm
  | cons face faces ih =>
    rw [List.foldl_cons, ih, positions_addFace, parameters_addFace, List.flatMap_cons,
      List.flatMap_append, List.append_assoc]

/-- What every face adds to a count is added up over the faces. -/
theorem count_foldl_addFace (count : SegmentedBox → Nat) (perFace : Nat × Nat → Nat)
    (h : ∀ (b : SegmentedBox) (face : Face),
      count (b.addFace face) = count b + perFace (face.segments b.parameters.segments)) :
    count (faces.foldl addFace b) =
      count b + total (faces.map fun face => perFace (face.segments b.parameters.segments)) := by
  induction faces generalizing b with
  | nil => rfl
  | cons face faces ih =>
    rw [List.foldl_cons, ih, h, parameters_addFace, List.map_cons, total_cons, Nat.add_assoc]

/-- Every face that is added brings one group. -/
theorem size_groups_foldl_addFace :
    (faces.foldl addFace b).groups.size = b.groups.size + faces.length := by
  induction faces generalizing b with
  | nil => rfl
  | cons face faces ih =>
    have hgroups : (b.addFace face).groups.size = b.groups.size + 1 := Array.size_push _
    rw [List.foldl_cons, ih, hgroups, List.length_cons]
    omega

/-- Faces that are added leave the indices and the groups alone that are there. -/
theorem prefix_foldl_addFace :
    b.indices.toList <+: (faces.foldl addFace b).indices.toList ∧
      b.groups.toList <+: (faces.foldl addFace b).groups.toList := by
  induction faces generalizing b with
  | nil => exact ⟨List.prefix_rfl, List.prefix_rfl⟩
  | cons face faces ih =>
    obtain ⟨hindices, hgroups⟩ := ih (b.addFace face)
    rw [List.foldl_cons]
    constructor
    · refine List.IsPrefix.trans ?_ hindices
      rw [indices_addFace, Array.toList_append]
      exact List.prefix_append _ _
    · refine List.IsPrefix.trans ?_ hgroups
      rw [groups_addFace]
      exact List.prefix_append _ _

end Faces

/-! ### A face among others -/

/-- A box without faces. -/
def bare (parameters : BoxParameters) : SegmentedBox := ⟨parameters, #[], #[], #[], #[], #[]⟩

/-- The faces that are drawn when some are selected: those, in the order of their bits, and all of
them when no bit is set. -/
def drawnFaces (faces : FaceSet) : List Face :=
  Face.all.filter fun face => faces.isEmpty || faces.bits.toNat.testBit face.slot

/-- A box with given faces has these added, one after the other, to a box without any. -/
theorem ofFaces_eq (faces : FaceSet) (dimensions : Vec3 Float32) (segments : Vec3 Nat) :
    ofFaces faces dimensions segments =
      (drawnFaces faces).foldl addFace (bare (completed faces dimensions segments)) := by
  have hfaces : (completed faces dimensions segments).faces.faces = drawnFaces faces := by
    rw [completed, drawnFaces]
    cases hempty : faces.isEmpty with
    | true => exact FaceSet.faces_all.trans (List.filter_eq_self.mpr fun _ _ => rfl).symm
    | false => exact FaceSet.faces_eq_filter_testBit faces
  rw [ofFaces, hfaces]
  rfl

/-- How a face is found in a box that has other faces before it: how many there are, how many points
they have, and how many indices. -/
structure DrawsFace (b : SegmentedBox) (face : Face) (number first start : Nat)
    (segments : Nat × Nat) : Prop where
  /-- The point in every column and row of the face has its place in the block of the face. -/
  vertex_eq : ∀ x ≤ segments.1, ∀ y ≤ segments.2,
    let extents := face.extents b.parameters.dimensions
    b.vertices[gridIndex first segments.1 (x, y)]? =
      some (face.grid.point Vec3.zero extents
        (Scalar.ofNat x * (extents.width / Scalar.ofNat segments.1))
        (Scalar.ofNat y * (extents.height / Scalar.ofNat segments.2)))
  /-- The group of the face follows those of the faces before it. -/
  group_eq : b.groups[number]? = some ⟨start, 6 * segments.1 * segments.2, face.slot⟩
  /-- The triangles of the group triangulate the grid of the face. -/
  triangulates :
    TriangulatesGrid (b.groupTriangles ⟨start, 6 * segments.1 * segments.2, face.slot⟩) first
      segments.1 segments.2

section Split

variable (parameters : BoxParameters) (faces before after : List Face) (face : Face)

/-- A box to which faces were added has the parameters it was made with. -/
theorem parameters_foldl_bare : (faces.foldl addFace (bare parameters)).parameters = parameters :=
  parameters_foldl_addFace (bare parameters) faces

/-- The vertices of a box are the points of its faces, one face after the other. -/
theorem vertices_foldl_addFace :
    (faces.foldl addFace (bare parameters)).vertices = faces.flatMap (facePoints parameters) := by
  have hpositions := positions_foldl_addFace (bare parameters) faces
  rw [vertices, hpositions]
  exact triples_flatMap _

/-- The block of a face starts behind the points of the faces before it. -/
theorem getElem?_vertices_of_split {place : Nat}
    (hplace : place < pointCount (face.segments parameters.segments)) :
    ((before ++ face :: after).foldl addFace (bare parameters)).vertices[
        total (before.map fun face => pointCount (face.segments parameters.segments)) + place]? =
      (facePoints parameters face)[place]? := by
  have hlength : (before.flatMap (facePoints parameters)).length =
      total (before.map fun face => pointCount (face.segments parameters.segments)) := by
    induction before with
    | nil => rfl
    | cons other before ih =>
      rw [List.flatMap_cons, List.length_append, length_facePoints, ih, List.map_cons, total_cons]
  rw [vertices_foldl_addFace, List.flatMap_append, List.flatMap_cons, ← hlength,
    List.getElem?_append_right (Nat.le_add_right _ _), Nat.add_sub_cancel_left,
    List.getElem?_append_left (by rwa [length_facePoints])]

/-- The group of a face is that of the indices it adds. -/
theorem getElem?_groups_of_split :
    ((before ++ face :: after).foldl addFace (bare parameters)).groups[before.length]? =
      some (.ofRange (before.foldl addFace (bare parameters)).indices.size
        ((before.foldl addFace (bare parameters)).indices.size +
          indexCount (face.segments parameters.segments)) face.slot) := by
  have hlength : (before.foldl addFace (bare parameters)).groups.toList.length = before.length :=
    (size_groups_foldl_addFace (bare parameters) before).trans (Nat.zero_add _)
  have hprefix :=
    (prefix_foldl_addFace ((before.foldl addFace (bare parameters)).addFace face) after).2
  rw [groups_addFace, parameters_foldl_bare] at hprefix
  obtain ⟨rest, hrest⟩ := hprefix
  rw [List.foldl_append, List.foldl_cons, ← Array.getElem?_toList, ← hrest, List.append_assoc,
    ← hlength, List.getElem?_append_right (Nat.le_refl _), Nat.sub_self]
  rfl

/-- The indices that a face adds are found behind those of the faces before it. -/
theorem drop_take_indices_of_split :
    ((((before ++ face :: after).foldl addFace (bare parameters)).indices.toList.drop
      (before.foldl addFace (bare parameters)).indices.size).take
        (indexCount (face.segments parameters.segments))) =
      (before.foldl addFace (bare parameters)).faceCorners (face.segments parameters.segments) := by
  have hprefix :=
    (prefix_foldl_addFace ((before.foldl addFace (bare parameters)).addFace face) after).1
  rw [indices_addFace, Array.toList_append, parameters_foldl_bare] at hprefix
  obtain ⟨rest, hrest⟩ := hprefix
  rw [List.foldl_append, List.foldl_cons, ← hrest, List.append_assoc, ← Array.length_toList,
    List.drop_left, ← length_faceCorners (before.foldl addFace (bare parameters)), List.take_left]

/-- How many vertices and indices the faces before a face have. -/
theorem counts_foldl_addFace :
    (faces.foldl addFace (bare parameters)).vertexCount =
        total (faces.map fun face => pointCount (face.segments parameters.segments)) ∧
      (faces.foldl addFace (bare parameters)).indices.size =
        total (faces.map fun face => indexCount (face.segments parameters.segments)) := by
  have hvertices :=
    count_foldl_addFace (bare parameters) faces vertexCount pointCount vertexCount_addFace
  have hindices :=
    count_foldl_addFace (bare parameters) faces (·.indices.size) indexCount size_indices_addFace
  have hstart : (bare parameters).vertexCount = 0 := vertexCount_start parameters
  rw [hstart, Nat.zero_add] at hvertices
  exact ⟨hvertices, hindices.trans (Nat.zero_add _)⟩

/-- Every face of a box is drawn where those before it end. -/
theorem drawsFace_of_split
    (hcolumns : 0 < (face.segments parameters.segments).1)
    (hrows : 0 < (face.segments parameters.segments).2)
    (hvertices : total ((before ++ face :: after).map fun face =>
      pointCount (face.segments parameters.segments)) < UInt32.size)
    (hindices : total ((before ++ face :: after).map fun face =>
      indexCount (face.segments parameters.segments)) < UInt32.size) :
    DrawsFace ((before ++ face :: after).foldl addFace (bare parameters)) face before.length
      (total (before.map fun face => pointCount (face.segments parameters.segments)))
      (total (before.map fun face => indexCount (face.segments parameters.segments)))
      (face.segments parameters.segments) := by
  obtain ⟨hfirst, hstart⟩ := counts_foldl_addFace parameters before
  rw [List.map_append, List.map_cons, total_append, total_cons] at hvertices hindices
  constructor
  case vertex_eq =>
    intro x hx y hy
    rw [parameters_foldl_bare]
    exact (getElem?_vertices_of_split _ _ _ _ (gridPlace_lt hx hy)).trans
      (getElem?_facePoints rfl hx hy)
  case group_eq =>
    have hgroup := getElem?_groups_of_split parameters before after face
    have hends : total (before.map fun face => indexCount (face.segments parameters.segments)) +
        indexCount (face.segments parameters.segments) < UInt32.size := by omega
    rw [hstart] at hgroup
    exact hgroup.trans (congrArg some (Group.ofRange_of_lt hends))
  -- as triangles, the indices of the group are the grid of the face behind its first vertex
  case triangulates =>
    have hcorners := drop_take_indices_of_split parameters before after face
    have hplaces := (before.foldl addFace (bare parameters)).map_toNat_faceCorners
      (show _ + pointCount (face.segments parameters.segments) ≤ UInt32.size by omega)
    rw [hstart] at hcorners
    rw [hfirst] at hplaces
    have htriangles := (congrArg triples hplaces).trans (triples_flatMap _)
    rw [← hcorners, ← map_gridIndex_eq] at htriangles
    have hmesh := triangulatesGrid_map hcolumns hrows
      (total (before.map fun face => pointCount (face.segments parameters.segments)))
    rw [← htriangles] at hmesh
    exact hmesh

end Split

/-- A subdivided box draws the faces that are selected, or all of them, in the order of their bits.
Each has a block of vertices, one for every point of its grid, with a normal and a place on the face
for each, and a group of indices, and the blocks and the groups follow one another without gaps.
The triangles of a group triangulate the grid of its face, as long as the vertices and the indices
can be counted with 32 bits. -/
theorem ofFaces_triangulates_grids (faces : FaceSet) (dimensions : Vec3 Float32)
    (segments : Vec3 Nat)
    (hvertices : total ((drawnFaces faces).map fun face =>
      pointCount (face.segments (segments.map (max 1)))) < UInt32.size)
    (hindices : total ((drawnFaces faces).map fun face =>
      indexCount (face.segments (segments.map (max 1)))) < UInt32.size) :
    let b := ofFaces faces dimensions segments
    let perAxis := segments.map (max 1)
    (b.vertexCount = total ((drawnFaces faces).map fun face => pointCount (face.segments perAxis)) ∧
      b.positions.size = 3 * b.vertexCount ∧
      b.normals.size = b.positions.size ∧
      b.uvs.size = 2 * b.vertexCount) ∧
    (b.indices.size =
        total ((drawnFaces faces).map fun face => indexCount (face.segments perAxis)) ∧
      b.groups.size = (drawnFaces faces).length) ∧
    ∀ before face after, drawnFaces faces = before ++ face :: after →
      b.DrawsFace face before.length
        (total (before.map fun face => pointCount (face.segments perAxis)))
        (total (before.map fun face => indexCount (face.segments perAxis)))
        (face.segments perAxis) := by
  intro b perAxis
  have hb : b = (drawnFaces faces).foldl addFace (bare (completed faces dimensions segments)) :=
    ofFaces_eq faces dimensions segments
  obtain ⟨hcount, hsize⟩ :=
    counts_foldl_addFace (completed faces dimensions segments) (drawnFaces faces)
  rw [← hb] at hcount hsize
  have horder : b.InOrder := inOrder_ofFaces faces dimensions segments (hcount ▸ hvertices.le)
  have huvs : b.uvs.size = 2 * b.vertexCount := by
    have hadd := count_foldl_addFace (bare (completed faces dimensions segments))
      (drawnFaces faces) (·.uvs.size) (fun segments => 2 * pointCount segments) size_uvs_addFace
    rw [total_map_mul, ← hb] at hadd
    rw [hcount]
    exact hadd.trans (Nat.zero_add _)
  have hgroups : b.groups.size = (drawnFaces faces).length := by
    rw [hb, size_groups_foldl_addFace]
    exact Nat.zero_add _
  refine ⟨⟨hcount, ?_, horder.size_normals, huvs⟩, ⟨hsize, hgroups⟩, ?_⟩
  · exact (Nat.mul_div_cancel' horder.positions_whole).symm
  · intro before face after hsplit
    obtain ⟨hcolumns, hrows⟩ := segments_completed_pos faces dimensions segments face
    rw [hsplit] at hvertices hindices
    rw [hb, hsplit]
    exact drawsFace_of_split _ _ _ _ hcolumns hrows hvertices hindices

/-- Of two faces with grids of different sizes the second one starts behind the eight points and
eighteen indices of the first. -/
theorem ofFaces_triangulates_grids_uneven :
    let b := ofFaces ⟨17⟩ ⟨1, 2, 3⟩ ⟨2, 3, 0⟩
    drawnFaces ⟨17⟩ = [.posX, .posZ] ∧ (b.vertexCount = 20 ∧ 20 < UInt32.size) ∧
      (b.indices.size = 54 ∧ 54 < UInt32.size) ∧ b.uvs.size = 40 ∧ b.groups.size = 2 ∧
      b.DrawsFace .posX 0 0 0 (1, 3) ∧ b.DrawsFace .posZ 1 8 18 (2, 3) := by
  have hdrawn : drawnFaces ⟨17⟩ = [.posX, .posZ] := by decide
  have hvertices : total ((drawnFaces ⟨17⟩).map fun face =>
      pointCount (face.segments ((⟨2, 3, 0⟩ : Vec3 Nat).map (max 1)))) = 20 := by decide
  have hindices : total ((drawnFaces ⟨17⟩).map fun face =>
      indexCount (face.segments ((⟨2, 3, 0⟩ : Vec3 Nat).map (max 1)))) = 54 := by decide
  have hcount : 20 < UInt32.size := by decide
  have hsize : 54 < UInt32.size := by decide
  obtain ⟨⟨hvertexCount, -, -, huvs⟩, ⟨hindexCount, hgroups⟩, hfaces⟩ :=
    ofFaces_triangulates_grids ⟨17⟩ ⟨1, 2, 3⟩ ⟨2, 3, 0⟩ (hvertices ▸ hcount) (hindices ▸ hsize)
  rw [hvertices] at hvertexCount
  rw [hindices] at hindexCount
  rw [hvertexCount] at huvs
  rw [hdrawn] at hgroups
  exact ⟨hdrawn, ⟨hvertexCount, hcount⟩, ⟨hindexCount, hsize⟩, huvs, hgroups,
    hfaces [] .posX [.posZ] hdrawn, hfaces [.posX] .posZ [] hdrawn⟩

end SegmentedBox

end LatticeScene.Shape
