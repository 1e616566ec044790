import LatticeScene.Proofs.Binary32.Division
import LatticeScene.Proofs.Shape.BoxRefusal
import LatticeScene.Proofs.Shape.FaceBlocks

/-!
# Boxes that are not subdivided

A subdivided box with one cell to a face and a box that is added to a batch are computed in two
different ways, and are the same.  The points of a face are the corners of its quad
(`points_one_one`), because an extent is divided by one.  Reading the vertices of a subdivided box
through its indices draws its faces one after the other (`InOrder.drawn_foldl_addFace`), and a
face of one cell is drawn as its quad is (`faceDrawing_eq_triangles`).
-/

namespace LatticeScene.Shape

/-- The points of a face that is not subdivided are the corners of its quad. -/
theorem FaceGrid.points_one_one (g : FaceGrid Float32) (origin : Vec3 Float32)
    (extents : FaceExtents Float32) :
    (g.points origin extents 1 1).map (fun point => point.2.2) =
      (g.quad origin extents).corners.toList := by
  have hwidth : extents.width / Scalar.ofNat 1 = extents.width := Binary32.div_one_eq _
  have hheight : extents.height / Scalar.ofNat 1 = extents.height := Binary32.div_one_eq _
  rw [FaceGrid.points, hwidth, hheight]
  rfl

namespace SegmentedBox

/-! ### What a box draws -/

/-- The vertices of a box in drawing order, and nothing for an index out of range. -/
def drawn (b : SegmentedBox) : List (Option (Vec3 Float32)) :=
  b.indices.toList.map fun i => b.vertices[i.toNat]?

/-- The points of a face in the order in which its triangles have them as corners. -/
def faceDrawing (parameters : BoxParameters) (face : Face) : List (Option (Vec3 Float32)) :=
  let segments := face.segments parameters.segments
  (faceTriangles segments.1 segments.2).flatMap fun t =>
    t.toList.map fun place => (facePoints parameters face)[place]?

section Drawing

variable {b : SegmentedBox}

/-- A box has as many vertices as it has triples of numbers. -/
theorem length_vertices (b : SegmentedBox) : b.vertices.length = b.vertexCount := by
  rw [vertices, length_triples, Array.length_toList, vertexCount]

/-- The vertices of a face that is added are its points, after those that were there. -/
theorem InOrder.vertices_addFace (h : b.InOrder) (face : Face) :
    (b.addFace face).vertices = b.vertices ++ facePoints b.parameters face := by
  have hwhole : 3 ∣ b.positions.toList.length := by
    rw [Array.length_toList]
    exact h.positions_whole
  rw [vertices, positions_addFace, triples_append _ _ hwhole, triples_flatMap, ← vertices]

/-- The indices that a face adds draw its own points. -/
theorem InOrder.map_faceCorners (h : b.InOrder) (face : Face)
    (hsize : (b.addFace face).vertexCount ≤ UInt32.size) :
    (b.faceCorners (face.segments b.parameters.segments)).map
      (fun i => (b.addFace face).vertices[i.toNat]?) = faceDrawing b.parameters face := by
  have hnew : ∀ place, (b.addFace face).vertices[b.vertexCount + place]? =
      (facePoints b.parameters face)[place]? := by
    intro place
    rw [h.vertices_addFace, ← length_vertices, List.getElem?_append_right (Nat.le_add_right _ _),
      Nat.add_sub_cancel_left]
  have hplaces : (b.faceCorners (face.segments b.parameters.segments)).map UInt32.toNat = _ :=
    b.map_toNat_faceCorners (by rwa [vertexCount_addFace] at hsize)
  have hmap := congrArg (List.map fun i => (b.addFace face).vertices[i]?) hplaces
  rw [List.map_map, List.map_flatMap, List.flatMap_map] at hmap
  refine hmap.trans (List.flatMap_congr fun t _ => ?_)
  have hthree : (Vec3.map (b.vertexCount + ·) t).toList = t.toList.map (b.vertexCount + ·) := rfl
  rw [hthree, List.map_map]
  exact List.map_congr_left fun place _ => hnew place

/-- A face is drawn after what is there, and changes nothing about that. -/
theorem InOrder.drawn_addFace (h : b.InOrder) (face : Face)
    (hsize : (b.addFace face).vertexCount ≤ UInt32.size) :
    (b.addFace face).drawn = b.drawn ++ faceDrawing b.parameters face := by
  have hold : ∀ i ∈ b.indices.toList,
      (b.addFace face).vertices[i.toNat]? = b.vertices[i.toNat]? := by
    intro i hi
    have hlt : i.toNat < b.vertices.length := by
      rw [length_vertices]
      exact h.index_lt i (Array.mem_toList_iff.mp hi)
    rw [h.vertices_addFace, List.getElem?_append_left hlt]
  rw [drawn, indices_addFace, Array.toList_append, List.map_append, List.map_congr_left hold,
    h.map_faceCorners face hsize, drawn]

/-- Faces are drawn one after the other. -/
theorem InOrder.drawn_foldl_addFace (h : b.InOrder) {faces : List Face}
    (hsegments : ∀ face : Face, 0 < (face.segments b.parameters.segments).1 ∧
      0 < (face.segments b.parameters.segments).2)
    (hsize : (faces.foldl SegmentedBox.addFace b).vertexCount ≤ UInt32.size) :
    (faces.foldl SegmentedBox.addFace b).drawn =
      b.drawn ++ faces.flatMap (faceDrawing b.parameters) := by
  induction faces generalizing b with
  | nil => exact (List.append_nil _).symm
  | cons face faces ih =>
    rw [List.foldl_cons] at hsize ⊢
    have hfirst : (b.addFace face).vertexCount ≤ UInt32.size :=
      Nat.le_trans (vertexCount_le_foldl_addFace _ faces) hsize
    have hface := h.addFace (hsegments face).1 (hsegments face).2 hfirst
    rw [ih hface hsegments hsize, h.drawn_addFace face hfirst, parameters_addFace,
      List.flatMap_cons, List.append_assoc]

/-- A new box draws its faces. -/
theorem drawn_ofFaces (faces : FaceSet) (dimensions : Vec3 Float32) (segments : Vec3 Nat)
    (hsize : (ofFaces faces dimensions segments).vertexCount ≤ UInt32.size) :
    (ofFaces faces dimensions segments).drawn =
      (drawnFaces faces).flatMap (faceDrawing (completed faces dimensions segments)) := by
  rw [ofFaces_eq] at hsize ⊢
  have hdrawn := (inOrder_start (completed faces dimensions segments)).drawn_foldl_addFace
    (segments_completed_pos faces dimensions segments) hsize
  exact hdrawn.trans (List.nil_append _)

end Drawing

/-! ### One cell to a face -/

section Undivided

variable {faces : FaceSet} {dimensions : Vec3 Float32} {segments : Vec3 Nat}

/-- Extents are kept unless they are zero or NaN, and one cell is the least there is. -/
theorem completed_eq_self (hfaces : faces.isEmpty = false)
    (hdimensions : ∀ d ∈ dimensions.toList, (d == 0) = false ∧ d.isNaN = false)
    (hsegments : ∀ s ∈ segments.toList, s ≤ 1) :
    completed faces dimensions segments = ⟨dimensions, ⟨1, 1, 1⟩, faces⟩ := by
  have hextent : ∀ d ∈ dimensions.toList, extentOrUnit d = d := by
    intro d hd
    obtain ⟨hzero, hnan⟩ := hdimensions d hd
    rw [extentOrUnit, hzero, hnan]
    rfl
  have hcells : ∀ s ∈ segments.toList, max 1 s = 1 := fun s hs => Nat.max_eq_left (hsegments s hs)
  obtain ⟨x, y, z⟩ := dimensions
  obtain ⟨i, j, k⟩ := segments
  simp only [Vec3.toList, List.forall_mem_cons] at hextent hcells
  obtain ⟨hx, hy, hz, -⟩ := hextent
  obtain ⟨hi, hj, hk, -⟩ := hcells
  rw [completed, hfaces, Vec3.map, Vec3.map, hx, hy, hz, hi, hj, hk]
  rfl

/-- A face of one cell is drawn as its quad is. -/
theorem faceDrawing_eq_triangles (faces : FaceSet) (dimensions : Vec3 Float32) (face : Face) :
    faceDrawing ⟨dimensions, ⟨1, 1, 1⟩, faces⟩ face =
      ((face.quad Vec3.zero dimensions).triangles).map some := by
  have hsegments : face.segments ⟨1, 1, 1⟩ = (1, 1) := by cases face <;> rfl
  have hpoints : facePoints ⟨dimensions, ⟨1, 1, 1⟩, faces⟩ face =
      (face.quad Vec3.zero dimensions).corners.toList := by
    rw [facePoints, hsegments]
    exact FaceGrid.points_one_one _ _ _
  rw [faceDrawing, hpoints, hsegments]
  rfl

/-- The faces drawn of a set that is not empty are those of the set. -/
theorem drawnFaces_eq_faces (h : faces.isEmpty = false) : drawnFaces faces = faces.faces := by
  rw [drawnFaces, h, FaceSet.faces_eq_filter_testBit]
  rfl

/-- A box that is not subdivided has four vertices to a face, which 32 bits can number. -/
theorem vertexCount_le_of_undivided (faces : FaceSet) (dimensions : Vec3 Float32)
    (segments : Vec3 Nat)
    (hcompleted : completed faces dimensions segments = ⟨dimensions, ⟨1, 1, 1⟩, faces⟩) :
    (ofFaces faces dimensions segments).vertexCount ≤ UInt32.size := by
  have hfour : ∀ face, (facePoints ⟨dimensions, ⟨1, 1, 1⟩, faces⟩ face).length = 4 := by
    intro face
    rw [length_facePoints]
    cases face <;> rfl
  have hsix : (drawnFaces faces).length ≤ 6 := List.length_filter_le _ Face.all
  have hmany : 24 ≤ UInt32.size := by decide
  rw [← length_vertices, ofFaces_eq, hcompleted, vertices_foldl_addFace,
    length_flatMap_of_length hfour]
  omega

/-- A box that is not subdivided draws the triangles of the quads of its faces. -/
theorem drawn_ofFaces_of_undivided (hfaces : faces.isEmpty = false)
    (hdimensions : ∀ d ∈ dimensions.toList, (d == 0) = false ∧ d.isNaN = false)
    (hsegments : ∀ s ∈ segments.toList, s ≤ 1) :
    (ofFaces faces dimensions segments).drawn =
      (faces.triangles Vec3.zero dimensions).map some := by
  have hcompleted := completed_eq_self hfaces hdimensions hsegments
  have hsize := vertexCount_le_of_undivided faces dimensions segments hcompleted
  rw [drawn_ofFaces faces dimensions segments hsize, hcompleted, drawnFaces_eq_faces hfaces,
    FaceSet.triangles, List.map_flatMap]
  exact List.flatMap_congr fun face _ => faceDrawing_eq_triangles faces dimensions face

end Undivided

/-- The two ways to a box agree.  The points of a face that is not subdivided are the corners of its
quad.  A box with at most one cell along every side therefore draws, if its extents are neither zero
nor NaN, the vertices that are appended to a batch when the same box is added to it, whatever has
been done to the batch before and as long as it has room. -/
theorem ofFaces_draws_as_addBox :
    (∀ (g : FaceGrid Float32) (origin : Vec3 Float32) (extents : FaceExtents Float32),
      (g.points origin extents 1 1).map (fun point => point.2.2) =
        (g.quad origin extents).corners.toList) ∧
    ∀ (faces : FaceSet) (dimensions : Vec3 Float32) (segments : Vec3 Nat),
      faces.isEmpty = false →
      (∀ d ∈ dimensions.toList, (d == 0) = false ∧ d.isNaN = false) →
      (∀ s ∈ segments.toList, s ≤ 1) →
      ∃ vertices : List (Vec3 Float32),
        (ofFaces faces dimensions segments).drawn = vertices.map some ∧
        ∀ (capacity : Nat) (new : BoxBatch), BoxBatch.ofCapacity capacity = .ok new →
          ∀ actions : List BatchAction,
            let b := new.actAll actions
            6 * faces.count ≤ b.remaining →
              ∃ next, b.addBox faces Vec3.zero dimensions = .done next ∧
                next.positions.toList = b.positions.toList ++ vertices.flatMap Vec3.toList := by
  refine ⟨FaceGrid.points_one_one, ?_⟩
  intro faces dimensions segments hfaces hdimensions hsegments
  refine ⟨faces.triangles Vec3.zero dimensions,
    drawn_ofFaces_of_undivided hfaces hdimensions hsegments, ?_⟩
  intro capacity new hnew actions b hroom
  have hstart : new.Holds capacity [] := BoxBatch.holds_of_ofCapacity hnew
  rcases hstart.actAll actions with ⟨-, held, hheld⟩ | ⟨-, -, hfull⟩
  · have hfits : faces.count * verticesPerFace ≤ capacity - held.length := by
      rw [← hheld.remaining_eq, verticesPerFace, Nat.mul_comm]
      exact hroom
    obtain ⟨next, hnext, hholds⟩ := hheld.addBox_of_fits hfits Vec3.zero dimensions
    refine ⟨next, hnext, ?_⟩
    rw [hholds.positions_eq, hheld.positions_eq, List.flatMap_append]
  · -- a batch that has been handed out has no room for even one face
    have hcount : 0 < faces.count := FaceSet.count_pos hfaces
    have hzero : b.remaining = 0 := hfull
    omega

/-- A box with two faces, one of its extents negative, and a batch with exactly their room left. -/
theorem ofFaces_draws_as_addBox_crowded :
    ∃ new, BoxBatch.ofCapacity 18 = .ok new ∧
      let b := new.actAll [.add (.addBox (.single .negZ) ⟨4, 0, 0⟩ ⟨2, 2, 2⟩)]
      b.remaining = 6 * (⟨5⟩ : FaceSet).count ∧
      ∃ (vertices : List (Vec3 Float32)) (next : BoxBatch),
        (ofFaces ⟨5⟩ ⟨2, -3, 0.5⟩ ⟨0, 1, 0⟩).drawn = vertices.map some ∧
        b.addBox ⟨5⟩ Vec3.zero ⟨2, -3, 0.5⟩ = .done next ∧
        next.positions.toList = b.positions.toList ++ vertices.flatMap Vec3.toList := by
  have hnew : BoxBatch.ofCapacity 18 = .ok ⟨.ofCapacity 54, .ofCapacity 18, .empty, false⟩ := rfl
  obtain ⟨-, h⟩ := ofFaces_draws_as_addBox
  have hfaces : (⟨5⟩ : FaceSet).isEmpty = false := by decide
  have hdimensions : ∀ d ∈ (⟨2, -3, 0.5⟩ : Vec3 Float32).toList,
      (d == 0) = false ∧ d.isNaN = false := by decide +kernel
  obtain ⟨vertices, hdrawn, hadded⟩ :=
    h ⟨5⟩ ⟨2, -3, 0.5⟩ ⟨0, 1, 0⟩ hfaces hdimensions (by decide)
  refine ⟨_, hnew, ?_⟩
  intro b
  have hremaining : b.remaining = 6 * (⟨5⟩ : FaceSet).count := by decide +kernel
  obtain ⟨next, hnext, hpositions⟩ := hadded 18 _ hnew _ (Nat.le_of_eq hremaining.symm)
  exact ⟨hremaining, vertices, next, hdrawn, hnext, hpositions⟩

end SegmentedBox

end LatticeScene.Shape
