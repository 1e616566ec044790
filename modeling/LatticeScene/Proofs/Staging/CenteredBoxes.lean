import LatticeScene.Proofs.Shape.BoxBatch
import LatticeScene.Attempt
import LatticeScene.Staging.Boxes

/-!
# Whole boxes in a batch

A new batch holds nothing, and has the capacity that is configured (`exists_newBatch`).  A box that
is added with all its faces takes thirty-six places.  So a batch that holds whole boxes takes the
next one exactly if there are thirty-six places left, and when it refuses one, what is left is the
remainder of its capacity by thirty-six, whichever box it was (`addWhole_cases`).  The same is said
of a list of boxes, which is taken to its end or refused (`addBoxes_cases`).
-/

namespace LatticeScene.Staging

open Shape

/-- The corners of the triangles of all faces of a box. -/
def CenteredBox.vertices (box : CenteredBox) : List (Vec3 Float32) :=
  Face.all.flatMap fun face => (face.quad box.center box.dimensions).triangles

/-- The vertices of boxes, one box after the other. -/
def boxVertices (boxes : List CenteredBox) : List (Vec3 Float32) :=
  boxes.flatMap CenteredBox.vertices

/-- The failure of a batch of whole boxes that has no room for one more. -/
def noRoom (capacity : Nat) : Failure :=
  .shape (.capacityExceeded 36 (capacity % 36) capacity)

/-- Drawing all faces of a box gives its vertices. -/
theorem triangles_all (box : CenteredBox) :
    FaceSet.all.triangles box.center box.dimensions = box.vertices := by
  rw [FaceSet.triangles, FaceSet.faces_all, CenteredBox.vertices]

@[simp] theorem boxVertices_nil : boxVertices [] = [] := rfl

/-- The vertices of more boxes come after those of the boxes in front. -/
theorem boxVertices_append (boxes others : List CenteredBox) :
    boxVertices (boxes ++ others) = boxVertices boxes ++ boxVertices others := List.flatMap_append

/-- The vertices of one box alone are its own. -/
theorem boxVertices_singleton (box : CenteredBox) : boxVertices [box] = box.vertices :=
  List.append_nil _

/-- There are 36 vertices to a box. -/
theorem length_boxVertices (boxes : List CenteredBox) :
    (boxVertices boxes).length = 36 * boxes.length := by
  induction boxes with
  | nil => rfl
  | cons box boxes ih =>
    have hbox : box.vertices.length = 36 := by
      rw [← triangles_all, FaceSet.length_triangles, FaceSet.faces_all]
      rfl
    have hcons : boxVertices (box :: boxes) = box.vertices ++ boxVertices boxes := rfl
    rw [hcons, List.length_append, hbox, ih, List.length_cons]
    omega

section New

variable {config : Config}

/-- A batch can be made unless its capacity is too large. -/
theorem exists_newBatch (h : config.accumulatorCapacity ≤ maxBatchVertices) :
    ∃ batch, newBatch config = .ok batch ∧ batch.Holds config.accumulatorCapacity [] := by
  obtain ⟨batch, hnew, hempty⟩ := BoxBatch.exists_ofCapacity h
  refine ⟨batch, ?_, hempty⟩
  rw [newBatch, hnew]
  rfl

/-- No batch is made with a capacity beyond what 32 bits can number. -/
theorem newBatch_of_lt (h : maxBatchVertices < config.accumulatorCapacity) :
    newBatch config = .error (.shape (.invalidCapacity config.accumulatorCapacity)) := by
  rw [newBatch, BoxBatch.ofCapacity, if_neg (Nat.not_le.mpr h)]
  rfl

end New

section Adding

variable {batch : BoxBatch} {capacity : Nat} {held : List CenteredBox}

/-- A batch of whole boxes takes one more box, or has no room for it. -/
theorem addWhole_cases (h : batch.Holds capacity (boxVertices held)) (box : CenteredBox) :
    (36 * (held.length + 1) ≤ capacity ∧
      ∃ next, addFaces batch .all box.center box.dimensions = .ok next ∧
        next.Holds capacity (boxVertices (held ++ [box]))) ∨
      (capacity < 36 * (held.length + 1) ∧
        addFaces batch .all box.center box.dimensions = .error (noRoom capacity)) := by
  have hcount : FaceSet.all.count * verticesPerFace = 36 := by decide
  have hlength := length_boxVertices held
  have hle := h.length_le
  by_cases hfits : 36 * (held.length + 1) ≤ capacity
  · have hroom : FaceSet.all.count * verticesPerFace ≤ capacity - (boxVertices held).length := by
      omega
    obtain ⟨next, hnext, hholds⟩ := h.addBox_of_fits hroom box.center box.dimensions
    rw [triangles_all, ← boxVertices_singleton, ← boxVertices_append] at hholds
    refine Or.inl ⟨hfits, next, ?_, hholds⟩
    rw [addFaces, hnext]
    rfl
  · have hroom : ¬FaceSet.all.count * verticesPerFace ≤ capacity - (boxVertices held).length := by
      omega
    -- less than one box of the capacity is left
    have hleft : capacity - (boxVertices held).length = capacity % 36 := by omega
    refine Or.inr ⟨Nat.lt_of_not_le hfits, ?_⟩
    rw [addFaces, h.addBox_eq, if_neg hroom, hleft, hcount]
    rfl

/-- A batch of whole boxes takes all of several boxes, or has no room for one of them. -/
theorem addBoxes_cases (h : batch.Holds capacity (boxVertices held)) (boxes : List CenteredBox) :
    (36 * (held.length + boxes.length) ≤ capacity ∧
      ∃ next, addBoxes batch boxes = .ok next ∧
        next.Holds capacity (boxVertices (held ++ boxes))) ∨
      (capacity < 36 * (held.length + boxes.length) ∧
        addBoxes batch boxes = .error (noRoom capacity)) := by
  induction boxes generalizing batch held with
  | nil =>
    have hle := h.length_le
    rw [length_boxVertices] at hle
    exact Or.inl ⟨hle, batch, rfl, by rwa [List.append_nil]⟩
  | cons box boxes ih =>
    have hlength : (held ++ [box]).length = held.length + 1 := List.length_append
    rw [addBoxes, List.length_cons]
    rcases addWhole_cases h box with ⟨hfits, next, hnext, hholds⟩ | ⟨hover, herror⟩
    · rw [hnext, List.append_cons]
      have hrest := ih hholds
      rw [hlength, Nat.add_assoc, Nat.add_comm 1] at hrest
      exact hrest
    · rw [herror]
      exact Or.inr ⟨by omega, rfl⟩

end Adding

end LatticeScene.Staging
