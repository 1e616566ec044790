import LatticeScene.Proofs.Shape.BoxBatch

/-!
# Boxes that do not fit

A batch is added to until its buffers are handed out, and from then on nothing changes it
(`act_of_finished`).  Until then it holds some vertices (`Holds.actAll`), so that whether a box is
taken depends on the places that are left and on nothing else.

The test for room asks how many places are left for indices, while vertices go to two buffers.
That it is enough is the meaning of `Holds.appends_of_fits`: of a box that passes the test, no
vertex finds one of the buffers full.
-/

namespace LatticeScene.Shape

/-- What is done to a batch. -/
inductive BatchAction where
  /-- Make a call that adds a box. -/
  | add (call : BoxCall)
  /-- Hand the buffers out. -/
  | finish
deriving DecidableEq

namespace BoxBatch

/-- The batch after an action, which may have been refused. -/
def act (b : BoxBatch) : BatchAction → BoxBatch
  | .add call => (b.call call).state
  | .finish => b.finish.2

/-- The batch after a series of actions. -/
def actAll (b : BoxBatch) (actions : List BatchAction) : BoxBatch := actions.foldl act b

/-! ### Batches that have been handed out -/

section Finished

variable {b : BoxBatch}

/-- A batch that has been handed out refuses a box and stays as it is. -/
theorem addBox_of_finished (h : b.finished = true) (faces : FaceSet)
    (center dimensions : Vec3 Float32) :
    b.addBox faces center dimensions = .stopped .useAfterFinalize b := if_pos h

/-- Nothing changes a batch that has been handed out. -/
theorem act_of_finished (h : b.finished = true) (action : BatchAction) : b.act action = b := by
  cases action with
  | add call =>
    rw [act, call_eq_addBox, addBox_of_finished h]
    rfl
  | finish =>
    have hfinish : b.finish = (.error .useAfterFinalize, b) := if_pos h
    rw [act, hfinish]

/-- A batch that has been handed out stays as it is, whatever is asked of it. -/
theorem actAll_of_finished (h : b.finished = true) (actions : List BatchAction) :
    b.actAll actions = b := by
  induction actions with
  | nil => rfl
  | cons action actions ih =>
    rw [actAll, List.foldl_cons, act_of_finished h]
    exact ih

/-- Handing the buffers out leaves an open batch without room. -/
theorem act_finish (h : b.finished = false) :
    b.act .finish =
      { b with positions := .ofCapacity 0, indices := .ofCapacity 0, finished := true } := by
  rw [act, finish, h]
  rfl

end Finished

/-! ### Batches that are open -/

section Open

variable {b : BoxBatch} {capacity : Nat} {vertices : List (Vec3 Float32)}

/-- A call leaves a batch open, with some vertices. -/
theorem Holds.exists_call (h : b.Holds capacity vertices) (call : BoxCall) :
    ∃ next, (b.act (.add call)).Holds capacity next := by
  by_cases haccepted : (b.call call).error? = none
  · exact ⟨_, h.call_of_accepted haccepted⟩
  · refine ⟨vertices, ?_⟩
    rw [act, h.call_of_refused haccepted]
    exact h

/-- A batch is open, with some vertices, for as long as its buffers are not handed out. -/
theorem Holds.actAll (h : b.Holds capacity vertices) (actions : List BatchAction) :
    (BatchAction.finish ∉ actions ∧ ∃ held, (b.actAll actions).Holds capacity held) ∨
      (BatchAction.finish ∈ actions ∧ (b.actAll actions).finished = true ∧
        (b.actAll actions).remaining = 0) := by
  induction actions generalizing b vertices with
  | nil => exact Or.inl ⟨List.not_mem_nil, vertices, h⟩
  | cons action actions ih =>
    rw [BoxBatch.actAll, List.foldl_cons]
    cases action with
    | add call =>
      obtain ⟨next, hnext⟩ := h.exists_call call
      have hmem : BatchAction.finish ∈ BatchAction.add call :: actions ↔
          BatchAction.finish ∈ actions := by
        rw [List.mem_cons]
        exact or_iff_right fun heq => by cases heq
      rw [hmem]
      exact ih hnext
    | finish =>
      have hfinished : (b.act .finish).finished = true := by rw [act_finish h.unfinished]
      have hrest := actAll_of_finished hfinished actions
      rw [BoxBatch.actAll] at hrest
      rw [hrest]
      refine Or.inr ⟨List.mem_cons_self, hfinished, ?_⟩
      rw [act_finish h.unfinished]
      rfl

/-- Of a box that has passed the test for room, every vertex finds both buffers with room: the
three components of the vertex and its index are appended. -/
theorem Holds.appends_of_fits (h : b.Holds capacity vertices) {faces : FaceSet}
    {center dimensions : Vec3 Float32}
    (hfits : faces.count * verticesPerFace ≤ capacity - vertices.length)
    {before after : List (Vec3 Float32)} {vertex : Vec3 Float32}
    (hsplit : faces.triangles center dimensions = before ++ vertex :: after) :
    ∃ reached positions indices,
      Attempt.each BoxBatch.addVertex b before = .done reached ∧
        reached.positions.append vertex.toList = .done positions ∧
        reached.indices.push reached.indices.size.toUInt32 = .done indices := by
  have hlength := h.length_triangles_le hfits center dimensions
  rw [hsplit, List.length_append, List.length_cons] at hlength
  obtain ⟨reached, hreached, hholds⟩ := h.addVertices before (by omega)
  have hroom : (vertices ++ before).length < capacity := by
    rw [List.length_append]
    omega
  obtain ⟨hpositions, hindices⟩ := hholds.room hroom vertex
  exact ⟨reached, _, _, hreached, BoundedBuffer.append_of_le hpositions,
    BoundedBuffer.append_of_le hindices⟩

end Open

/-- A batch can be made for up to 4294967295 vertices and for no more. -/
theorem ofCapacity_cases (capacity : Nat) :
    (capacity ≤ 4294967295 ∧ ∃ new, ofCapacity capacity = .ok new ∧ new.Holds capacity []) ∨
      (4294967295 < capacity ∧ ofCapacity capacity = .error (.invalidCapacity capacity)) := by
  have hmax : maxBatchVertices = 4294967295 := rfl
  by_cases hle : capacity ≤ maxBatchVertices
  · exact Or.inl ⟨hmax ▸ hle, exists_ofCapacity hle⟩
  · have hlt : maxBatchVertices < capacity := Nat.lt_of_not_le hle
    exact Or.inr ⟨hmax ▸ hlt, if_neg hle⟩

/-- What becomes of a batch when the vertices of a box are added to it. -/
structure TakesWhole (b next : BoxBatch) (vertices : List (Vec3 Float32)) : Prop where
  /-- All of them are appended. -/
  positions_eq : next.positions.toList = b.positions.toList ++ vertices.flatMap Vec3.toList
  vertexCount_eq : next.vertexCount = b.vertexCount + vertices.length
  /-- When the vertices in front of one of them have been appended, there is room for it in both
  buffers. -/
  appends : ∀ before vertex after, vertices = before ++ vertex :: after →
    ∃ reached positions indices,
      Attempt.each BoxBatch.addVertex b before = .done reached ∧
        reached.positions.append vertex.toList = .done positions ∧
        reached.indices.push reached.indices.size.toUInt32 = .done indices

/-- When the vertices of a box fit, all of them are appended, one vertex after the other. -/
theorem Holds.takesWhole {b : BoxBatch} {capacity : Nat} {vertices : List (Vec3 Float32)}
    (h : b.Holds capacity vertices) {faces : FaceSet}
    (hfits : faces.count * verticesPerFace ≤ capacity - vertices.length)
    (center dimensions : Vec3 Float32) :
    b.TakesWhole (b.addBox faces center dimensions).state (faces.triangles center dimensions) := by
  obtain ⟨next, hnext, hholds⟩ := h.addBox_of_fits hfits center dimensions
  rw [hnext, Attempt.state_done]
  constructor
  · rw [hholds.positions_eq, h.positions_eq, List.flatMap_append]
  · rw [vertexCount, hholds.size_indices, List.length_append, vertexCount, h.size_indices]
  · intro before vertex after hsplit
    exact h.appends_of_fits hfits hsplit

/-- A batch can be made for at most 4294967295 vertices.  Whatever has been done to it, a box that
is added is refused for one of two reasons: the buffers have been handed out, or the vertices of the
faces are more than those for which there is room.  A refused box leaves nothing behind, and a box
that is taken is taken whole.  Faces are counted by their bits, so that a set without stray bits has
as many as it selects. -/
theorem addBox_refuses_only_misfits (capacity : Nat) :
    (∀ refusal, ofCapacity capacity = .error refusal ↔
      4294967295 < capacity ∧ refusal = .invalidCapacity capacity) ∧
    ∀ new, ofCapacity capacity = .ok new →
      ∀ (actions : List BatchAction) (faces : FaceSet) (center dimensions : Vec3 Float32),
        let b := new.actAll actions
        let outcome := b.addBox faces center dimensions
        let requested := 6 * faces.count
        (faces.bits < 64 → faces.count = faces.faces.length) ∧
        (BatchAction.finish ∈ actions → outcome = .stopped .useAfterFinalize b) ∧
        (BatchAction.finish ∉ actions →
          (faces.isEmpty = true → outcome = .done b) ∧
          (outcome.error? = none ↔ requested ≤ b.remaining) ∧
          (b.remaining < requested →
            outcome = .stopped (.capacityExceeded requested b.remaining b.capacity) b) ∧
          (requested ≤ b.remaining →
            b.TakesWhole outcome.state (faces.triangles center dimensions))) ∧
        (outcome.error? ≠ none → outcome.state = b) := by
  constructor
  · intro refusal
    rcases ofCapacity_cases capacity with ⟨hle, new, hnew, -⟩ | ⟨hlt, herror⟩
    · rw [hnew]
      exact iff_of_false (fun h => by cases h) fun h => absurd h.1 (Nat.not_lt.mpr hle)
    · rw [herror, Except.error.injEq]
      exact ⟨fun h => ⟨hlt, h.symm⟩, fun h => h.2.symm⟩
  intro new hnew actions faces center dimensions b outcome requested
  have hstart : new.Holds capacity [] := holds_of_ofCapacity hnew
  have hrequested : requested = faces.count * verticesPerFace := Nat.mul_comm 6 faces.count
  -- either nothing was handed out and the batch holds vertices, or everything is refused
  rcases hstart.actAll actions with ⟨hopen, held, hheld⟩ | ⟨hmem, hfinished, -⟩
  · have hremaining : b.remaining = capacity - held.length := hheld.remaining_eq
    have haccepted : outcome.error? = none ↔ requested ≤ b.remaining := by
      rw [hrequested, hremaining]
      exact hheld.error?_addBox_eq_none_iff faces center dimensions
    refine ⟨FaceSet.count_eq_length_faces, fun hmem => absurd hmem hopen, fun _ => ?_,
      hheld.state_addBox_of_error⟩
    refine ⟨fun hempty => ?_, haccepted, fun hmisfit => ?_, fun hfits => ?_⟩
    · exact (if_neg (ne_true_of_eq_false hheld.unfinished)).trans (if_pos hempty)
    · have hnofit : ¬faces.count * verticesPerFace ≤ capacity - held.length := by
        rw [← hrequested, ← hremaining]
        exact Nat.not_le_of_lt hmisfit
      have houtcome := hheld.addBox_eq faces center dimensions
      rw [if_neg hnofit, ← hrequested, ← hremaining] at houtcome
      rw [hheld.capacity_eq]
      exact houtcome
    · rw [hrequested, hremaining] at hfits
      exact hheld.takesWhole hfits center dimensions
  · have houtcome : outcome = .stopped .useAfterFinalize b :=
      addBox_of_finished hfinished faces center dimensions
    refine ⟨FaceSet.count_eq_length_faces, fun _ => houtcome, fun hopen => absurd hmem hopen,
      fun _ => ?_⟩
    rw [houtcome]
    rfl

/-- Where a box has left six of forty-two places, one more box is too much, and one more face is
not. -/
theorem addBox_refuses_only_misfits_crowded :
    ∃ new, ofCapacity 42 = .ok new ∧
      let b := new.actAll [.add (.addBox .all ⟨0, 0, 0⟩ ⟨2, 2, 2⟩)]
      b.remaining = 6 ∧
      b.addBox .all ⟨4, 0, 0⟩ ⟨2, 2, 2⟩ = .stopped (.capacityExceeded 36 6 42) b ∧
      (b.addBox (.single .negY) ⟨4, 0, 0⟩ ⟨2, 2, 2⟩).error? = none ∧
      b.TakesWhole (b.addBox (.single .negY) ⟨4, 0, 0⟩ ⟨2, 2, 2⟩).state
        ((FaceSet.single .negY).triangles ⟨4, 0, 0⟩ ⟨2, 2, 2⟩) := by
  have hnew : ofCapacity 42 = .ok ⟨.ofCapacity 126, .ofCapacity 42, .empty, false⟩ := rfl
  obtain ⟨-, h⟩ := addBox_refuses_only_misfits 42
  have hbox := h _ hnew [.add (.addBox .all ⟨0, 0, 0⟩ ⟨2, 2, 2⟩)]
  refine ⟨_, hnew, ?_⟩
  intro b
  have hopen : BatchAction.finish ∉ [BatchAction.add (.addBox .all ⟨0, 0, 0⟩ ⟨2, 2, 2⟩)] := by
    decide
  have hremaining : b.remaining = 6 := by decide +kernel
  have hcapacity : b.capacity = 42 := by decide +kernel
  have hsix : 6 * (FaceSet.single .negY).count ≤ b.remaining := by
    rw [hremaining]
    decide
  obtain ⟨-, -, hall, -⟩ := hbox .all ⟨4, 0, 0⟩ ⟨2, 2, 2⟩
  obtain ⟨-, -, hone, -⟩ := hbox (.single .negY) ⟨4, 0, 0⟩ ⟨2, 2, 2⟩
  obtain ⟨-, -, hmisfit, -⟩ := hall hopen
  obtain ⟨-, haccepted, -, htaken⟩ := hone hopen
  have hrefused := hmisfit (by
    show b.remaining < 36
    rw [hremaining]
    decide)
  have hrefusal : Refusal.capacityExceeded (6 * FaceSet.all.count) b.remaining b.capacity =
      .capacityExceeded 36 6 42 := by
    rw [hremaining, hcapacity]
    rfl
  refine ⟨hremaining, ?_, haccepted.mpr hsix, htaken hsix⟩
  rw [← hrefusal]
  exact hrefused

end BoxBatch

end LatticeScene.Shape
