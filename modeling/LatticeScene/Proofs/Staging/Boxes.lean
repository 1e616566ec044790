import LatticeScene.Proofs.Staging.Plumbing

/-!
# Schedules of whole boxes are staged whole or not at all

Two things can keep a placement out of a batch: its box has no type, or there is no room for its
box (`offends`).  Placements are added one after the other, so that the first offender, in the order
of the schedule, decides how a schedule ends (`PlacementsEnding`).  A first offender whose box has a
type always has the same number: as many boxes come before it as fit into the batch.

Since the boxes are collected before anything is staged, a frame either gets all boxes of a schedule
as one payload, or stays as it is.
-/

namespace LatticeScene.Staging

open Shape Schedule

/-! ### Placements -/

/-- The box that a placement stands for, given by its centre. -/
def IsPlaced (schedule : BoxSchedule) (placement : Placement) (box : CenteredBox) : Prop :=
  ∃ corner, schedule.box placement = .ok corner ∧ box = ⟨corner.center, corner.dimensions⟩

/-- The type of the box of a placement has dimensions. -/
def HasType (schedule : BoxSchedule) (placement : Placement) : Prop :=
  (schedule.types.get? placement.boxType).isSome = true

instance (schedule : BoxSchedule) (placement : Placement) :
    Decidable (HasType schedule placement) :=
  inferInstanceAs (Decidable (_ = true))

/-- A placement, given with its number, cannot be added after those that come before it: its box has
no type, or there is less than a box left of the capacity. -/
def offends (schedule : BoxSchedule) (capacity : Nat) (numbered : Placement × Nat) : Bool :=
  decide (¬HasType schedule numbered.1 ∨ capacity < 36 * (numbered.2 + 1))

section Placements

variable {schedule : BoxSchedule} {placement : Placement}

/-- A placement offends when its box has no type or no room. -/
theorem offends_iff {capacity i : Nat} :
    offends schedule capacity (placement, i) = true ↔
      ¬HasType schedule placement ∨ capacity < 36 * (i + 1) := decide_eq_true_iff

/-- A box has the dimensions of its type, and its centre is half of them away from its corner. -/
theorem isPlaced_iff {box : CenteredBox} :
    IsPlaced schedule placement box ↔
      schedule.types.get? placement.boxType = some box.dimensions ∧
        box.center = placement.corner + box.dimensions.scale 0.5 := by
  unfold IsPlaced BoxSchedule.box
  cases schedule.types.get? placement.boxType with
  | none =>
    refine iff_of_false ?_ fun h => Option.some_ne_none _ h.1.symm
    rintro ⟨corner, hcorner, -⟩
    cases hcorner
  | some dimensions =>
    constructor
    · rintro ⟨corner, hcorner, rfl⟩
      obtain rfl : CornerBox.mk placement.corner dimensions = corner := Except.ok.inj hcorner
      exact ⟨rfl, rfl⟩
    · rintro ⟨hdimensions, hcenter⟩
      obtain rfl : dimensions = box.dimensions := Option.some.inj hdimensions
      exact ⟨_, rfl, congrArg (CenteredBox.mk · _) hcenter⟩

/-- A box whose type has dimensions is found. -/
theorem box_of_hasType (h : HasType schedule placement) :
    ∃ corner, schedule.box placement = .ok corner := by
  obtain ⟨dimensions, hdimensions⟩ := Option.isSome_iff_exists.mp h
  rw [BoxSchedule.box, hdimensions]
  exact ⟨_, rfl⟩

/-- A box whose type has no dimensions is reported with that type. -/
theorem box_of_not_hasType (h : ¬HasType schedule placement) :
    schedule.box placement = .error (.unknownBoxType placement.boxType) := by
  rw [HasType, Option.not_isSome_iff_eq_none] at h
  rw [BoxSchedule.box, h]

/-- No placement offends if all have types and their boxes fit. -/
theorem find?_offends_eq_none_iff {capacity first : Nat} (hfirst : 36 * first ≤ capacity)
    {placements : List Placement} :
    (placements.zipIdx first).find? (offends schedule capacity) = none ↔
      (∀ p ∈ placements, HasType schedule p) ∧ 36 * (first + placements.length) ≤ capacity := by
  induction placements generalizing first with
  | nil => exact iff_of_true rfl ⟨fun p hp => absurd hp List.not_mem_nil, hfirst⟩
  | cons placement placements ih =>
    rw [List.zipIdx_cons, List.forall_mem_cons, List.length_cons]
    by_cases hoffends : offends schedule capacity (placement, first) = true
    · rw [List.find?_cons_of_pos hoffends]
      refine iff_of_false (Option.some_ne_none _) ?_
      rintro ⟨⟨htype, -⟩, hroom⟩
      rcases offends_iff.mp hoffends with hnone | hover
      · exact hnone htype
      · omega
    · rw [List.find?_cons_of_neg hoffends]
      rw [offends_iff, not_or, not_not, Nat.not_lt] at hoffends
      rw [ih hoffends.2, and_iff_right hoffends.1, Nat.add_assoc, Nat.add_comm 1]

end Placements

/-! ### Adding placements -/

/-- How it can end that placements are added to a batch in which some boxes are held. -/
inductive PlacementsEnding (schedule : BoxSchedule) (capacity : Nat) (held : List CenteredBox)
    (placements : List Placement) : Except Failure BoxBatch → Prop where
  /-- No placement offends, and the batch holds all their boxes. -/
  | taken (boxes : List CenteredBox) (next : BoxBatch)
      (hnone : (placements.zipIdx held.length).find? (offends schedule capacity) = none)
      (hboxes : List.Forall₂ (IsPlaced schedule) placements boxes)
      (hholds : next.Holds capacity (boxVertices (held ++ boxes))) :
      PlacementsEnding schedule capacity held placements (.ok next)
  /-- The box of the first offender has no type. -/
  | untyped (p : Placement) (i : Nat)
      (hfirst : (placements.zipIdx held.length).find? (offends schedule capacity) = some (p, i))
      (htype : ¬HasType schedule p) :
      PlacementsEnding schedule capacity held placements
        (.error (.schedule (.unknownBoxType p.boxType)))
  /-- The first offender has no room, because all boxes that fit come before it. -/
  | crowded (p : Placement)
      (hfirst : (placements.zipIdx held.length).find? (offends schedule capacity) =
        some (p, capacity / 36))
      (htype : HasType schedule p) :
      PlacementsEnding schedule capacity held placements (.error (noRoom capacity))

section Adding

variable {schedule : BoxSchedule} {batch : BoxBatch} {capacity : Nat} {held : List CenteredBox}

/-- A placement that is taken is passed over by the search for the first offender. -/
theorem PlacementsEnding.cons {placement : Placement} {placements : List Placement}
    {box : CenteredBox} {result : Except Failure BoxBatch}
    (hplaced : IsPlaced schedule placement box)
    (hpasses : ¬offends schedule capacity (placement, held.length) = true)
    (h : PlacementsEnding schedule capacity (held ++ [box]) placements result) :
    PlacementsEnding schedule capacity held (placement :: placements) result := by
  have hsearch : ((placement :: placements).zipIdx held.length).find? (offends schedule capacity) =
      (placements.zipIdx (held ++ [box]).length).find? (offends schedule capacity) := by
    rw [List.zipIdx_cons, List.find?_cons_of_neg hpasses, List.length_append, List.length_singleton]
  cases h with
  | taken boxes next hnone hboxes hholds =>
    refine .taken (box :: boxes) next (hsearch.trans hnone) (.cons hplaced hboxes) ?_
    rwa [List.append_cons]
  | untyped p i hfirst htype => exact .untyped p i (hsearch.trans hfirst) htype
  | crowded p hfirst htype => exact .crowded p (hsearch.trans hfirst) htype

/-- A placement whose box is found has all faces of the box added, and the other placements follow.
-/
theorem addPlacements_cons_of_box {placement : Placement} {corner : CornerBox Float32}
    (h : schedule.box placement = .ok corner) (placements : List Placement) :
    addPlacements schedule batch (placement :: placements) =
      addFaces batch .all corner.center corner.dimensions >>= fun next =>
        addPlacements schedule next placements := by
  rw [addPlacements, h]
  rfl

/-- The first offender decides. -/
theorem addPlacements_ends (h : batch.Holds capacity (boxVertices held))
    (placements : List Placement) :
    PlacementsEnding schedule capacity held placements
      (addPlacements schedule batch placements) := by
  induction placements generalizing batch held with
  | nil => exact .taken [] batch rfl .nil (by rwa [List.append_nil])
  | cons placement placements ih =>
    by_cases htype : HasType schedule placement
    case neg =>
      rw [addPlacements, box_of_not_hasType htype]
      refine .untyped placement held.length ?_ htype
      exact List.find?_cons_of_pos (offends_iff.mpr (Or.inl htype))
    obtain ⟨corner, hcorner⟩ := box_of_hasType htype
    rw [addPlacements_cons_of_box hcorner]
    rcases addWhole_cases h ⟨corner.center, corner.dimensions⟩ with
      ⟨hroom, next, hnext, hholds⟩ | ⟨hover, herror⟩
    · have hpasses : ¬offends schedule capacity (placement, held.length) = true := by
        rw [offends_iff, not_or, not_not, Nat.not_lt]
        exact ⟨htype, hroom⟩
      rw [hnext]
      exact (ih hholds).cons ⟨corner, hcorner, rfl⟩ hpasses
    -- only whole boxes are held, so that their number is fixed by having no room for another
    · have hle := h.length_le
      rw [length_boxVertices] at hle
      have hnumber : held.length = capacity / 36 := by omega
      rw [herror]
      refine .crowded placement ?_ htype
      rw [← hnumber]
      exact List.find?_cons_of_pos (offends_iff.mpr (Or.inr hover))

end Adding

/-! ### Staging a schedule -/

section Staging

variable {config : Config} {schedule : BoxSchedule} {s t : StagedFrame}

/-- With no placements nothing is staged. -/
theorem stageBoxes_of_nil (h : schedule.placements = []) : stageBoxes config schedule s = .done s :=
  if_pos (List.isEmpty_iff.mpr h)

/-- With placements, what is staged is their batch, or else nothing and the failure is reported. -/
theorem stageBoxes_of_ne_nil (h : schedule.placements ≠ []) :
    stageBoxes config schedule s =
      .ofExcept s ((boxBatch config schedule).map
        (s.stageBatch "boxes" .boxes (.facets "green"))) :=
  if_neg (mt List.isEmpty_iff.mp h)

/-- No batch is made of a capacity that is too large. -/
theorem boxBatch_of_lt (h : maxBatchVertices < config.accumulatorCapacity) :
    boxBatch config schedule =
      .error (.shape (.invalidCapacity config.accumulatorCapacity)) := by
  rw [boxBatch, newBatch_of_lt h]
  rfl

/-- Otherwise the batch of a schedule ends as its placements do. -/
theorem boxBatch_ends (h : config.accumulatorCapacity ≤ maxBatchVertices) :
    PlacementsEnding schedule config.accumulatorCapacity [] schedule.placements
      (boxBatch config schedule) := by
  obtain ⟨new, hnew, hempty⟩ := exists_newBatch h
  rw [boxBatch, hnew]
  exact addPlacements_ends hempty schedule.placements

/-- All boxes of a schedule are staged as one batch, if there are any. -/
theorem stageBoxes_cases (h : stageBoxes config schedule s = .done t) :
    (schedule.placements = [] ∧ t = s) ∨
      ∃ batch boxes, List.Forall₂ (IsPlaced schedule) schedule.placements boxes ∧
        batch.Holds config.accumulatorCapacity (boxVertices boxes) ∧
        t = s.stageBatch "boxes" .boxes (.facets "green") batch := by
  by_cases hnil : schedule.placements = []
  · rw [stageBoxes_of_nil hnil] at h
    exact Or.inl ⟨hnil, (Attempt.done_inj.mp h).symm⟩
  · rw [stageBoxes_of_ne_nil hnil] at h
    obtain ⟨batch, hbatch, rfl⟩ := map_eq_ok_iff.mp (Attempt.ofExcept_eq_done_iff.mp h)
    have hcapacity : config.accumulatorCapacity ≤ maxBatchVertices := by
      refine Nat.not_lt.mp fun hlt => ?_
      rw [boxBatch_of_lt hlt] at hbatch
      cases hbatch
    have hends : PlacementsEnding schedule _ _ _ (boxBatch config schedule) :=
      boxBatch_ends hcapacity
    rw [hbatch] at hends
    cases hends with
    | taken boxes next hnone hboxes hholds => exact Or.inr ⟨batch, boxes, hboxes, hholds, rfl⟩

/-- Boxes are queued as one payload, if there are any. -/
theorem exists_stageBatch_boxes {batch : BoxBatch} {capacity : Nat} {boxes : List CenteredBox}
    (hholds : batch.Holds capacity (boxVertices boxes)) (hboxes : boxes ≠ []) :
    ∃ payload, BoxGroup.DrawnBy ⟨"boxes", .boxes, .facets "green", boxes⟩ payload ∧
      s.stageBatch "boxes" .boxes (.facets "green") batch =
        ⟨s.payloads ++ [payload], s.bounds.union (.ofPoints (boxVertices boxes))⟩ := by
  refine ⟨batchPayload "boxes" .boxes (.facets "green") batch,
    drawnBy_batchPayload ⟨"boxes", .boxes, .facets "green", boxes⟩ hholds, ?_⟩
  have hne : ¬batch.toMesh.isEmpty = true := by
    rw [hholds.isEmpty_toMesh_iff, ← List.length_eq_zero_iff, length_boxVertices,
      Nat.mul_eq_zero, List.length_eq_zero_iff]
    exact not_or_intro (by decide) hboxes
  rw [StagedFrame.stageBatch, StagedFrame.stage_eq, queued, ← hholds.bounds_eq]
  rw [if_neg (show ¬(batchPayload _ _ _ batch).mesh.isEmpty = true from hne)]
  rfl

/-- Unless the capacity is too large, a schedule with boxes is staged or the first offender ends
it. -/
theorem stageBoxes_ends (hne : schedule.placements ≠ [])
    (hcapacity : config.accumulatorCapacity ≤ maxBatchVertices) :
    (schedule.placements.zipIdx.find? (offends schedule config.accumulatorCapacity) = none ∧
      (stageBoxes config schedule s).error? = none) ∨
    ∃ p i,
      schedule.placements.zipIdx.find? (offends schedule config.accumulatorCapacity) =
        some (p, i) ∧
      (¬HasType schedule p ∧
          stageBoxes config schedule s = .stopped (.schedule (.unknownBoxType p.boxType)) s ∨
        HasType schedule p ∧ i = config.accumulatorCapacity / 36 ∧
          stageBoxes config schedule s = .stopped (noRoom config.accumulatorCapacity) s) := by
  have hends : PlacementsEnding schedule _ _ _ (boxBatch config schedule) :=
    boxBatch_ends hcapacity
  rw [stageBoxes_of_ne_nil hne]
  generalize boxBatch config schedule = result at hends
  cases hends with
  | taken boxes next hnone hboxes hholds => exact Or.inl ⟨hnone, rfl⟩
  | untyped p i hfirst htype => exact Or.inr ⟨p, i, hfirst, Or.inl ⟨htype, rfl⟩⟩
  | crowded p hfirst htype => exact Or.inr ⟨p, _, hfirst, Or.inr ⟨htype, rfl, rfl⟩⟩

/-- Boxes are staged exactly when each of them has a type and all of them fit into the batch. -/
theorem error?_stageBoxes_eq_none_iff (hne : schedule.placements ≠ [])
    (hcapacity : config.accumulatorCapacity ≤ maxBatchVertices) :
    (stageBoxes config schedule s).error? = none ↔
      (∀ p ∈ schedule.placements, HasType schedule p) ∧
        36 * schedule.placements.length ≤ config.accumulatorCapacity := by
  have hstart : 36 * 0 ≤ config.accumulatorCapacity := Nat.zero_le _
  have hsearch : schedule.placements.zipIdx.find? (offends schedule config.accumulatorCapacity) =
      none ↔ _ := find?_offends_eq_none_iff hstart
  rw [Nat.zero_add] at hsearch
  rw [← hsearch]
  rcases stageBoxes_ends (s := s) hne hcapacity with
    ⟨hnone, herror⟩ | ⟨p, i, hfirst, ⟨-, hstopped⟩ | ⟨-, -, hstopped⟩⟩
  · exact iff_of_true herror hnone
  · rw [hstopped, hfirst]
    exact iff_of_false (Option.some_ne_none _) (Option.some_ne_none _)
  · rw [hstopped, hfirst]
    exact iff_of_false (Option.some_ne_none _) (Option.some_ne_none _)

/-- A schedule that is staged is drawn by one payload. -/
theorem exists_drawnBy_of_stageBoxes (hne : schedule.placements ≠ [])
    (h : stageBoxes config schedule s = .done t) :
    ∃ boxes payload, List.Forall₂ (IsPlaced schedule) schedule.placements boxes ∧
      BoxGroup.DrawnBy ⟨"boxes", .boxes, .facets "green", boxes⟩ payload ∧
      t = ⟨s.payloads ++ [payload], s.bounds.union (.ofPoints (boxVertices boxes))⟩ := by
  rcases stageBoxes_cases h with ⟨hnil, -⟩ | ⟨batch, boxes, hboxes, hholds, rfl⟩
  · exact absurd hnil hne
  have hsome : boxes ≠ [] := by
    rintro rfl
    exact hne (List.forall₂_nil_right_iff.mp hboxes)
  obtain ⟨payload, hdrawn, hstaged⟩ := exists_stageBatch_boxes (s := s) hholds hsome
  exact ⟨boxes, payload, hboxes, hdrawn, hstaged⟩

/-- A schedule that is not staged changes nothing. -/
theorem state_stageBoxes_of_error (h : (stageBoxes config schedule s).error? ≠ none) :
    (stageBoxes config schedule s).state = s := by
  by_cases hnil : schedule.placements = []
  · rw [stageBoxes_of_nil hnil] at h
    exact absurd rfl h
  · rw [stageBoxes_of_ne_nil hnil] at h ⊢
    cases hbatch : boxBatch config schedule with
    | ok batch =>
      rw [hbatch] at h
      exact absurd rfl h
    | error failure => rfl

end Staging

/-- A schedule without boxes changes nothing, whatever the capacity.  Any other one is refused if
the capacity is too large for a batch.  Otherwise all its boxes are queued as one payload, in the
order of their placements, exactly if all of them have types and thirty-six vertices fit for each.
When they are not, the first offender says why: its box has no type, or there is no room for it, and
then it has as many boxes before it as fit.  A failure leaves the frame as it is. -/
theorem stageBoxes_verdict (config : Config) (schedule : BoxSchedule) (s : StagedFrame) :
    (schedule.placements = [] → stageBoxes config schedule s = .done s) ∧
    (schedule.placements ≠ [] → maxBatchVertices < config.accumulatorCapacity →
      stageBoxes config schedule s =
        .stopped (.shape (.invalidCapacity config.accumulatorCapacity)) s) ∧
    (schedule.placements ≠ [] → config.accumulatorCapacity ≤ maxBatchVertices →
      ((stageBoxes config schedule s).error? = none ↔
        (∀ p ∈ schedule.placements, HasType schedule p) ∧
          36 * schedule.placements.length ≤ config.accumulatorCapacity) ∧
      (∀ t, stageBoxes config schedule s = .done t →
        ∃ boxes payload,
          List.Forall₂ (fun placement box =>
            schedule.types.get? placement.boxType = some box.dimensions ∧
              box.center = placement.corner + box.dimensions.scale 0.5)
            schedule.placements boxes ∧
          BoxGroup.DrawnBy ⟨"boxes", .boxes, .facets "green", boxes⟩ payload ∧
          payload.vertexCount = 36 * schedule.placements.length ∧
          t = ⟨s.payloads ++ [payload], s.bounds.union (.ofPoints (boxVertices boxes))⟩) ∧
      ((stageBoxes config schedule s).error? ≠ none →
        ∃ p i, schedule.placements.zipIdx.find? (offends schedule config.accumulatorCapacity) =
            some (p, i) ∧
          (¬HasType schedule p ∧
              stageBoxes config schedule s =
                .stopped (.schedule (.unknownBoxType p.boxType)) s ∨
            HasType schedule p ∧ i = config.accumulatorCapacity / 36 ∧
              stageBoxes config schedule s =
                .stopped (.shape (.capacityExceeded 36 (config.accumulatorCapacity % 36)
                  config.accumulatorCapacity)) s))) ∧
    ((stageBoxes config schedule s).error? ≠ none → (stageBoxes config schedule s).state = s) := by
  refine ⟨stageBoxes_of_nil, fun hne hlt => ?_, fun hne hcapacity => ⟨?_, fun t ht => ?_, ?_⟩,
    state_stageBoxes_of_error⟩
  · rw [stageBoxes_of_ne_nil hne, boxBatch_of_lt hlt]
    rfl
  · exact error?_stageBoxes_eq_none_iff hne hcapacity
  · obtain ⟨boxes, payload, hboxes, hdrawn, rfl⟩ := exists_drawnBy_of_stageBoxes hne ht
    refine ⟨boxes, payload, hboxes.imp fun _ _ => isPlaced_iff.mp, hdrawn, ?_, rfl⟩
    rw [hdrawn.vertexCount_eq, hboxes.length_eq]
  · intro herror
    rcases stageBoxes_ends (s := s) hne hcapacity with ⟨-, hnone⟩ | hoffender
    · exact absurd hnone herror
    · exact hoffender

/-- Three boxes of one type, and between them one of a type that has no dimensions. -/
def gappedBoxes : BoxSchedule :=
  { placements := [⟨1, ⟨0, 0, 0⟩⟩, ⟨1, ⟨2, 0, 0⟩⟩, ⟨7, ⟨4, 0, 0⟩⟩, ⟨1, ⟨6, 0, 0⟩⟩]
    types := .ofList [(1, ⟨1, 2, 1⟩)] }

/-- Which of two offenders comes first is decided by the capacity.  In front of them there is a box
between (0, 0, 0) and (1, 2, 1), of which the face at 1 is drawn first. -/
theorem stageBoxes_verdict_gapped :
    stageBoxes { Config.default with accumulatorCapacity := 71 } gappedBoxes .empty =
      .stopped (.shape (.capacityExceeded 36 35 71)) .empty ∧
    stageBoxes { Config.default with accumulatorCapacity := 72 } gappedBoxes .empty =
      .stopped (.schedule (.unknownBoxType 7)) .empty ∧
    stageBoxes { Config.default with accumulatorCapacity := UInt32.size } gappedBoxes .empty =
      .stopped (.shape (.invalidCapacity UInt32.size)) .empty ∧
    (stageBoxes { Config.default with accumulatorCapacity := 72 }
      { gappedBoxes with placements := gappedBoxes.placements.take 2 } .empty).error? = none ∧
    ∃ t payload, stageBoxes { Config.default with accumulatorCapacity := 72 }
        { gappedBoxes with placements := gappedBoxes.placements.take 2 } .empty = .done t ∧
      t.payloads = [payload] ∧ payload.vertexCount = 72 ∧
      payload.mesh.positions.toList.take 18 =
        [1, 2, 1, 1, 0, 1, 1, 2, 0, 1, 0, 1, 1, 0, 0, 1, 2, 0] := by
  obtain ⟨htaken, hstaged, -⟩ := (stageBoxes_verdict
    { Config.default with accumulatorCapacity := 72 }
    { gappedBoxes with placements := gappedBoxes.placements.take 2 } .empty).2.2.1
    (by decide) (by decide)
  have hnone := htaken.mpr (by decide)
  refine ⟨?_, ?_, ?_, hnone, ?_⟩
  · obtain ⟨hends, -, hfirst⟩ := (stageBoxes_verdict
      { Config.default with accumulatorCapacity := 71 } gappedBoxes .empty).2.2.1
      (by decide) (by decide)
    have herror := mt hends.mp (by decide)
    obtain ⟨p, i, hp, ⟨htype, -⟩ | ⟨-, -, hstopped⟩⟩ := hfirst herror
    · have hsecond : gappedBoxes.placements.zipIdx.find? (offends gappedBoxes 71) =
          some (⟨1, ⟨2, 0, 0⟩⟩, 1) := by decide
      cases hsecond.symm.trans hp
      exact absurd (by decide) htype
    · exact hstopped
  · obtain ⟨hends, -, hfirst⟩ := (stageBoxes_verdict
      { Config.default with accumulatorCapacity := 72 } gappedBoxes .empty).2.2.1
      (by decide) (by decide)
    have herror := mt hends.mp (by decide)
    have hthird : gappedBoxes.placements.zipIdx.find? (offends gappedBoxes 72) =
        some (⟨7, ⟨4, 0, 0⟩⟩, 2) := by decide
    obtain ⟨p, i, hp, ⟨-, hstopped⟩ | ⟨htype, -⟩⟩ := hfirst herror
    · cases hthird.symm.trans hp
      exact hstopped
    · cases hthird.symm.trans hp
      exact absurd htype (by decide)
  · exact (stageBoxes_verdict { Config.default with accumulatorCapacity := UInt32.size }
      gappedBoxes .empty).2.1 (by decide) (by decide)
  · have hdone := Attempt.eq_done hnone
    obtain ⟨boxes, payload, hboxes, hdrawn, hvertices, ht⟩ := hstaged _ hdone
    refine ⟨_, payload, hdone, congrArg StagedFrame.payloads ht, hvertices, ?_⟩
    obtain ⟨⟨center, dimensions⟩, others, ⟨htype, hcenter⟩, hothers, rfl⟩ :=
      List.forall₂_cons_left_iff.mp hboxes
    obtain ⟨⟨center', dimensions'⟩, rest, ⟨htype', hcenter'⟩, hrest, rfl⟩ :=
      List.forall₂_cons_left_iff.mp hothers
    obtain rfl : ⟨1, 2, 1⟩ = dimensions := Option.some.inj htype
    obtain rfl : ⟨1, 2, 1⟩ = dimensions' := Option.some.inj htype'
    obtain rfl : center = ⟨0, 0, 0⟩ + Vec3.scale ⟨1, 2, 1⟩ 0.5 := hcenter
    obtain rfl : center' = ⟨2, 0, 0⟩ + Vec3.scale ⟨1, 2, 1⟩ 0.5 := hcenter'
    obtain rfl : rest = [] := List.forall₂_nil_left_iff.mp hrest
    rw [hdrawn.positions_eq]
    decide +kernel

end LatticeScene.Staging
