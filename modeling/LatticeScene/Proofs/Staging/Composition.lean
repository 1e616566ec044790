import LatticeScene.Proofs.Staging.Steps
import LatticeScene.Staging.Defects

/-!
# Builders append

Several builders may stage one frame.  A builder never reads what is staged already: it queues its
payloads behind those that are there, lets the bounds grow, and perhaps fails in the end, in the
same way on every frame (`Appends`).  What is put together from such parts is such a builder again,
also where an early failure leaves the later parts out (`Appends.andThen`).

So a builder does on any frame what it does on an empty one (`Composes`).  Of the bounds this is
said in terms of the envelope that an empty frame gets.  A builder that unites the bounds with
several envelopes one after the other needs the grouping of unions for that, and so does without NaN
only.
-/

namespace LatticeScene.Staging

open Shape Schedule Relation

/-! ### Additions -/

/-- What a builder does to a frame. -/
structure Addition where
  /-- What it queues. -/
  payloads : List Payload
  /-- What it makes of the bounds. -/
  grow : Envelope → Envelope
  /-- The failure in which it ends. -/
  error? : Option Failure

/-- Do the same to a given frame. -/
def Addition.onto (a : Addition) (s : StagedFrame) : StagingAttempt :=
  ⟨⟨s.payloads ++ a.payloads, a.grow s.bounds⟩, a.error?⟩

/-- A builder does the same to every frame, whatever is staged in it. -/
def Appends (build : StagedFrame → StagingAttempt) : Prop := ∃ a : Addition, ∀ s, build s = a.onto s

section Combining

variable {build next : StagedFrame → StagingAttempt} {f : StagedFrame → StagedFrame}

/-- Doing nothing is the same on every frame. -/
theorem appends_done : Appends .done := by
  refine ⟨⟨[], id, none⟩, fun s => ?_⟩
  rw [Addition.onto, List.append_nil]
  rfl

/-- Failing at once is the same on every frame. -/
theorem appends_stopped (failure : Failure) : Appends (.stopped failure) := by
  refine ⟨⟨[], id, some failure⟩, fun s => ?_⟩
  rw [Addition.onto, List.append_nil]
  rfl

/-- A failure of the first part is the same on every frame, and so are the second parts that it
leaves out. -/
theorem Appends.andThen (hbuild : Appends build) (hnext : Appends next) :
    Appends fun s => (build s).andThen next := by
  obtain ⟨a, ha⟩ := hbuild
  obtain ⟨b, hb⟩ := hnext
  cases herror : a.error? with
  | none =>
    refine ⟨⟨a.payloads ++ b.payloads, fun bounds => b.grow (a.grow bounds), b.error?⟩, fun s => ?_⟩
    have hdone : a.onto s = .done ⟨s.payloads ++ a.payloads, a.grow s.bounds⟩ :=
      congrArg (Attempt.mk _) herror
    calc (build s).andThen next
      _ = next ⟨s.payloads ++ a.payloads, a.grow s.bounds⟩ := by rw [ha, hdone]; rfl
      _ = b.onto ⟨s.payloads ++ a.payloads, a.grow s.bounds⟩ := hb _
      _ = _ := by rw [Addition.onto, List.append_assoc]; rfl
  | some failure =>
    refine ⟨a, fun s => ?_⟩
    have hstopped : a.onto s = .stopped failure ⟨s.payloads ++ a.payloads, a.grow s.bounds⟩ :=
      congrArg (Attempt.mk _) herror
    calc (build s).andThen next
      _ = (a.onto s).andThen next := by rw [ha]
      _ = a.onto s := by rw [hstopped, Attempt.stopped_andThen]

/-- A change that never fails may come first. -/
theorem Appends.after (hbuild : Appends build) (hf : Appends fun s => .done (f s)) :
    Appends fun s => build (f s) := hf.andThen hbuild

/-- Steps that are the same on every frame make up a series that is. -/
theorem appends_each {α : Type} {step : StagedFrame → α → StagingAttempt}
    (h : ∀ x, Appends fun s => step s x) (xs : List α) : Appends fun s => .each step s xs := by
  induction xs with
  | nil => exact appends_done
  | cons x xs ih => exact (h x).andThen ih

/-- Changes that are the same on every frame make up a series that is. -/
theorem appends_foldl {α : Type} {change : StagedFrame → α → StagedFrame}
    (h : ∀ x, Appends fun s => .done (change s x)) (xs : List α) :
    Appends fun s => .done (xs.foldl change s) := by
  induction xs with
  | nil => exact appends_done
  | cons x xs ih => exact ih.after (h x)

/-- What is staged only if something else succeeds is not staged at all on any frame, if it does
not. -/
theorem appends_ofExcept {α : Type} {change : StagedFrame → α → StagedFrame}
    (h : ∀ x, Appends fun s => .done (change s x)) (result : Except Failure α) :
    Appends fun s => .ofExcept s (result.map (change s)) := by
  cases result with
  | ok x => exact h x
  | error failure => exact appends_stopped failure

/-- Including bounds grows the bounds in the same way on every frame. -/
theorem appends_includeBounds (bounds : Envelope) :
    Appends fun s => .done (s.includeBounds bounds) := by
  refine ⟨⟨[], (·.union bounds), none⟩, fun s => ?_⟩
  rw [Addition.onto, List.append_nil]
  rfl

/-- Staging payloads queues the same ones on every frame. -/
theorem appends_stageAll (ps : List Payload) : Appends fun s => .done (s.stageAll ps) := by
  refine ⟨⟨ps.flatMap queued, id, none⟩, fun s => ?_⟩
  exact congrArg Attempt.done (s.stageAll_eq_queued ps)

/-- Staging a payload queues it on every frame, or on none. -/
theorem appends_stage (p : Payload) : Appends fun s => .done (s.stage p) := appends_stageAll [p]

end Combining

/-! ### The builders -/

section Builders

variable (config : Config)

/-- The batch of boxes is queued in the same way on every frame. -/
theorem appends_stageBatch (name : String) (layer : Layer) (style : Style) (batch : BoxBatch) :
    Appends fun s => .done (s.stageBatch name layer style batch) :=
  (appends_stage _).after (appends_includeBounds _)

/-- The chunks of lines are queued in the same way on every frame. -/
theorem appends_stageLines (name : String) (layer : Layer) (strokes : List Stroke)
    (batch : LineBatch) : Appends (stageLines config name layer strokes batch) :=
  appends_ofExcept (fun chunks => appends_stageAll (linePayloads name layer strokes chunks)) _

/-- Boxes are staged in the same way on every frame. -/
theorem appends_stageBoxes (schedule : BoxSchedule) : Appends (stageBoxes config schedule) := by
  by_cases hnil : schedule.placements = []
  · rw [show stageBoxes config schedule = .done from funext fun _ => stageBoxes_of_nil hnil]
    exact appends_done
  · obtain ⟨a, ha⟩ := appends_ofExcept
      (fun batch => appends_stageBatch "boxes" .boxes (.facets "green") batch)
      (boxBatch config schedule)
    exact ⟨a, fun s => (stageBoxes_of_ne_nil hnil).trans (ha s)⟩

/-- Pieces of plumbing are staged in the same way on every frame. -/
theorem appends_stagePlumbing (schedule : PlumbingSchedule) :
    Appends (stagePlumbing config schedule) := by
  refine appends_ofExcept (fun batches => ?_) _
  have hunits := appends_stageBatch "plumbing-units" .plumbingUnits (.outline "grey") batches.units
  have hprimals := appends_stageBatch "plumbing-primals" .plumbingPrimals (.facets "red")
    batches.primals
  have hduals := appends_stageBatch "plumbing-duals" .plumbingDuals (.facets "blue") batches.duals
  exact (hduals.after hprimals).after hunits

/-- The links of one colour are staged in the same way on every frame. -/
theorem appends_stageLinks (links : String × LineBatch) :
    Appends fun s => stageLinks config s links :=
  (appends_stageLines config _ _ _ links.2).after (appends_includeBounds _)

/-- A lattice is staged in the same way on every frame. -/
theorem appends_stageLattice (layout : LatticeLayout) : Appends (stageLattice config layout) := by
  unfold stageLattice
  cases surfaceGroups config layout.cells with
  | error failure => exact appends_stopped failure
  | ok surfaces =>
    have hsurfaces := appends_foldl (fun surface : String × BoxBatch =>
      appends_stageBatch s!"lattice-{surface.1}" .lattice (.cells surface.1) surface.2) surfaces
    cases linkGroups layout with
    | error failure => exact (appends_stopped failure).after hsurfaces
    | ok links => exact (appends_each (appends_stageLinks config) links).after hsurfaces

/-- The batches of defects are staged in the same way on every frame. -/
theorem appends_stageBatches (batches : DefectBatches) :
    Appends (stageBatches config batches) := by
  have hprimal := appends_stageLines config "primal" .primal primalStrokes batches.primal
  have hdual := appends_stageLines config "dual" .dual dualStrokes batches.dual
  have hnotWorking := appends_stageLines config "not-working" .notWorking notWorkingStrokes
    batches.notWorking
  have hdebug := appends_each (fun numbered : LineBatch × Nat =>
    appends_stageLines config s!"debug-{numbered.2}" .debug (debugStrokes numbered.2) numbered.1)
    batches.debug.zipIdx
  exact ((((hprimal.after (appends_includeBounds _)).andThen hdual).andThen hnotWorking).andThen
    hdebug).andThen (appends_stage _)

end Builders

/-! ### On any frame as on an empty one -/

/-- What a builder does on a frame is told by what it does on an empty one. -/
structure Composes (build : StagedFrame → StagingAttempt) : Prop where
  /-- It ends in the same way. -/
  error?_eq : ∀ s, (build s).error? = (build .empty).error?
  /-- Its payloads come after those of the frame, also when it fails. -/
  payloads_eq : ∀ s, (build s).state.payloads = s.payloads ++ (build .empty).state.payloads
  /-- Unless it fails, the bounds of the frame are united with its own. -/
  bounds_eq : ∀ s, (build .empty).error? = none → s.bounds.IsNumber →
    (∀ vertex ∈ (build .empty).state.vertices, vertex.IsNumber) →
    (build s).state.bounds = s.bounds.union (build .empty).state.bounds

section Composing

variable {config : Config} {build : StagedFrame → StagingAttempt}

/-- Whether a builder fails, and how, does not depend on the frame. -/
theorem Appends.error?_eq (h : Appends build) (s : StagedFrame) :
    (build s).error? = (build .empty).error? := by
  obtain ⟨a, ha⟩ := h
  rw [ha, ha]
  rfl

/-- The payloads of a builder come after those of the frame, and are those it queues on an empty
frame. -/
theorem Appends.payloads_eq (h : Appends build) (s : StagedFrame) :
    (build s).state.payloads = s.payloads ++ (build .empty).state.payloads := by
  obtain ⟨a, ha⟩ := h
  rw [ha, ha]
  rfl

/-- A builder that unites the bounds with one envelope composes, even with NaN. -/
theorem Appends.composes_of_union (h : Appends build) {bounds : Envelope}
    (hbounds : ∀ s, (build s).state.bounds = s.bounds.union bounds) : Composes build where
  error?_eq := h.error?_eq
  payloads_eq := h.payloads_eq
  bounds_eq s _ _ _ := by
    have hempty : (build .empty).state.bounds = bounds :=
      (hbounds .empty).trans (Envelope.empty_union bounds)
    rw [hbounds, hempty]

/-- A builder that succeeds in steps composes. -/
theorem Appends.composes_of_steps (h : Appends build)
    (hsteps : ∀ s t, build s = .done t → ReflTransGen (StagingStep config) s t) :
    Composes build where
  error?_eq := h.error?_eq
  payloads_eq := h.payloads_eq
  bounds_eq := by
    intro s hnone hs hnumbers
    obtain ⟨ps, hps, hbounds⟩ := exists_append_of_steps
      (hsteps s _ (Attempt.eq_done ((h.error?_eq s).trans hnone)))
    obtain ⟨own, hown, hownBounds⟩ := exists_append_of_steps
      (hsteps .empty _ (Attempt.eq_done hnone))
    rw [StagedFrame.vertices, hown] at hnumbers
    -- both runs queue the same payloads
    obtain rfl : ps = own := by
      rw [h.payloads_eq s, hown] at hps
      exact (List.append_cancel_left hps).symm
    rw [hbounds hs hnumbers, hownBounds (by decide +kernel) hnumbers]
    exact congrArg s.bounds.union (Envelope.empty_union _).symm

/-! A batch of lines that is staged leaves the bounds to its builder. -/

/-- A second attempt that leaves the bounds alone leaves those of the first one. -/
theorem bounds_andThen {a : StagingAttempt} {next : StagedFrame → StagingAttempt}
    (h : ∀ s, (next s).state.bounds = s.bounds) :
    (a.andThen next).state.bounds = a.state.bounds := by
  unfold Attempt.andThen
  split
  · exact h _
  · rfl

/-- Steps that leave the bounds alone leave them alone in series. -/
theorem bounds_each {α : Type} {step : StagedFrame → α → StagingAttempt}
    (h : ∀ x s, (step s x).state.bounds = s.bounds) (xs : List α) (s : StagedFrame) :
    (Attempt.each step s xs).state.bounds = s.bounds := by
  induction xs generalizing s with
  | nil => rfl
  | cons x xs ih => rw [Attempt.each_cons, bounds_andThen ih, h]

/-- Lines are staged without a change to the bounds. -/
theorem bounds_stageLines (name : String) (layer : Layer) (strokes : List Stroke)
    (batch : LineBatch) (s : StagedFrame) :
    (stageLines config name layer strokes batch s).state.bounds = s.bounds := by
  unfold stageLines
  cases batch.intoChunks config.lineChunkVertices with
  | error reason => rfl
  | ok chunks => exact s.bounds_stageAll (linePayloads name layer strokes chunks)

/-- The bounds grow around all lines of a frame before any of them is staged. -/
theorem bounds_stageBatches (batches : DefectBatches) (s : StagedFrame) :
    (stageBatches config batches s).state.bounds = s.bounds.union batches.bounds := by
  refine (bounds_andThen fun s => s.bounds_stage _).trans ?_
  refine (bounds_andThen (bounds_each (fun numbered s => ?_) _)).trans ?_
  · exact bounds_stageLines _ _ _ numbered.1 s
  refine (bounds_andThen (bounds_stageLines _ _ _ _)).trans ?_
  refine (bounds_andThen (bounds_stageLines _ _ _ _)).trans ?_
  exact bounds_stageLines _ _ _ _ _

end Composing

end LatticeScene.Staging
