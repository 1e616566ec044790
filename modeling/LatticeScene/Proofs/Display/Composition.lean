import LatticeScene.Proofs.Display.Budget
import LatticeScene.Proofs.Staging.Composition

/-!
# Frames that are staged in several calls

A frame may be staged in any series of calls before it is committed, and after a failed call the
next one goes on from what was staged (`StagingCall`, `StagedFrame.performAll`).  All calls but one
append.  The wireframe around a frame is drawn around its bounds, and so it is the only call that
reads what is staged.  It leaves the bounds as they are: with and without the wireframe the same
series of calls stages the same bounds, and the same payloads apart from wireframes (`IsPart`).  So
a commit reports the same bounds and the same size in pieces.
-/

namespace LatticeScene.Staging

open Shape Schedule

/-! ### Calls -/

/-- Something that is done to a frame before it is committed. -/
inductive StagingCall where
  | boxes (config : Config) (schedule : BoxSchedule)
  | plumbing (config : Config) (schedule : PlumbingSchedule)
  | lattice (config : Config) (layout : LatticeLayout)
  | batches (config : Config) (b : DefectBatches)
  | defects (config : Config) (frame : DefectFrame)
  | payload (p : Payload)
  | bounds (e : Envelope)
  | frameBox (config : Config)

/-- The attempt that a call makes. -/
def StagingCall.attempt (s : StagedFrame) : StagingCall → StagingAttempt
  | .boxes config schedule => stageBoxes config schedule s
  | .plumbing config schedule => stagePlumbing config schedule s
  | .lattice config layout => stageLattice config layout s
  | .batches config b => stageBatches config b s
  | .defects config frame => stageDefects config frame s
  | .payload p => .done (s.stage p)
  | .bounds e => .done (s.includeBounds e)
  | .frameBox config => .done (stageFrameBox config s).2

/-- The frame after several calls, whether they failed or not. -/
def StagedFrame.performAll (s : StagedFrame) (calls : List StagingCall) : StagedFrame :=
  calls.foldl (fun s call => (call.attempt s).state) s

/-! ### Wireframes -/

/-- A frame is another one without some of its payloads. -/
structure IsPart (s t : StagedFrame) : Prop where
  bounds_eq : s.bounds = t.bounds
  payloads_sublist : s.payloads.Sublist t.payloads

/-- A wireframe leaves the bounds as they are. -/
theorem bounds_stageFrameBox (config : Config) (s : StagedFrame) :
    (stageFrameBox config s).2.bounds = s.bounds := by
  unfold stageFrameBox
  cases s.bounds.toBox? with
  | none => rfl
  | some box => exact s.bounds_stage _

/-- A frame is a part of itself with a wireframe. -/
theorem isPart_stageFrameBox (config : Config) (s : StagedFrame) :
    IsPart s (stageFrameBox config s).2 where
  bounds_eq := (bounds_stageFrameBox config s).symm
  payloads_sublist := by
    unfold stageFrameBox
    cases s.bounds.toBox? with
    | none => exact List.Sublist.refl _
    | some box =>
      rw [StagedFrame.payloads_stage]
      exact List.sublist_append_left _ _

/-- The boxes and the batches of a frame of defects are staged before the wireframe around them. -/
theorem appends_defects (config : Config) (frame : DefectFrame) :
    Appends fun s => (stageBoxes config frame.boxes s).andThen fun s =>
      match (DefectBatches.ofFrame frame).toExcept with
      | .error failure => .stopped failure s
      | .ok batches => stageBatches config batches s := by
  refine (appends_stageBoxes config frame.boxes).andThen ?_
  cases (DefectBatches.ofFrame frame).toExcept with
  | error failure => exact appends_stopped failure
  | ok batches => exact appends_stageBatches config batches

section Parts

variable {s t : StagedFrame}

/-- What does not read the frame does the same to a part of it. -/
theorem IsPart.of_appends {build : StagedFrame → StagingAttempt} (h : IsPart s t)
    (hbuild : Appends build) : IsPart (build s).state (build t).state := by
  obtain ⟨a, ha⟩ := hbuild
  rw [ha, ha]
  exact ⟨congrArg a.grow h.bounds_eq, h.payloads_sublist.append_right a.payloads⟩

/-- The same wireframe is drawn around a part, because it has the same bounds. -/
theorem IsPart.stageFrameBox (h : IsPart s t) (config : Config) :
    IsPart (stageFrameBox config s).2 (stageFrameBox config t).2 := by
  unfold Staging.stageFrameBox
  rw [h.bounds_eq]
  cases t.bounds.toBox? with
  | none => exact h
  | some box => exact h.of_appends (appends_stage (wireframePayload box))

/-- A builder may be followed by what does the same to a part as to the frame: either both have
failed before it, or both go on. -/
theorem IsPart.andThen {build next : StagedFrame → StagingAttempt} (h : IsPart s t)
    (hbuild : Appends build)
    (hnext : ∀ {s t}, IsPart s t → IsPart (next s).state (next t).state) :
    IsPart ((build s).andThen next).state ((build t).andThen next).state := by
  have hbuilt := h.of_appends hbuild
  have herror : (build s).error? = (build t).error? :=
    (hbuild.error?_eq s).trans (hbuild.error?_eq t).symm
  unfold Attempt.andThen
  rw [herror]
  cases (build t).error? with
  | none => exact hnext hbuilt
  | some failure => exact hbuilt

/-- Every call does to a part of a frame what it does to the frame. -/
theorem IsPart.attempt (h : IsPart s t) (call : StagingCall) :
    IsPart (call.attempt s).state (call.attempt t).state := by
  cases call with
  | boxes config schedule => exact h.of_appends (appends_stageBoxes config schedule)
  | plumbing config schedule => exact h.of_appends (appends_stagePlumbing config schedule)
  | lattice config layout => exact h.of_appends (appends_stageLattice config layout)
  | batches config b => exact h.of_appends (appends_stageBatches config b)
  | defects config frame =>
    exact h.andThen (appends_defects config frame) fun hpart => hpart.stageFrameBox config
  | payload p => exact h.of_appends (appends_stage p)
  | bounds e => exact h.of_appends (appends_includeBounds e)
  | frameBox config => exact h.stageFrameBox config

/-- A part of a frame stays a part of it when the same calls stage more on both. -/
theorem IsPart.performAll (h : IsPart s t) (calls : List StagingCall) :
    IsPart (s.performAll calls) (t.performAll calls) := by
  induction calls generalizing s t with
  | nil => exact h
  | cons call calls ih => exact ih (h.attempt call)

end Parts

/-- A wireframe that is not drawn is missing from the payloads, and nothing else is. -/
theorem isPart_without_frameBox (s : StagedFrame) (config : Config)
    (before after : List StagingCall) :
    IsPart (s.performAll (before ++ after))
      (s.performAll (before ++ .frameBox config :: after)) := by
  unfold StagedFrame.performAll
  rw [List.foldl_append, List.foldl_append, List.foldl_cons]
  exact (isPart_stageFrameBox config _).performAll after

end LatticeScene.Staging

namespace LatticeScene.Display

open Staging

/-! ### Committing parts of frames -/

/-- A part of a frame has no more bytes than the frame. -/
theorem frameBytes_le_of_sublist {ps qs : List Payload} (h : ps.Sublist qs) :
    frameBytes ps ≤ frameBytes qs := by
  induction h with
  | slnil => exact Nat.le_refl _
  | cons p _ ih =>
    rw [frameBytes_cons]
    exact Nat.le_add_left_of_le ih
  | cons_cons p _ ih =>
    rw [frameBytes_cons, frameBytes_cons]
    exact Nat.add_le_add_left ih _

namespace Viewer

/-- The summary of a committed frame reports the bounds that were staged. -/
theorem bounds_summary_committed (v : Viewer) (staged : StagedFrame) :
    (v.committed staged).summary.bounds = staged.bounds.toBox? ∧
      (v.committed staged).summary.pieces = staged.bounds.toBox?.map fun box =>
        pieceCounts box.dimensions v.config.pieceUnit := by
  refine ⟨rfl, ?_⟩
  rw [← config_committed v staged]
  rfl

/-- If a frame is shown, a part of it can be shown instead, with the same bounds. -/
theorem exists_commit_of_isPart {v : Viewer} {s t : StagedFrame} (h : IsPart s t)
    {summary : FrameSummary} (hcommit : (v.commit t).1 = .ok summary) :
    ∃ other, (v.commit s).1 = .ok other ∧
      other.bounds = summary.bounds ∧ other.pieces = summary.pieces := by
  cases herror : (v.clear.uploadAll t.payloads).error? with
  | some e =>
    rw [commit_of_refused herror] at hcommit
    cases hcommit
  | none =>
    have haccepted : (v.clear.uploadAll s.payloads).error? = none := by
      rw [error?_uploadAll, refusal?_eq_none_iff] at herror ⊢
      intro room hroom
      exact Nat.le_trans (frameBytes_le_of_sublist h.payloads_sublist) (herror room hroom)
    rw [commit_of_accepted herror] at hcommit
    cases hcommit
    refine ⟨_, congrArg Prod.fst (commit_of_accepted haccepted), ?_, ?_⟩
    · rw [(bounds_summary_committed v s).1, (bounds_summary_committed v t).1, h.bounds_eq]
    · rw [(bounds_summary_committed v s).2, (bounds_summary_committed v t).2, h.bounds_eq]

/-- Boxes, plumbing, lattices and batches of defects compose: on any frame they end as on an empty
one, and add what they add to it.  A wireframe around a frame does not change its bounds, so that a
series of calls in which it is left out stages the same bounds, and if the frame with the wireframe
is shown, the frame without it is shown with the same bounds and the same size in pieces. -/
theorem staging_composes (config : Config) :
    (∀ schedule, Composes (stageBoxes config schedule)) ∧
    (∀ schedule, Composes (stagePlumbing config schedule)) ∧
    (∀ layout, Composes (stageLattice config layout)) ∧
    (∀ batches, Composes (stageBatches config batches)) ∧
    (∀ s, (stageFrameBox config s).2.bounds = s.bounds) ∧
    (∀ (s : StagedFrame) (before after : List StagingCall),
      (s.performAll (before ++ after)).bounds =
        (s.performAll (before ++ .frameBox config :: after)).bounds) ∧
    (∀ (v : Viewer) (s : StagedFrame) (before after : List StagingCall) (summary : FrameSummary),
      (v.commit (s.performAll (before ++ .frameBox config :: after))).1 = .ok summary →
      ∃ other, (v.commit (s.performAll (before ++ after))).1 = .ok other ∧
        other.bounds = summary.bounds ∧ other.pieces = summary.pieces) := by
  refine ⟨fun schedule => ?_, fun schedule => ?_, fun layout => ?_, fun batches => ?_,
    bounds_stageFrameBox config, fun s before after => ?_, fun v s before after summary h => ?_⟩
  · exact (appends_stageBoxes config schedule).composes_of_steps fun _ _ => steps_of_stageBoxes
  · exact (appends_stagePlumbing config schedule).composes_of_steps
      fun _ _ => steps_of_stagePlumbing
  · exact (appends_stageLattice config layout).composes_of_steps fun _ _ => steps_of_stageLattice
  · exact (appends_stageBatches config batches).composes_of_union
      (bounds_stageBatches batches)
  · exact (isPart_without_frameBox s config before after).bounds_eq
  · exact exists_commit_of_isPart (isPart_without_frameBox s config before after) h

/-- A cube at the origin. -/
def loneCube : Schedule.BoxSchedule := ⟨[⟨1, ⟨0, 0, 0⟩⟩], ⟨[(1, ⟨2, 2, 2⟩)]⟩⟩

/-- A frame with bounds that reach further than the cube. -/
def wideFrame : StagedFrame := ⟨[], .ofPoints [⟨5, 0, 0⟩]⟩

/-- The cube adds to the bounds of the frame, and the wireframe around both is left out. -/
theorem staging_composes_loneCube :
    let v := start (.empty none) .default
    (stageBoxes .default loneCube wideFrame).state.bounds =
        wideFrame.bounds.union (stageBoxes .default loneCube .empty).state.bounds ∧
      ∃ other, (v.commit (wideFrame.performAll [.boxes .default loneCube])).1 = .ok other ∧
        other.bounds = some ⟨⟨0, 0, 0⟩, ⟨5, 2, 2⟩⟩ ∧ other.pieces = some ⟨1, 1, 1⟩ := by
  intro v
  obtain ⟨hboxes, -, -, -, -, -, hcommit⟩ := staging_composes .default
  have hwide : wideFrame.bounds.IsNumber := by decide +kernel
  have hdone : (stageBoxes .default loneCube .empty).error? = none :=
    (error?_stageBoxes_eq_none_iff (by decide) (by decide)).mpr (by decide)
  have hnumbers : ∀ vertex ∈ (stageBoxes .default loneCube .empty).state.vertices,
      vertex.IsNumber := by decide +kernel
  refine ⟨(hboxes loneCube).bounds_eq wideFrame hdone hwide hnumbers, ?_⟩
  generalize hframed :
    wideFrame.performAll [.boxes .default loneCube, .frameBox .default] = framed
  have hbox : framed.bounds.toBox? = some ⟨⟨0, 0, 0⟩, ⟨5, 2, 2⟩⟩ := by
    rw [← hframed]
    decide +kernel
  -- without a budget every frame is shown
  have haccepted : (v.clear.uploadAll framed.payloads).error? = none :=
    (error?_uploadAll v.clear framed.payloads).trans (refusal?_none _)
  have hwithout := hcommit v wideFrame [.boxes .default loneCube] [] (v.committed framed).summary
  simp only [List.append_nil, List.cons_append, List.nil_append, hframed] at hwithout
  obtain ⟨other, hother, hbounds, hpieces⟩ :=
    hwithout (congrArg Prod.fst (commit_of_accepted haccepted))
  refine ⟨other, hother, ?_, ?_⟩
  · rw [hbounds, (bounds_summary_committed v framed).1, hbox]
  · rw [hpieces, (bounds_summary_committed v framed).2, hbox]
    decide +kernel

end Viewer

end LatticeScene.Display
