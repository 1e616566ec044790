import LatticeScene.Proofs.Display.Endings
import LatticeScene.Proofs.Display.Independence
import LatticeScene.Proofs.Staging.Steps

/-!
# The bounds that a viewer reports

A viewer that shows a subject has the staged payloads uploaded and the staged bounds
(`exists_staged_of_showSubject`).  For plumbing schedules and lattice layouts these are the bounds
of all vertices that are drawn.
-/

namespace LatticeScene.Display

open Shape Staging

namespace Viewer

variable {v : Viewer} {subject : Subject} {summary : FrameSummary}

/-- A frame whose uploads are all accepted is live payload by payload. -/
theorem live_committed_of_accepted {staged : StagedFrame}
    (h : (v.clear.uploadAll staged.payloads).error? = none) :
    (v.committed staged).live =
      LiveMesh.ofPayloads v.clear.display.device.nextHandle staged.payloads := by
  have hlive : (v.committed staged).live = (v.clear.uploadAll staged.payloads).state.live := rfl
  rw [error?_uploadAll] at h
  rw [hlive, live_uploadAll, fitting_eq_self h]
  rfl

/-- A subject that is shown has been staged, and its payloads have been uploaded. -/
theorem exists_staged_of_showSubject (h : (v.showSubject subject).1 = .ok summary) :
    ∃ staged next, subject.stage v.config .empty = .done staged ∧
      (v.showSubject subject).2.live = LiveMesh.ofPayloads next staged.payloads ∧
      (v.showSubject subject).2.bounds = staged.bounds ∧
      summary = (v.showSubject subject).2.summary := by
  rw [showSubject_eq_rebuild] at h ⊢
  cases hstaged : (subject.stage v.config .empty).error? with
  | some failure =>
    rw [rebuild_of_failed hstaged] at h
    exact nomatch h
  | none =>
    rw [rebuild_of_staged hstaged] at h ⊢
    cases huploaded : (v.clear.uploadAll (subject.stage v.config .empty).state.payloads).error? with
    | some e =>
      rw [commit_of_refused huploaded] at h
      exact nomatch h
    | none =>
      rw [commit_of_accepted huploaded] at h ⊢
      exact ⟨_, _, Attempt.eq_done hstaged, live_committed_of_accepted huploaded, rfl,
        (Except.ok.inj h).symm⟩

/-- A summary has no bounds if those of the viewer are empty. -/
theorem bounds_summary_eq_none_iff : v.summary.bounds = none ↔ v.bounds.isEmpty = true := by
  have hbounds : v.summary.bounds = v.bounds.toBox? := rfl
  rw [hbounds, Envelope.toBox?]
  by_cases hempty : v.bounds.isEmpty = true
  · rw [if_pos hempty]
    exact iff_of_true rfl hempty
  · rw [if_neg hempty]
    exact iff_of_false (Option.some_ne_none _) hempty

/-- Showing a plumbing schedule or a lattice layout gives a viewer the bounds of all vertices that
it uploads, if no coordinate is NaN.  It depends on these vertices alone and not on how they are
divided into payloads, and there are no bounds to report only if there is no payload. -/
theorem showSubject_bounds_exact (hsubject : ∀ frame, subject ≠ .defects frame)
    (hshown : (v.showSubject subject).1 = .ok summary) :
    ∃ staged next, subject.stage v.config .empty = .done staged ∧
      (v.showSubject subject).2.live = LiveMesh.ofPayloads next staged.payloads ∧
      ((∀ vertex ∈ staged.vertices, vertex.IsNumber) →
        (v.showSubject subject).2.bounds = .ofPoints staged.vertices ∧
        (summary.bounds = none ↔ staged.payloads = [])) := by
  obtain ⟨staged, next, hstaged, hlive, hbounds, hsummary⟩ := exists_staged_of_showSubject hshown
  have hexact : staged.Exact := by
    cases subject with
    | defects frame => exact absurd rfl (hsubject frame)
    | plumbing schedule => exact StagedFrame.Exact.empty.steps (steps_of_stagePlumbing hstaged)
    | lattice layout => exact StagedFrame.Exact.empty.steps (steps_of_stageLattice hstaged)
  refine ⟨staged, next, hstaged, hlive, fun hnumbers => ?_⟩
  have hpoints : (v.showSubject subject).2.bounds = .ofPoints staged.vertices :=
    hbounds.trans (hexact.bounds_eq hnumbers)
  refine ⟨hpoints, ?_⟩
  rw [hsummary, bounds_summary_eq_none_iff, hpoints, Envelope.isEmpty_ofPoints_iff,
    hexact.vertices_eq_nil_iff]

/-- A layout of a single face and a link to a cell that shows no face. -/
def linkedFace : Schedule.LatticeLayout :=
  { cells := [⟨1, ⟨0, 0, 0⟩, "red", none, some 1⟩, ⟨2, ⟨2, 0, 0⟩, "blue", none, some 64⟩]
    links := [⟨1, 2, none⟩] }

/-- The link reaches further than the face, and the frame before reached further to the left. -/
theorem showSubject_bounds_exact_linked :
    let v := (start (.empty none) .default).run [.rebuild (.lattice oneCell)]
    ∃ staged, stageLattice .default linkedFace .empty = .done staged ∧
      (v.showSubject (.lattice linkedFace)).2.bounds = .ofPoints staged.vertices ∧
      Envelope.ofPoints staged.vertices = ⟨⟨0, -0.5, -0.5⟩, ⟨2, 0.5, 0.5⟩⟩ ∧
      v.bounds = ⟨⟨-0.5, -0.5, -0.5⟩, ⟨0.5, 0.5, 0.5⟩⟩ := by
  intro v
  have hconfig : v.config = (start (.empty none) .default).config := by
    rw [show v = ((start (.empty none) .default).showSubject (.lattice oneCell)).2 from rfl,
      showSubject_eq_rebuild, config_rebuild]
  have hshown : (v.showSubject (.lattice linkedFace)).1 =
      .ok (v.showSubject (.lattice linkedFace)).2.summary := by decide +kernel
  obtain ⟨staged, next, hstaged, -, hbounds⟩ :=
    showSubject_bounds_exact (fun frame h => Subject.noConfusion h) hshown
  rw [hconfig] at hstaged
  have hdone : stageLattice .default linkedFace .empty =
      .done (stageLattice .default linkedFace .empty).state :=
    Attempt.eq_done (by decide +kernel)
  have heq : staged = (stageLattice .default linkedFace .empty).state :=
    Attempt.done_inj.mp (hstaged.symm.trans hdone)
  refine ⟨staged, hstaged, (hbounds ?_).1, ?_, ?_⟩
  · rw [heq]
    decide +kernel
  · rw [heq]
    decide +kernel
  · decide +kernel

end Viewer

end LatticeScene.Display
