import LatticeScene.Proofs.Display.Visibility

/-!
# Frames do not depend on the frames before them

Two viewers are `Viewer.Alike` when they have the same budget, configuration and visibility.  What
they have shown so far may differ.  Staging reads the configuration only, and uploading begins with
all of the budget, so the same frame ends in the same way on both of them.  If it was staged, both
show the same afterwards (`Viewer.SameFrame`): only handles tell the two apart, and reports do not
see handles (`SameFrame.summary_eq`).
-/

namespace LatticeScene.Display

open Staging

/-- A live mesh without its handle. -/
def LiveMesh.forgetHandle (mesh : LiveMesh) : LiveMesh := { mesh with handle := 0 }

/-- A report under another frame number. -/
def FrameSummary.renumber (number : Nat) (s : FrameSummary) : FrameSummary :=
  { s with frame := number }

namespace Viewer

/-- Two viewers that own their meshes and are asked to show the same things. -/
structure Alike (v w : Viewer) (budget : Option Nat) : Prop where
  left : v.Owns budget
  right : w.Owns budget
  config : v.config = w.config
  visible : v.visible = w.visible

/-- Two viewers that show the same, under whatever handles. -/
structure SameFrame (v w : Viewer) : Prop where
  live : v.live.map LiveMesh.forgetHandle = w.live.map LiveMesh.forgetHandle
  bounds : v.bounds = w.bounds

variable {v w : Viewer} {budget : Option Nat}

/-! ### Reports do not see handles -/

/-- What is read off a list of live meshes without their handles is the same for both viewers. -/
theorem SameFrame.map_live {β : Type} (h : v.SameFrame w) (f : LiveMesh → β)
    (hf : ∀ mesh : LiveMesh, f mesh.forgetHandle = f mesh) : v.live.map f = w.live.map f := by
  have hcomp : f ∘ LiveMesh.forgetHandle = f := funext hf
  rw [← hcomp, ← List.map_map, ← List.map_map, h.live]

/-- Two viewers that show the same frame and the same layers attach equally many meshes. -/
theorem SameFrame.length_shownMeshes (h : v.SameFrame w) (hvisible : v.visible = w.visible) :
    v.shownMeshes.length = w.shownMeshes.length := by
  have hlayers : v.live.map (·.layer) = w.live.map (·.layer) := h.map_live _ fun _ => rfl
  have hcount : ∀ u : Viewer, u.shownMeshes.length = (u.live.map (·.layer)).countP u.visible := by
    intro u
    rw [List.countP_map, shownMeshes, List.countP_eq_length_filter]
    rfl
  rw [hcount v, hcount w, hlayers, hvisible]

/-- Two viewers that show the same report the same, except for the number of the frame. -/
theorem SameFrame.summary_eq (h : v.SameFrame w) (hconfig : v.config = w.config)
    (hvisible : v.visible = w.visible) : v.summary = w.summary.renumber v.frames := by
  have hlength : v.live.length = w.live.length := by
    simpa only [List.length_map] using congrArg List.length h.live
  have hvertices : v.live.map (·.vertexCount) = w.live.map (·.vertexCount) :=
    h.map_live _ fun _ => rfl
  have hbytes : v.live.map (·.bytes) = w.live.map (·.bytes) := h.map_live _ fun _ => rfl
  simp only [summary, FrameSummary.renumber, hlength, hvertices, hbytes,
    h.length_shownMeshes hvisible, h.bounds, hconfig]

/-! ### The same frame on two viewers -/

/-- A frame within the budget is the same on two viewers that are alike, whatever they showed
before. -/
theorem Alike.sameFrame_committed (h : v.Alike w budget) {staged : StagedFrame}
    (haccepted : refusal? budget staged.payloads = none) :
    (v.committed staged).SameFrame (w.committed staged) where
  live := by
    rw [h.left.live_committed haccepted, h.right.live_committed haccepted,
      LiveMesh.map_ofPayloads _ fun _ _ => rfl, LiveMesh.map_ofPayloads _ fun _ _ => rfl]
  bounds := rfl

/-- After a frame was withdrawn two viewers show the same, which is nothing. -/
theorem sameFrame_withdrawn (v w : Viewer) (staged : StagedFrame) :
    (v.withdrawn staged).SameFrame (w.withdrawn staged) :=
  ⟨rfl, rfl⟩

/-- A staged frame ends in the same way on both viewers, and they show the same afterwards. -/
theorem Alike.commit (h : v.Alike w budget) (staged : StagedFrame) :
    (v.commit staged).1 = (w.commit staged).1.map (FrameSummary.renumber (v.frames + 1)) ∧
      (v.commit staged).2.SameFrame (w.commit staged).2 := by
  -- both viewers upload into all of the budget, so the payloads alone decide
  have hleft : (v.clear.uploadAll staged.payloads).error? = refusal? budget staged.payloads :=
    h.left.error?_uploadAll_clear staged.payloads
  have hright : (w.clear.uploadAll staged.payloads).error? = refusal? budget staged.payloads :=
    h.right.error?_uploadAll_clear staged.payloads
  cases hrefusal : refusal? budget staged.payloads with
  | some e =>
    rw [hrefusal] at hleft hright
    rw [commit_of_refused hleft, commit_of_refused hright]
    exact ⟨rfl, sameFrame_withdrawn v w staged⟩
  | none =>
    rw [hrefusal] at hleft hright
    rw [commit_of_accepted hleft, commit_of_accepted hright]
    have hsame : (v.committed staged).SameFrame (w.committed staged) :=
      h.sameFrame_committed hrefusal
    refine ⟨?_, hsame⟩
    have hconfig : (v.committed staged).config = (w.committed staged).config := by
      rw [config_committed, config_committed, h.config]
    have hvisible : (v.committed staged).visible = (w.committed staged).visible := by
      rw [visible_committed, visible_committed, h.visible]
    exact congrArg Except.ok (hsame.summary_eq hconfig hvisible)

/-- A frame, staged or not, ends in the same way on both viewers. -/
theorem Alike.rebuild_fst (h : v.Alike w budget)
    (build : Config → StagedFrame → StagingAttempt) :
    (v.rebuild build).1 = (w.rebuild build).1.map (FrameSummary.renumber (v.frames + 1)) := by
  have hbuild : build w.config .empty = build v.config .empty := by rw [h.config]
  cases hfailed : (build v.config .empty).error? with
  | some failure =>
    have hfailed' : (build w.config .empty).error? = some failure := by rw [hbuild, hfailed]
    rw [rebuild_of_failed hfailed, rebuild_of_failed hfailed']
    rfl
  | none =>
    have hstaged' : (build w.config .empty).error? = none := by rw [hbuild, hfailed]
    rw [rebuild_of_staged hfailed, rebuild_of_staged hstaged', hbuild]
    exact (h.commit _).1

/-- A frame that could be staged leaves both viewers showing the same. -/
theorem Alike.sameFrame_rebuild (h : v.Alike w budget)
    {build : Config → StagedFrame → StagingAttempt}
    (hstaged : (build v.config .empty).error? = none) :
    (v.rebuild build).2.SameFrame (w.rebuild build).2 := by
  have hbuild : build w.config .empty = build v.config .empty := by rw [h.config]
  have hstaged' : (build w.config .empty).error? = none := by rw [hbuild, hstaged]
  rw [rebuild_of_staged hstaged, rebuild_of_staged hstaged', hbuild]
  exact (h.commit _).2

/-- A subject gives the same on both viewers, up to the number of the frame.  When it could be
staged, both show the same afterwards, and otherwise each shows what it showed before. -/
theorem Alike.showSubject (h : v.Alike w budget) (subject : Subject) :
    (v.showSubject subject).1.map (FrameSummary.renumber 0) =
        (w.showSubject subject).1.map (FrameSummary.renumber 0) ∧
      ((subject.stage v.config .empty).error? = none →
        (v.showSubject subject).2.SameFrame (w.showSubject subject).2) ∧
      ((subject.stage v.config .empty).error? ≠ none →
        (v.showSubject subject).2 = v ∧ (w.showSubject subject).2 = w) := by
  simp only [showSubject_eq_rebuild]
  refine ⟨?_, h.sameFrame_rebuild, fun hfailed => ?_⟩
  · rw [h.rebuild_fst]
    cases (w.rebuild subject.stage).1 <;> rfl
  · obtain ⟨failure, hfailure⟩ := Option.ne_none_iff_exists'.mp hfailed
    rw [rebuild_of_failed hfailure, rebuild_of_failed (h.config ▸ hfailure)]
    exact ⟨rfl, rfl⟩

/-! ### One more frame -/

/-- Committing a frame leaves the configuration alone, whether the frame is accepted or not. -/
@[simp] theorem config_commit (v : Viewer) (staged : StagedFrame) :
    (v.commit staged).2.config = v.config := by
  cases h : (v.clear.uploadAll staged.payloads).error? with
  | some e => rw [commit_of_refused h, config_withdrawn]
  | none => rw [commit_of_accepted h, config_committed]

/-- Rebuilding leaves the configuration alone, whether there is anything to commit or not. -/
@[simp] theorem config_rebuild (v : Viewer) (build : Config → StagedFrame → StagingAttempt) :
    (v.rebuild build).2.config = v.config := by
  cases h : (build v.config .empty).error? with
  | some failure => rw [rebuild_of_failed h]
  | none => rw [rebuild_of_staged h, config_commit]

/-- A viewer that shows one more frame stays like another one that does not. -/
theorem Alike.rebuild_left (h : v.Alike w budget) (build : Config → StagedFrame → StagingAttempt) :
    (v.rebuild build).2.Alike w budget where
  left := h.left.rebuild build
  right := h.right
  config := (config_rebuild v build).trans h.config
  visible := (visible_rebuild v build).trans h.visible

/-- A frame that is reported has been counted. -/
theorem frames_rebuild_of_ok {build : Config → StagedFrame → StagingAttempt}
    {summary : FrameSummary} (hok : (v.rebuild build).1 = .ok summary) :
    (v.rebuild build).2.frames = v.frames + 1 := by
  cases hfailed : (build v.config .empty).error? with
  | some failure =>
    rw [rebuild_of_failed hfailed] at hok
    cases hok
  | none =>
    rw [rebuild_of_staged hfailed] at hok ⊢
    cases hrefused : (v.clear.uploadAll (build v.config .empty).state.payloads).error? with
    | some e =>
      rw [commit_of_refused hrefused] at hok
      cases hok
    | none =>
      rw [commit_of_accepted hrefused]
      rfl

end Viewer

end LatticeScene.Display
