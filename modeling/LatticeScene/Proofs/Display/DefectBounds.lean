import LatticeScene.Proofs.Display.Bounds
import LatticeScene.Proofs.Display.Drawable
import LatticeScene.Proofs.Staging.DefectBounds

/-!
# The bounds that are reported of defects

After a frame of defects has been shown, a viewer has the bounds of its boxes and lines.  The marks
of injections are uploaded as well, but the bounds do not grow around them.  So a mark may lie
outside of the bounds, and a frame of marks only has no bounds, although it has a mesh
(`showDefects_bounds`).
-/

namespace LatticeScene.Staging

open Shape

/-- All vertices of a payload lie in an envelope. -/
def Payload.Inside (p : Payload) (bounds : Envelope) : Prop :=
  ∀ vertex ∈ p.mesh.vertices, bounds.contains vertex = true

instance (p : Payload) (bounds : Envelope) : Decidable (p.Inside bounds) :=
  inferInstanceAs (Decidable (∀ vertex ∈ p.mesh.vertices, bounds.contains vertex = true))

/-- Nothing that has a vertex lies in the envelope of no points. -/
theorem Payload.not_inside_empty {p : Payload} (hne : p.mesh.vertices ≠ []) : ¬p.Inside .empty := by
  intro hinside
  obtain ⟨vertex, hvertex⟩ := List.exists_mem_of_ne_nil _ hne
  have hcontains := hinside vertex hvertex
  rw [Envelope.contains_empty] at hcontains
  exact nomatch hcontains

namespace StagedFrame.Encloses

variable {s : StagedFrame} {points : List (Vec3 Float32)}

/-- A wireframe is queued around points, if there are any. -/
theorem stageFrameBox_cases (h : s.Encloses points) (config : Config) :
    (points = [] ∧ (stageFrameBox config s).2 = s) ∨
      (points ≠ [] ∧ ∃ box, (stageFrameBox config s).2 =
        { s with payloads := s.payloads ++ [wireframePayload box] }) := by
  have hempty : s.bounds.isEmpty = true ↔ points = [] := by
    rw [h.bounds_eq]
    exact Envelope.isEmpty_ofPoints_iff
  unfold stageFrameBox
  by_cases hpoints : points = []
  · have hbox : s.bounds.toBox? = none := if_pos (hempty.mpr hpoints)
    rw [hbox]
    exact Or.inl ⟨hpoints, rfl⟩
  · have hbox : s.bounds.toBox? = some ⟨s.bounds.min, s.bounds.size⟩ :=
      if_neg (mt hempty.mp hpoints)
    have hmesh : ¬(wireframePayload ⟨s.bounds.min, s.bounds.size⟩).mesh.isEmpty = true :=
      mt Array.isEmpty_iff.mp (drawable_wireframePayload _).positions_ne
    have hstage : s.stage (wireframePayload ⟨s.bounds.min, s.bounds.size⟩) =
        { s with payloads := s.payloads ++ [wireframePayload ⟨s.bounds.min, s.bounds.size⟩] } := by
      rw [stage_eq, queued, if_neg hmesh]
    rw [hbox]
    exact Or.inr ⟨hpoints, _, hstage⟩

end StagedFrame.Encloses

/-- A frame with a wireframe around points, unless it has nothing but marks. -/
structure StagedFrame.Framed (s : StagedFrame) (points : List (Vec3 Float32)) : Prop where
  isNumber : ∀ point ∈ points, point.IsNumber
  bounds_eq : s.bounds = .ofPoints points
  vertices_ne_nil : ∀ p ∈ s.payloads, p.mesh.vertices ≠ []
  mem_points : ∀ p ∈ s.payloads, p.layer ≠ .boundingBox → p.layer ≠ .injections →
    ∀ vertex ∈ p.mesh.vertices, vertex ∈ points
  points_eq_nil_iff : points = [] ↔ ∀ p ∈ s.payloads, p.layer = .injections

/-- A frame that encloses points gets a wireframe around them. -/
theorem StagedFrame.Encloses.framed {s : StagedFrame} {points : List (Vec3 Float32)}
    (h : s.Encloses points) (config : Config) : (stageFrameBox config s).2.Framed points := by
  rcases h.stageFrameBox_cases config with ⟨rfl, heq⟩ | ⟨hne, box, heq⟩
  · rw [heq]
    refine ⟨h.isNumber, h.bounds_eq, fun p hp => (h.enclosedBy p hp).vertices_ne_nil,
      fun p hp _ => (h.enclosedBy p hp).mem_points, iff_of_true rfl fun p hp => ?_⟩
    -- a vertex of a payload on another layer would be among no points
    by_contra hlayer
    obtain ⟨vertex, hvertex⟩ := List.exists_mem_of_ne_nil _ (h.enclosedBy p hp).vertices_ne_nil
    exact List.not_mem_nil ((h.enclosedBy p hp).mem_points hlayer vertex hvertex)
  · rw [heq]
    have hcases : ∀ p ∈ s.payloads ++ [wireframePayload box],
        p.EnclosedBy points ∨ p = wireframePayload box := by
      intro p hp
      rcases List.mem_append.mp hp with hold | hnew
      · exact Or.inl (h.enclosedBy p hold)
      · exact Or.inr (List.mem_singleton.mp hnew)
    refine ⟨h.isNumber, h.bounds_eq, ?vertices, ?inside, iff_of_false hne ?wireframe⟩
    case vertices =>
      intro p hp
      rcases hcases p hp with henclosed | rfl
      · exact henclosed.vertices_ne_nil
      · have hdrawable := drawable_wireframePayload box
        refine Mesh.vertices_ne_nil (Bool.eq_false_iff.mpr ?_) hdrawable.positions_whole
        exact mt Array.isEmpty_iff.mp hdrawable.positions_ne
    case inside =>
      intro p hp hlayer
      rcases hcases p hp with henclosed | rfl
      · exact henclosed.mem_points
      · exact absurd rfl hlayer
    case wireframe =>
      intro hmarks
      have hlayer := hmarks (wireframePayload box)
        (List.mem_append_right _ (List.mem_singleton_self _))
      exact nomatch hlayer

namespace StagedFrame.Framed

variable {s : StagedFrame} {points : List (Vec3 Float32)}

/-- Boxes and lines lie inside of the bounds. -/
theorem inside (h : s.Framed points) {p : Payload} (hp : p ∈ s.payloads)
    (hbox : p.layer ≠ .boundingBox) (hmark : p.layer ≠ .injections) : p.Inside s.bounds := by
  intro vertex hvertex
  rw [h.bounds_eq]
  exact Envelope.contains_ofPoints h.isNumber (h.mem_points p hp hbox hmark vertex hvertex)

/-- All that is drawn lies inside of the bounds, and no points mean no payloads, exactly if the
marks lie inside of the bounds. -/
theorem inside_iff (h : s.Framed points) :
    ((∀ p ∈ s.payloads, p.layer ≠ .boundingBox → p.Inside s.bounds) ∧
      (points = [] ↔ s.payloads = [])) ↔
        ∀ p ∈ s.payloads, p.layer = .injections → p.Inside s.bounds := by
  constructor
  · rintro ⟨hinside, -⟩ p hp hmark
    refine hinside p hp ?_
    rw [hmark]
    decide
  · intro hmarks
    refine ⟨fun p hp hbox => ?_, fun hnil => ?_, fun hnone => ?_⟩
    · by_cases hmark : p.layer = .injections
      · exact hmarks p hp hmark
      · exact h.inside hp hbox hmark
    · -- without points the bounds are empty, so that no mark lies inside of them
      have hbounds : s.bounds = .empty := by
        rw [h.bounds_eq, hnil]
        rfl
      refine List.eq_nil_iff_forall_not_mem.mpr fun p hp => ?_
      have hinside := hmarks p hp (h.points_eq_nil_iff.mp hnil p hp)
      rw [hbounds] at hinside
      exact Payload.not_inside_empty (h.vertices_ne_nil p hp) hinside
    · refine h.points_eq_nil_iff.mpr fun p hp => ?_
      rw [hnone] at hp
      exact absurd hp List.not_mem_nil

end StagedFrame.Framed

end LatticeScene.Staging

namespace LatticeScene.Display

open Shape Staging

namespace Viewer

variable {v : Viewer} {frame : Schedule.DefectFrame} {summary : FrameSummary}

/-- After a frame of defects with finite boxes has been shown, the boxes and lines lie inside of the
bounds of the viewer, and bounds are reported unless nothing but marks of injections was uploaded.
So the bounds are those of all that is drawn, and are missing only if nothing is, exactly if the
marks lie inside of the bounds, too. -/
theorem showDefects_bounds (hfinite : frame.boxes.IsFinite)
    (hshown : (v.showDefects frame).1 = .ok summary) :
    ∃ staged next, stageDefects v.config frame .empty = .done staged ∧
      (v.showDefects frame).2.live = LiveMesh.ofPayloads next staged.payloads ∧
      (∀ p ∈ staged.payloads, p.layer ≠ .boundingBox → p.layer ≠ .injections →
        p.Inside (v.showDefects frame).2.bounds) ∧
      (summary.bounds = none ↔ ∀ p ∈ staged.payloads, p.layer = .injections) ∧
      (((∀ p ∈ staged.payloads, p.layer ≠ .boundingBox →
          p.Inside (v.showDefects frame).2.bounds) ∧
          (summary.bounds = none ↔ staged.payloads = [])) ↔
        ∀ p ∈ staged.payloads, p.layer = .injections →
          p.Inside (v.showDefects frame).2.bounds) := by
  have hshown' : (v.showSubject (.defects frame)).1 = .ok summary := hshown
  obtain ⟨staged, next, hstaged, hlive, hbounds, hsummary⟩ := exists_staged_of_showSubject hshown'
  obtain ⟨drawn, points, hencloses, hbox⟩ := exists_encloses_of_stageDefects hfinite hstaged
  have hframed : staged.Framed points := hbox ▸ hencloses.framed v.config
  have hviewer : (v.showDefects frame).2.bounds = staged.bounds := hbounds
  have hnone : summary.bounds = none ↔ points = [] := by
    rw [hsummary, bounds_summary_eq_none_iff, hbounds, hframed.bounds_eq,
      Envelope.isEmpty_ofPoints_iff]
  rw [hviewer, hnone]
  exact ⟨staged, next, hstaged, hlive, fun p hp => hframed.inside hp, hframed.points_eq_nil_iff,
    hframed.inside_iff⟩

/-- A frame with one mark and nothing else. -/
def loneMark : Schedule.DefectFrame :=
  { circuit := ⟨[⟨1, 1, 2, 3⟩], [], [1]⟩
    connections := .empty
    debug := []
    boxes := .empty }

/-- A mesh with the mark is uploaded, but no bounds are reported, and the mark lies outside of the
bounds of the viewer. -/
theorem showDefects_loneMark :
    let shown := (start (.empty none) .default).showDefects loneMark
    ∃ summary staged, shown.1 = .ok summary ∧
      stageDefects .default loneMark .empty = .done staged ∧
      staged.payloads.length = 1 ∧ summary.meshes = 1 ∧ summary.bounds = none ∧
      ∃ p ∈ staged.payloads, p.layer = .injections ∧ ¬p.Inside shown.2.bounds := by
  intro shown
  refine ⟨shown.2.summary, (stageDefects .default loneMark .empty).state, ?_, Attempt.eq_done ?_,
    ?_, ?_, ?_, ?_⟩
  all_goals decide +kernel

/-- A frame with a box and a mark far away from it. -/
def farMark : Schedule.DefectFrame :=
  { circuit := ⟨[⟨1, 9, 9, 9⟩], [], [1]⟩
    connections := .empty
    debug := []
    boxes := ⟨[⟨1, ⟨0, 0, 0⟩⟩], ⟨[(1, ⟨2, 2, 2⟩)]⟩⟩ }

/-- The only box of the frame with a mark far away has finite numbers. -/
theorem isFinite_boxes_farMark : farMark.boxes.IsFinite := by
  intro placement hplacement box hbox
  obtain rfl : placement = ⟨1, ⟨0, 0, 0⟩⟩ := List.mem_singleton.mp hplacement
  obtain rfl : ⟨⟨0, 0, 0⟩, ⟨2, 2, 2⟩⟩ = box := Except.ok.inj hbox
  decide +kernel

/-- The box lies inside of the bounds, and the mark does not. -/
theorem showDefects_bounds_farMark :
    let v := start (.empty none) .default
    ∃ staged, stageDefects .default farMark .empty = .done staged ∧
      (∀ p ∈ staged.payloads, p.layer = .boxes → p.Inside (v.showDefects farMark).2.bounds) ∧
      (v.showDefects farMark).2.summary.bounds = some ⟨⟨0, 0, 0⟩, ⟨2, 2, 2⟩⟩ ∧
      ¬∀ p ∈ staged.payloads, p.layer ≠ .boundingBox →
        p.Inside (v.showDefects farMark).2.bounds := by
  intro v
  have hshown : (v.showDefects farMark).1 = .ok (v.showDefects farMark).2.summary := by
    decide +kernel
  obtain ⟨staged, next, hstaged, -, hinside, -⟩ :=
    showDefects_bounds isFinite_boxes_farMark hshown
  have hdone : stageDefects .default farMark .empty =
      .done (stageDefects .default farMark .empty).state :=
    Attempt.eq_done (by decide +kernel)
  have heq : staged = (stageDefects .default farMark .empty).state :=
    Attempt.done_inj.mp (hstaged.symm.trans hdone)
  refine ⟨staged, hstaged, ?_, ?_, ?_⟩
  · intro p hp hlayer
    refine hinside p hp ?_ ?_
    · rw [hlayer]
      decide
    · rw [hlayer]
      decide
  · decide +kernel
  · rw [heq]
    decide +kernel

end Viewer

end LatticeScene.Display
