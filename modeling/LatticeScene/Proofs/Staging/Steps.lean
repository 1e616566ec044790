import LatticeScene.Proofs.Staging.Boxes
import LatticeScene.Proofs.Staging.Lattice
import Mathlib.Logic.Relation

/-!
# The steps of staging

Plumbing schedules, lattice layouts and the boxes of a defect frame are all staged in the same two
kinds of steps: a batch of boxes becomes a payload, or a batch of lines is drawn in chunks, and in
either case the bounds grow around the batch.  `StagingStep` says this once, so that what every step
preserves holds of whole frames (`steps_of_stageBoxes`, `steps_of_stagePlumbing`,
`steps_of_stageLattice`).
-/

namespace LatticeScene.Staging

open Shape Schedule Relation

/-- A step of staging. -/
inductive StagingStep (config : Config) : StagedFrame → StagedFrame → Prop where
  /-- A batch of boxes becomes a payload.  Each of its faces has two triangles. -/
  | boxes {s : StagedFrame} (name : String) (layer : Layer) (style : Style) {batch : BoxBatch}
      {vertices : List (Vec3 Float32)} (hholds : batch.Holds config.accumulatorCapacity vertices)
      (hfaces : 6 ∣ vertices.length) :
      StagingStep config s (s.stageBatch name layer style batch)
  /-- A batch of lines is drawn in one stroke. -/
  | lines {s : StagedFrame} (name : String) (layer : Layer) (stroke : Stroke)
      (segments : List (Vec3 Float32 × Vec3 Float32)) (hlimit : 2 ≤ config.lineChunkVertices) :
      StagingStep config s
        { payloads := s.payloads ++ linePayloads name layer [stroke]
            ((LineBatch.empty.addAll segments).drawn config.lineChunkVertices)
          bounds := s.bounds.union (LineBatch.empty.addAll segments).bounds }

/-! ### Sequences of steps -/

section Sequences

variable {α : Type} {R : StagedFrame → StagedFrame → Prop} {s t : StagedFrame}

/-- Changes that are steps lead from one frame to another by steps. -/
theorem reflTransGen_foldl {f : StagedFrame → α → StagedFrame} {xs : List α}
    (h : ∀ x ∈ xs, ∀ s, R s (f s x)) (s : StagedFrame) : ReflTransGen R s (xs.foldl f s) := by
  induction xs generalizing s with
  | nil => exact .refl
  | cons x xs ih =>
    have hrest := ih (fun y hy => h y (List.mem_cons_of_mem x hy)) (f s x)
    exact .head (h x List.mem_cons_self s) hrest

/-- Attempts that are steps lead from one frame to another by steps, if none of them fails. -/
theorem reflTransGen_of_each {step : StagedFrame → α → StagingAttempt} {xs : List α}
    (h : ∀ x ∈ xs, ∀ s t, step s x = .done t → R s t) (hdone : Attempt.each step s xs = .done t) :
    ReflTransGen R s t := by
  induction xs generalizing s with
  | nil =>
    obtain rfl : s = t := Attempt.done_inj.mp hdone
    exact .refl
  | cons x xs ih =>
    obtain ⟨between, hfirst, hrest⟩ := Attempt.andThen_eq_done_iff.mp hdone
    have hothers := ih (fun y hy => h y (List.mem_cons_of_mem x hy)) hrest
    exact .head (h x List.mem_cons_self s between hfirst) hothers

/-- What every step preserves, a sequence of steps preserves. -/
theorem invariant_of_steps {P : StagedFrame → Prop} (hstep : ∀ s t, R s t → P s → P t)
    (h : ReflTransGen R s t) (hs : P s) : P t := by
  induction h with
  | refl => exact hs
  | tail _ hlast ih => exact hstep _ _ hlast ih

end Sequences

section Builders

variable {config : Config} {s t : StagedFrame}

/-! ### Boxes -/

/-- Whole boxes have whole faces. -/
theorem dvd_length_boxVertices (boxes : List CenteredBox) : 6 ∣ (boxVertices boxes).length := by
  rw [length_boxVertices]
  exact Nat.dvd_trans (by decide) (Nat.dvd_mul_right 36 _)

/-- Boxes are staged in steps. -/
theorem steps_of_stageBoxes {schedule : BoxSchedule}
    (h : stageBoxes config schedule s = .done t) : ReflTransGen (StagingStep config) s t := by
  rcases stageBoxes_cases h with ⟨-, rfl⟩ | ⟨batch, boxes, -, hholds, rfl⟩
  · exact .refl
  · exact .single (.boxes _ _ _ hholds (dvd_length_boxVertices boxes))

/-! ### Plumbing -/

/-- Pieces of plumbing are staged in steps. -/
theorem steps_of_stagePlumbing {schedule : PlumbingSchedule}
    (h : stagePlumbing config schedule s = .done t) : ReflTransGen (StagingStep config) s t := by
  obtain ⟨batches, hholds, rfl⟩ := exists_holds_of_stagePlumbing h
  have hunits : ReflTransGen (StagingStep config) s _ :=
    .single (.boxes "plumbing-units" .plumbingUnits (.outline "grey") hholds.units
      (dvd_length_boxVertices _))
  have hprimals : ReflTransGen (StagingStep config) s _ :=
    hunits.tail (.boxes "plumbing-primals" .plumbingPrimals (.facets "red") hholds.primals
      (dvd_length_boxVertices _))
  exact hprimals.tail (.boxes "plumbing-duals" .plumbingDuals (.facets "blue") hholds.duals
    (dvd_length_boxVertices _))

/-! ### Lattices -/

section Lattices

variable {layout : LatticeLayout}

/-- Surfaces are staged one after the other. -/
theorem SurfacesOf.steps_foldl {cells : List Cell} {surfaces : ColorGroups BoxBatch}
    (h : SurfacesOf config cells surfaces) (s : StagedFrame) :
    ReflTransGen (StagingStep config) s (surfaces.foldl StagedFrame.stageSurface s) := by
  refine reflTransGen_foldl (fun surface hsurface s => ?_) s
  obtain ⟨own, hholds⟩ := h.exists_holds hsurface
  refine .boxes _ _ _ hholds ?_
  rw [length_surfaceVertices]
  exact Nat.dvd_mul_right 6 _

/-- The links of one colour are staged in a step. -/
theorem StagingStep.of_stageLinks {group : String × LineBatch}
    (hgroup : ∃ segments, group.2 = LineBatch.empty.addAll segments)
    (h : stageLinks config s group = .done t) : StagingStep config s t := by
  obtain ⟨name, batch⟩ := group
  obtain ⟨segments, rfl⟩ := hgroup
  have hwhole := LineBatch.isWhole_empty.addAll segments
  unfold stageLinks at h
  by_cases hlimit : config.lineChunkVertices < 2
  · rw [stageLines_of_lt _ _ _ _ _ hlimit] at h
    exact nomatch congrArg Attempt.error? h
  · rw [stageLines_of_le _ _ _ _ _ (Nat.not_lt.mp hlimit) hwhole] at h
    rw [← Attempt.done_inj.mp h]
    exact .lines _ _ _ segments (Nat.not_lt.mp hlimit)

/-- A lattice is staged in steps, first the surfaces and then the links. -/
theorem steps_of_stageLattice (h : stageLattice config layout s = .done t) :
    ReflTransGen (StagingStep config) s t := by
  unfold stageLattice at h
  rcases surfaceGroups_cases config layout.cells with
    ⟨-, surfaces, hok, hsurfaces⟩ | ⟨-, reason, herror⟩
  case inr =>
    rw [herror] at h
    exact nomatch congrArg Attempt.error? h
  rw [hok] at h
  rcases linkGroups_cases layout with ⟨-, groups, hlinks, hgroups⟩ | ⟨id, -, herror⟩
  case inr =>
    rw [herror] at h
    exact nomatch congrArg Attempt.error? h
  rw [hlinks] at h
  have hdrawn : ReflTransGen (StagingStep config) (surfaces.foldl StagedFrame.stageSurface s) t :=
    reflTransGen_of_each
      (fun group hgroup _ _ => StagingStep.of_stageLinks (hgroups.exists_segments hgroup)) h
  exact (hsurfaces.steps_foldl s).trans hdrawn

end Lattices

end Builders

/-!
## The bounds of a frame are those of its vertices

Every step of staging unites the bounds of a frame with those of a batch, and queues the vertices of
the same batch, in one payload or in several (`StagingStep.exists_append`).  So the bounds stay
those of all queued vertices (`Exact.step`), and a frame on which something is staged has its old
bounds united with those of the new vertices (`exists_append_of_steps`), as long as no coordinate is
NaN.
-/

/-- The vertices of all queued payloads. -/
def StagedFrame.vertices (s : StagedFrame) : List (Vec3 Float32) :=
  s.payloads.flatMap (·.mesh.vertices)

/-- The payload of a batch of boxes has the vertices of the batch. -/
theorem vertices_batchPayload {batch : BoxBatch} {capacity : Nat} {vertices : List (Vec3 Float32)}
    (hholds : batch.Holds capacity vertices) (name : String) (layer : Layer) (style : Style) :
    (batchPayload name layer style batch).mesh.vertices = vertices := by
  have hpositions : (batchPayload name layer style batch).mesh.positions.toList =
      vertices.flatMap Vec3.toList := hholds.positions_toMesh
  rw [Mesh.vertices, hpositions, triples_flatMap]

/-- A step of staging queues payloads with vertices, and unites the bounds of the frame with those
of these vertices. -/
theorem StagingStep.exists_append {config : Config} {s t : StagedFrame}
    (hstep : StagingStep config s t) :
    ∃ ps : List Payload,
      t = ⟨s.payloads ++ ps, s.bounds.union (.ofPoints (ps.flatMap (·.mesh.vertices)))⟩ ∧
        ∀ p ∈ ps, p.mesh.vertices ≠ [] := by
  cases hstep with
  | @boxes name layer style batch vertices hholds hfaces =>
    have hmesh := vertices_batchPayload hholds name layer style
    have hempty : (batchPayload name layer style batch).mesh.isEmpty = true ↔ vertices = [] :=
      hholds.isEmpty_toMesh_iff
    refine ⟨queued (batchPayload name layer style batch), ?_, fun p hp => ?_⟩
    · rw [StagedFrame.stageBatch, StagedFrame.stage_eq, StagedFrame.includeBounds,
        hholds.bounds_eq, queued]
      -- without vertices nothing is queued, and the bounds do not change
      by_cases hnil : vertices = []
      · rw [if_pos (hempty.mpr hnil), hnil]
        rfl
      · rw [if_neg (mt hempty.mp hnil), List.flatMap_cons, List.flatMap_nil, List.append_nil,
          hmesh]
    · obtain ⟨hqueued, rfl⟩ := mem_queued_iff.mp hp
      rw [hmesh, Ne, ← hempty, hqueued]
      exact Bool.false_ne_true
  | lines name layer stroke segments hlimit =>
    have hwhole := LineBatch.isWhole_empty.addAll segments
    have hmeshes : ∀ ps : List Payload,
        ps.flatMap (·.mesh.vertices) = (ps.map (·.mesh)).flatMap Mesh.vertices := by
      intro ps
      rw [List.flatMap_map]
    refine ⟨linePayloads name layer [stroke]
      ((LineBatch.empty.addAll segments).drawn config.lineChunkVertices), ?_, fun p hp => ?_⟩
    · rw [hmeshes, map_mesh_linePayloads_singleton, LineBatch.flatMap_vertices_drawn hlimit,
        LineBatch.bounds_addAll_empty]
    · obtain ⟨-, -, hmesh, -⟩ := of_mem_linePayloads hp
      exact LineBatch.vertices_ne_nil_of_mem_drawn hlimit hwhole hmesh

/-- Steps of staging queue payloads, and unite the bounds of the frame with those of all their
vertices. -/
theorem exists_append_of_steps {config : Config} {s t : StagedFrame}
    (hsteps : ReflTransGen (StagingStep config) s t) :
    ∃ ps : List Payload, t.payloads = s.payloads ++ ps ∧
      (s.bounds.IsNumber → (∀ vertex ∈ ps.flatMap (·.mesh.vertices), vertex.IsNumber) →
        t.bounds = s.bounds.union (.ofPoints (ps.flatMap (·.mesh.vertices)))) := by
  induction hsteps with
  | refl =>
    refine ⟨[], (List.append_nil _).symm, fun hs _ => ?_⟩
    exact (Envelope.union_empty hs).symm
  | tail _ hlast ih =>
    obtain ⟨ps, hpayloads, hbounds⟩ := ih
    obtain ⟨more, rfl, -⟩ := hlast.exists_append
    refine ⟨ps ++ more, ?_, fun hs hnumbers => ?_⟩
    · rw [hpayloads, List.append_assoc]
    · rw [List.flatMap_append] at hnumbers ⊢
      have hold := fun vertex hvertex => hnumbers vertex (List.mem_append_left _ hvertex)
      have hnew := fun vertex hvertex => hnumbers vertex (List.mem_append_right _ hvertex)
      rw [hbounds hs hold, Envelope.union_assoc hs (Envelope.isNumber_ofPoints hold)
        (Envelope.isNumber_ofPoints hnew), Envelope.union_ofPoints hnumbers]

/-- The bounds of a frame are those of its vertices, and no payload is without a vertex. -/
structure StagedFrame.Exact (s : StagedFrame) : Prop where
  vertices_ne_nil : ∀ p ∈ s.payloads, p.mesh.vertices ≠ []
  bounds_eq : (∀ vertex ∈ s.vertices, vertex.IsNumber) → s.bounds = .ofPoints s.vertices

namespace StagedFrame.Exact

variable {config : Config} {s t : StagedFrame}

/-- The bounds of an empty frame are exact. -/
theorem empty : StagedFrame.empty.Exact where
  vertices_ne_nil := by
    intro p hp
    exact absurd hp List.not_mem_nil
  bounds_eq _ := rfl

/-- A step of staging keeps the bounds exact. -/
theorem step (hstep : StagingStep config s t) (h : s.Exact) : t.Exact := by
  obtain ⟨ps, rfl, hne⟩ := hstep.exists_append
  have hvertices : (StagedFrame.mk (s.payloads ++ ps)
      (s.bounds.union (.ofPoints (ps.flatMap (·.mesh.vertices))))).vertices =
        s.vertices ++ ps.flatMap (·.mesh.vertices) := List.flatMap_append
  constructor
  · intro p hp
    rcases List.mem_append.mp hp with hold | hnew
    · exact h.vertices_ne_nil p hold
    · exact hne p hnew
  · intro hnumbers
    rw [hvertices] at hnumbers ⊢
    have hold : s.bounds = .ofPoints s.vertices :=
      h.bounds_eq fun vertex hvertex => hnumbers vertex (List.mem_append_left _ hvertex)
    rw [hold]
    exact Envelope.union_ofPoints hnumbers

/-- Steps keep the bounds exact. -/
theorem steps (hsteps : ReflTransGen (StagingStep config) s t) (h : s.Exact) : t.Exact :=
  invariant_of_steps (fun _ _ => step) hsteps h

/-- A frame without payloads has no vertices. -/
theorem vertices_eq_nil_iff (h : s.Exact) : s.vertices = [] ↔ s.payloads = [] := by
  constructor
  · intro hnil
    refine List.eq_nil_iff_forall_not_mem.mpr fun p hp => h.vertices_ne_nil p hp ?_
    exact List.flatMap_eq_nil_iff.mp hnil p hp
  · intro hnil
    rw [StagedFrame.vertices, hnil, List.flatMap_nil]

end StagedFrame.Exact

end LatticeScene.Staging
