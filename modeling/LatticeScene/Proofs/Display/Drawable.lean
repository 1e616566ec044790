import LatticeScene.Display.Viewer
import LatticeScene.Proofs.Shape.FlatNormals
import LatticeScene.Proofs.Shape.SegmentedBox
import LatticeScene.Proofs.Staging.Defects
import LatticeScene.Proofs.Staging.Steps

/-!
# Payloads are safe to draw

A payload is `Drawable` if its buffers fit together: there is a vertex, every index names one and
every vertex is named, the indices make whole primitives, and normals come one to a vertex.

Payloads have four origins.  Boxes, lines and markers draw their vertices in order
(`drawable_of_inOrder`), and the wireframe around a frame draws the vertices of its faces several
times (`drawable_wireframePayload`).  No step of staging queues anything else, so that all payloads
of a frame are drawable (`stage_drawable`), unless 32 bits are too few to number the vertices.
-/

namespace LatticeScene.Staging

open Shape Schedule Relation

/-- Whether so many indices make whole primitives.  Points are drawn once for every vertex. -/
def Primitive.Whole (vertices indices : Nat) : Primitive → Prop
  | triangles => 3 ∣ indices
  | lines => 2 ∣ indices
  | points => indices = vertices

/-- A payload whose buffers fit together. -/
structure Payload.Drawable (p : Payload) : Prop where
  positions_ne : p.mesh.positions ≠ #[]
  positions_whole : 3 ∣ p.mesh.positions.size
  index_lt : ∀ i ∈ p.mesh.indices, i.toNat < p.vertexCount
  exists_index : ∀ v < p.vertexCount, ∃ i ∈ p.mesh.indices, i.toNat = v
  indices_whole : p.primitive.Whole p.vertexCount p.mesh.indices.size
  size_normals : ∀ normals, p.normals = some normals → normals.size = p.mesh.positions.size

/-! ### Vertices in order -/

section InOrder

variable {p : Payload}

/-- A payload that draws its vertices in order is drawable if they make whole primitives. -/
theorem drawable_of_inOrder (hne : p.mesh.isEmpty = false) (hpositions : 3 ∣ p.mesh.positions.size)
    (hindices : p.mesh.indices.toList.map UInt32.toNat = List.range p.vertexCount)
    (hwhole : p.primitive.Whole p.vertexCount p.vertexCount)
    (hnormals : ∀ normals, p.normals = some normals → normals.size = p.mesh.positions.size) :
    p.Drawable := by
  have hmem : ∀ v, v < p.vertexCount ↔ ∃ i ∈ p.mesh.indices, i.toNat = v := by
    intro v
    rw [← List.mem_range, ← hindices, List.mem_map]
    simp only [Array.mem_toList_iff]
  have hsize : p.mesh.indices.size = p.vertexCount := by
    have hlength := congrArg List.length hindices
    rwa [List.length_map, List.length_range, Array.length_toList] at hlength
  constructor
  case positions_ne =>
    intro hnone
    rw [Mesh.isEmpty, hnone] at hne
    exact absurd hne (by decide)
  case positions_whole => exact hpositions
  case index_lt =>
    intro i hi
    exact (hmem _).mpr ⟨i, hi, rfl⟩
  case exists_index =>
    intro v hv
    exact (hmem v).mp hv
  case indices_whole => rwa [hsize]
  case size_normals => exact hnormals

/-- A batch of boxes with whole faces makes a drawable payload. -/
theorem drawable_batchPayload {batch : BoxBatch} {capacity : Nat}
    {vertices : List (Vec3 Float32)} (hholds : batch.Holds capacity vertices)
    (hfaces : 6 ∣ vertices.length) (name : String) (layer : Layer) (style : Style)
    (hne : (batchPayload name layer style batch).mesh.isEmpty = false) :
    (batchPayload name layer style batch).Drawable := by
  have hcount : (batchPayload name layer style batch).vertexCount = vertices.length :=
    hholds.vertexCount_toMesh
  apply drawable_of_inOrder hne
  · have hsize : (batchPayload name layer style batch).mesh.positions.size = 3 * vertices.length :=
      hholds.size_positions_toMesh
    rw [hsize]
    exact Nat.dvd_mul_right 3 _
  · rw [hcount]
    exact hholds.indices_toMesh
  · rw [hcount]
    exact Nat.dvd_trans (by decide) hfaces
  · intro normals hnormals
    rw [← Option.some.inj hnormals]
    exact Mesh.size_flatNormals _

/-- The chunks of a batch of lines make drawable payloads. -/
theorem drawable_of_mem_linePayloads {name : String} {layer : Layer} {strokes : List Stroke}
    {batch : LineBatch} {limit : Nat} (hlimit : 2 ≤ limit) (hbatch : batch.IsWhole)
    (hp : p ∈ linePayloads name layer strokes (batch.drawn limit))
    (hsize : p.vertexCount < UInt32.size) : p.Drawable := by
  obtain ⟨-, -, hmesh, -⟩ := of_mem_linePayloads hp
  obtain ⟨hprimitive, hnone⟩ := primitive_of_mem_linePayloads hp
  obtain ⟨positions, hpositions, hsegments⟩ :=
    LineBatch.exists_sequential_of_mem_drawn hlimit hbatch hmesh
  have hcount : p.vertexCount = positions.size / 3 := by
    rw [Payload.vertexCount, hpositions]
    rfl
  apply drawable_of_inOrder
  · exact LineBatch.isEmpty_of_mem_drawn hlimit hbatch hmesh
  · rw [hpositions]
    exact Nat.dvd_trans (by decide) hsegments
  · rw [Payload.vertexCount, hpositions] at hsize ⊢
    exact Mesh.toNat_indices_sequential hsize
  · rw [hprimitive, hcount]
    -- six numbers to a segment are two vertices
    have heven : 2 ∣ positions.size / 3 := by omega
    exact heven
  · intro normals hnormals
    rw [hnone] at hnormals
    exact absurd hnormals.symm (Option.some_ne_none _)

/-- The markers of injections make a drawable payload. -/
theorem drawable_injectionPayload {injections : List (Vec3 Float32)}
    (hne : (injectionPayload injections).mesh.isEmpty = false)
    (hsize : (injectionPayload injections).vertexCount < UInt32.size) :
    (injectionPayload injections).Drawable := by
  apply drawable_of_inOrder hne
  · have hpositions : (injectionPayload injections).mesh.positions.size =
        3 * injections.length := by
      rw [← length_flatMap_toList injections]
      exact List.size_toArray
    rw [hpositions]
    exact Nat.dvd_mul_right 3 _
  · exact Mesh.toNat_indices_sequential hsize
  · exact rfl
  · intro normals hnormals
    exact absurd hnormals.symm (Option.some_ne_none _)

end InOrder

/-! ### The wireframe -/

/-- Moving whole vertices changes no sizes. -/
theorem size_translate (offset : Vec3 Float32) {positions : Array Float32}
    (h : 3 ∣ positions.size) : (translate offset positions).size = positions.size := by
  have hcomponents : (translate offset positions).size =
      3 * (triples positions.toList).length := by
    rw [translate, List.size_toArray]
    exact length_flatMap_of_length (n := 3) (fun _ => rfl) (triples positions.toList)
  rw [hcomponents, length_triples, Array.length_toList]
  exact Nat.mul_div_cancel' h

/-- The wireframe around a frame is drawable. -/
theorem drawable_wireframePayload (box : CornerBox Float32) : (wireframePayload box).Drawable := by
  have hcount := SegmentedBox.vertexCount_ofAllFaces_one box.dimensions
  have horder : (SegmentedBox.ofAllFaces box.dimensions (Vec3.splat 1)).InOrder := by
    refine SegmentedBox.inOrder_ofFaces _ _ _ ?_
    exact Nat.le_trans (Nat.le_of_eq hcount) (by decide)
  have hsize : (wireframePayload box).mesh.positions.size =
      (SegmentedBox.ofAllFaces box.dimensions (Vec3.splat 1)).positions.size :=
    size_translate box.center horder.positions_whole
  have hvertices : (wireframePayload box).vertexCount =
      (SegmentedBox.ofAllFaces box.dimensions (Vec3.splat 1)).vertexCount := by
    rw [Payload.vertexCount, Mesh.vertexCount, hsize]
    rfl
  -- moving the box changes neither the number of vertices nor an index
  constructor
  case positions_ne =>
    intro hnone
    rw [hvertices.symm.trans (congrArg (·.size / 3) hnone)] at hcount
    exact absurd hcount (by decide)
  case positions_whole =>
    rw [hsize]
    exact horder.positions_whole
  case index_lt =>
    rw [hvertices]
    exact horder.index_lt
  case exists_index =>
    rw [hvertices]
    exact horder.exists_index
  case indices_whole => exact horder.indices_whole
  case size_normals =>
    intro normals hnormals
    rw [hsize, ← Option.some.inj hnormals]
    exact horder.size_normals

/-! ### Frames -/

/-- Every payload of a frame is drawable if 32 bits can number its vertices. -/
def StagedFrame.Safe (s : StagedFrame) : Prop :=
  ∀ p ∈ s.payloads, p.vertexCount < UInt32.size → p.Drawable

namespace StagedFrame.Safe

variable {config : Config} {s t : StagedFrame}

/-- A frame with nothing staged is safe. -/
theorem empty : StagedFrame.empty.Safe := by
  intro p hp
  exact absurd hp List.not_mem_nil

/-- Payloads that are drawable themselves keep a frame safe, whatever becomes of its bounds. -/
theorem append {ps : List Payload} {bounds : Envelope} (h : s.Safe)
    (hps : ∀ p ∈ ps, p.vertexCount < UInt32.size → p.Drawable) :
    (StagedFrame.mk (s.payloads ++ ps) bounds).Safe := by
  intro p hp
  rcases List.mem_append.mp hp with hold | hnew
  · exact h p hold
  · exact hps p hnew

/-- A payload that is drawable unless its mesh is empty keeps a frame safe, since an empty mesh is
not queued. -/
theorem stage {p : Payload} (h : s.Safe)
    (hp : p.mesh.isEmpty = false → p.vertexCount < UInt32.size → p.Drawable) :
    (s.stage p).Safe := by
  rw [stage_eq]
  refine h.append fun q hq => ?_
  obtain ⟨hne, rfl⟩ := mem_queued_iff.mp hq
  exact hp hne

/-- A step of staging queues drawable payloads. -/
theorem step (hstep : StagingStep config s t) (h : s.Safe) : t.Safe := by
  cases hstep with
  | @boxes name layer style batch _ hholds hfaces =>
    have hgrown : (s.includeBounds batch.bounds).Safe := h
    exact hgrown.stage fun hne _ => drawable_batchPayload hholds hfaces name layer style hne
  | lines name layer stroke segments hlimit =>
    refine h.append fun p hp hsize => ?_
    exact drawable_of_mem_linePayloads hlimit (LineBatch.isWhole_empty.addAll segments) hp hsize

/-- Steps of staging keep a frame safe. -/
theorem steps (hsteps : ReflTransGen (StagingStep config) s t) (h : s.Safe) : t.Safe :=
  invariant_of_steps (fun _ _ => step) hsteps h

/-- The lines and markers of a frame of defects are drawable. -/
theorem sections {b : DefectBatches} {limit : Nat} {bounds : Envelope} (h : s.Safe)
    (hlimit : 2 ≤ limit) (hb : b.IsWhole) :
    (StagedFrame.mk (s.payloads ++ Section.contents (b.sections limit)) bounds).Safe := by
  refine h.append fun p hp hsize => ?_
  rcases DefectBatches.mem_contents_sections hp with ⟨batch, hbatch, _, _, _, -, hmem⟩ | hqueued
  · exact drawable_of_mem_linePayloads hlimit (hb batch hbatch) hmem hsize
  · obtain ⟨hne, rfl⟩ := mem_queued_iff.mp hqueued
    exact drawable_injectionPayload hne hsize

/-- The wireframe keeps a frame safe. -/
theorem stageFrameBox (h : s.Safe) : (Staging.stageFrameBox config s).2.Safe := by
  unfold Staging.stageFrameBox
  cases s.bounds.toBox? with
  | none => exact h
  | some box => exact h.stage fun _ _ => drawable_wireframePayload box

end StagedFrame.Safe

/-- If a defect frame, a plumbing schedule or a lattice layout is staged, then each of its payloads
is safe to draw: its indices name all of its vertices and nothing else, and its buffers have the
lengths that a device relies on. -/
theorem stage_drawable {config : Config} {subject : Display.Subject} {s : StagedFrame}
    (h : subject.stage config .empty = .done s) :
    ∀ p ∈ s.payloads, p.vertexCount < UInt32.size → p.Drawable := by
  cases subject with
  | defects frame =>
    obtain ⟨hlimit, boxed, drawing, -, hboxes, rfl⟩ := exists_of_stageDefects h
    have hboxed : boxed.Safe := StagedFrame.Safe.empty.steps (steps_of_stageBoxes hboxes)
    exact (hboxed.sections hlimit (DefectBatches.isWhole_ofDrawing drawing)).stageFrameBox
  | plumbing schedule => exact StagedFrame.Safe.empty.steps (steps_of_stagePlumbing h)
  | lattice layout => exact StagedFrame.Safe.empty.steps (steps_of_stageLattice h)

/-- A frame with payloads of all four origins is drawable. -/
theorem stage_drawable_crowded :
    ∃ s, (Display.Subject.defects crowdedFrame).stage crowdedConfig .empty = .done s ∧
      s.payloads.length = 16 ∧ ∀ p ∈ s.payloads, p.Drawable := by
  have hdone : (Display.Subject.defects crowdedFrame).stage crowdedConfig .empty =
      .done (stageDefects crowdedConfig crowdedFrame .empty).state :=
    Attempt.eq_done (by decide +kernel)
  have hnumbered : (stageDefects crowdedConfig crowdedFrame .empty).state.payloads.length = 16 ∧
      ∀ p ∈ (stageDefects crowdedConfig crowdedFrame .empty).state.payloads,
        p.vertexCount < UInt32.size := by decide +kernel
  refine ⟨_, hdone, hnumbered.1, ?_⟩
  intro p hp
  exact stage_drawable hdone p hp (hnumbered.2 p hp)

end LatticeScene.Staging
