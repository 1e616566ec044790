import LatticeScene.Proofs.Shape.FiniteBox
import LatticeScene.Proofs.Staging.Steps
import LatticeScene.Proofs.Staging.Defects

/-!
# What the bounds of a frame of defects enclose

The bounds of a frame of defects are those of the vertices of its boxes and of the ends of its lines
(`exists_encloses_of_stageDefects`).  The marks of injections are queued, but the bounds do not grow
around them.  No coordinate is NaN if the boxes are finite: nodes have integer coordinates.
-/

namespace LatticeScene.Schedule

/-- All boxes that are placed are finite. -/
def BoxSchedule.IsFinite (schedule : BoxSchedule) : Prop :=
  ∀ placement ∈ schedule.placements, ∀ box, schedule.box placement = .ok box → box.IsFinite

/-- The coordinates of a node are rounded, but not to NaN. -/
theorem DefectNode.isNumber_position (node : DefectNode) : node.position.IsNumber :=
  Shape.Axis.forall_iff.mpr
    ⟨Binary32.isNaN_ofInt _, Binary32.isNaN_ofInt _, Binary32.isNaN_ofInt _⟩

end LatticeScene.Schedule

namespace LatticeScene.Staging

open Shape Schedule

/-! ### Boxes -/

/-- The vertices of boxes with finite extents around centres without NaN. -/
theorem isNumber_of_mem_boxVertices {boxes : List CenteredBox}
    (h : ∀ box ∈ boxes, box.center.IsNumber ∧ box.dimensions.IsFinite) {vertex : Vec3 Float32}
    (hvertex : vertex ∈ boxVertices boxes) : vertex.IsNumber := by
  obtain ⟨box, hbox, hmem⟩ := List.mem_flatMap.mp hvertex
  obtain ⟨face, -, htriangles⟩ := List.mem_flatMap.mp hmem
  exact isNumber_of_mem_triangles (h box hbox).1 (h box hbox).2 htriangles

/-- The boxes that finite placements stand for. -/
theorem finite_of_isPlaced {schedule : BoxSchedule} {placements : List Placement}
    {boxes : List CenteredBox} (hplaced : List.Forall₂ (IsPlaced schedule) placements boxes)
    (hfinite : ∀ placement ∈ placements, ∀ box, schedule.box placement = .ok box → box.IsFinite) :
    ∀ box ∈ boxes, box.center.IsNumber ∧ box.dimensions.IsFinite := by
  induction hplaced with
  | nil => exact fun box hbox => absurd hbox List.not_mem_nil
  | @cons placement box placements boxes hbox _ ih =>
    intro other hother
    rcases List.mem_cons.mp hother with rfl | hrest
    · obtain ⟨corner, hcorner, rfl⟩ := hbox
      have hcornerFinite := hfinite placement List.mem_cons_self corner hcorner
      exact ⟨hcornerFinite.isNumber_center, hcornerFinite.2⟩
    · exact ih (fun placement hplacement => hfinite placement (List.mem_cons_of_mem _ hplacement))
        other hrest

section Boxes

variable {config : Config} {schedule : BoxSchedule} {s : StagedFrame}

/-- Finite boxes are queued with vertices that are not NaN, on a layer of their own. -/
theorem isNumber_of_stageBoxes (hfinite : schedule.IsFinite)
    (h : stageBoxes config schedule .empty = .done s) :
    (∀ p ∈ s.payloads, p.layer = .boxes) ∧ ∀ vertex ∈ s.vertices, vertex.IsNumber := by
  rcases stageBoxes_cases h with ⟨-, rfl⟩ | ⟨batch, boxes, hplaced, hholds, rfl⟩
  · exact ⟨fun p hp => absurd hp List.not_mem_nil, fun v hv => absurd hv List.not_mem_nil⟩
  · have hpayload : ∀ p ∈ (StagedFrame.empty.stageBatch "boxes" .boxes (.facets "green")
        batch).payloads, p = batchPayload "boxes" .boxes (.facets "green") batch := by
      intro p hp
      rw [StagedFrame.stageBatch, StagedFrame.payloads_stage] at hp
      exact mem_queued hp
    constructor
    · intro p hp
      rw [hpayload p hp]
      rfl
    · intro vertex hvertex
      obtain ⟨p, hp, hmem⟩ := List.mem_flatMap.mp hvertex
      rw [hpayload p hp, vertices_batchPayload hholds] at hmem
      exact isNumber_of_mem_boxVertices (finite_of_isPlaced hplaced hfinite) hmem

end Boxes

/-! ### Lines and marks -/

/-- Both ends of lines. -/
def lineEnds (lines : List DefectLine) : List (Vec3 Float32) :=
  (lines.map DefectLine.segment).flatMap LineBatch.ends

/-- The ends of lines are the positions of nodes, and so without NaN. -/
theorem isNumber_of_mem_lineEnds {lines : List DefectLine} {point : Vec3 Float32}
    (h : point ∈ lineEnds lines) : point.IsNumber := by
  obtain ⟨segment, hsegment, hpoint⟩ := List.mem_flatMap.mp h
  obtain ⟨line, -, rfl⟩ := List.mem_map.mp hsegment
  rcases List.mem_cons.mp hpoint with rfl | hlast
  · exact line.1.isNumber_position
  · rw [List.mem_singleton.mp hlast]
    exact line.2.isNumber_position

/-- The vertices of the marks are where states are injected. -/
theorem vertices_injectionPayload (injections : List (Vec3 Float32)) :
    (injectionPayload injections).mesh.vertices = injections :=
  triples_flatMap injections

namespace DefectBatches

/-- Envelopes of batches are united one after the other. -/
theorem foldl_union_bounds (lists : List (List DefectLine)) {points : List (Vec3 Float32)}
    (hpoints : ∀ point ∈ points, point.IsNumber) :
    (lists.map (drawAll .empty)).foldl (fun bounds batch => bounds.union batch.bounds)
      (Envelope.ofPoints points) = .ofPoints (points ++ lists.flatMap lineEnds) := by
  induction lists generalizing points with
  | nil => rw [List.map_nil, List.foldl_nil, List.flatMap_nil, List.append_nil]
  | cons lines lists ih =>
    have hgrown : ∀ point ∈ points ++ lineEnds lines, point.IsNumber := by
      intro point hpoint
      rcases List.mem_append.mp hpoint with hold | hnew
      · exact hpoints point hold
      · exact isNumber_of_mem_lineEnds hnew
    have hfirst : (drawAll .empty lines).bounds = .ofPoints (lineEnds lines) :=
      LineBatch.bounds_addAll_empty _
    rw [List.map_cons, List.foldl_cons, hfirst, Envelope.union_ofPoints hgrown, ih hgrown,
      List.flatMap_cons, List.append_assoc]

/-- The bounds of batches are those of the ends of all lines. -/
theorem bounds_ofDrawing (drawing : DefectDrawing) :
    (ofDrawing drawing).bounds = .ofPoints ((linesOf drawing).flatMap lineEnds) := by
  have hempty : Envelope.empty = .ofPoints [] := rfl
  rw [bounds, lineBatches_ofDrawing, hempty,
    foldl_union_bounds _ fun point hpoint => absurd hpoint List.not_mem_nil, List.nil_append]

end DefectBatches

/-! ### Frames -/

/-- A payload has a vertex, and unless it is of marks, all its vertices are among some points. -/
structure Payload.EnclosedBy (p : Payload) (points : List (Vec3 Float32)) : Prop where
  layer_ne : p.layer ≠ .boundingBox
  vertices_ne_nil : p.mesh.vertices ≠ []
  mem_points : p.layer ≠ .injections → ∀ vertex ∈ p.mesh.vertices, vertex ∈ points

/-- A payload that is enclosed by some points is enclosed by more of them. -/
theorem Payload.EnclosedBy.mono {p : Payload} {points others : List (Vec3 Float32)}
    (h : p.EnclosedBy points) (hsubset : points ⊆ others) : p.EnclosedBy others :=
  { h with mem_points := fun hlayer vertex hvertex => hsubset (h.mem_points hlayer vertex hvertex) }

/-- Lines are enclosed by their ends. -/
theorem enclosedBy_of_mem_sections {drawing : DefectDrawing} {limit : Nat} (hlimit : 2 ≤ limit)
    {p : Payload} (h : p ∈ Section.contents ((DefectBatches.ofDrawing drawing).sections limit)) :
    p.EnclosedBy ((DefectBatches.linesOf drawing).flatMap lineEnds) := by
  rcases DefectBatches.mem_contents_sections h with
    ⟨batch, hbatch, name, strokes, layer, hlayer, hp⟩ | hmark
  · rw [DefectBatches.lineBatches_ofDrawing] at hbatch
    obtain ⟨lines, hlines, rfl⟩ := List.mem_map.mp hbatch
    obtain ⟨rfl, -, hmesh, -⟩ := of_mem_linePayloads hp
    constructor
    · rintro heq
      rw [heq] at hlayer
      exact absurd hlayer (by decide)
    · exact LineBatch.vertices_ne_nil_of_mem_drawn hlimit (LineBatch.isWhole_empty.addAll _) hmesh
    · intro _ vertex hvertex
      have hends : vertex ∈ lineEnds lines := by
        rw [lineEnds, ← LineBatch.flatMap_vertices_drawn hlimit]
        exact List.mem_flatMap_of_mem hmesh hvertex
      exact List.mem_flatMap_of_mem hlines hends
  · obtain ⟨hne, rfl⟩ := mem_queued_iff.mp hmark
    constructor
    · exact Layer.noConfusion
    · rw [vertices_injectionPayload]
      intro hnil
      rw [hnil] at hne
      exact absurd hne (by decide)
    · intro hlayer
      exact absurd rfl hlayer

/-- The bounds of a frame are those of points that enclose its payloads. -/
structure StagedFrame.Encloses (s : StagedFrame) (points : List (Vec3 Float32)) : Prop where
  isNumber : ∀ point ∈ points, point.IsNumber
  bounds_eq : s.bounds = .ofPoints points
  enclosedBy : ∀ p ∈ s.payloads, p.EnclosedBy points

/-- A frame of defects with finite boxes is staged around the vertices of its boxes and the ends of
its lines, and last of all it gets a wireframe. -/
theorem exists_encloses_of_stageDefects {config : Config} {frame : DefectFrame} {s : StagedFrame}
    (hfinite : frame.boxes.IsFinite) (h : stageDefects config frame .empty = .done s) :
    ∃ drawn points, drawn.Encloses points ∧ s = (stageFrameBox config drawn).2 := by
  obtain ⟨hlimit, boxed, drawing, -, hboxes, rfl⟩ := exists_of_stageDefects h
  obtain ⟨hlayer, hvertices⟩ := isNumber_of_stageBoxes hfinite hboxes
  have hexact := StagedFrame.Exact.empty.steps (steps_of_stageBoxes hboxes)
  have hnumbers : ∀ point ∈ boxed.vertices ++ (DefectBatches.linesOf drawing).flatMap lineEnds,
      point.IsNumber := by
    intro point hpoint
    rcases List.mem_append.mp hpoint with hvertex | hend
    · exact hvertices point hvertex
    · obtain ⟨lines, -, hlines⟩ := List.mem_flatMap.mp hend
      exact isNumber_of_mem_lineEnds hlines
  -- the bounds grow with boxes and lines, and never with marks
  refine ⟨_, boxed.vertices ++ (DefectBatches.linesOf drawing).flatMap lineEnds,
    ⟨hnumbers, ?bounds, ?payloads⟩, rfl⟩
  case bounds =>
    rw [hexact.bounds_eq hvertices, DefectBatches.bounds_ofDrawing,
      Envelope.union_ofPoints hnumbers]
  case payloads =>
    intro p hp
    rcases List.mem_append.mp hp with hboxed | hdrawn
    · constructor
      · rw [hlayer p hboxed]
        decide
      · exact hexact.vertices_ne_nil p hboxed
      · intro _ vertex hvertex
        exact List.mem_append_left _ (List.mem_flatMap_of_mem hboxed hvertex)
    · exact (enclosedBy_of_mem_sections hlimit hdrawn).mono (List.subset_append_right _ _)

end LatticeScene.Staging
