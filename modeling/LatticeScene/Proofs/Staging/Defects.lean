import LatticeScene.Proofs.Staging.Boxes
import LatticeScene.Proofs.Staging.DefectBatches

/-!
# Every defect edge is drawn where it belongs

A frame of defects that is staged is queued in sections: boxes, the batches of its lines, its
injections and the wireframe around it.  The payloads of the primal and of the dual lattice draw the
edges of the circuit and of the connections whose first ends are on that lattice, once in each
stroke; the last edge of either graph is drawn once more; and the payloads of a debug graph, which
are told by their names, draw all its edges.
-/

namespace LatticeScene.Staging

open Shape Schedule

/-! ### The sections of a frame -/

/-- All boxes of a schedule are one section, if there are any. -/
theorem exists_sections_of_stageBoxes {config : Config} {schedule : BoxSchedule}
    {s t : StagedFrame} (h : stageBoxes config schedule s = .done t) :
    ∃ sections : List Section,
      (∀ part ∈ sections, part.layer = .boxes ∧ part.stem = "boxes") ∧
        t.payloads = s.payloads ++ Section.contents sections := by
  rcases stageBoxes_cases h with ⟨-, rfl⟩ | ⟨batch, -, -, -, rfl⟩
  · exact ⟨[], fun part hpart => absurd hpart List.not_mem_nil, (List.append_nil _).symm⟩
  · refine ⟨[.ofPayload (batchPayload "boxes" .boxes (.facets "green") batch)], ?_, ?_⟩
    · intro part hpart
      rw [List.mem_singleton.mp hpart]
      exact ⟨rfl, rfl⟩
    · rw [StagedFrame.stageBatch, StagedFrame.payloads_stage, StagedFrame.payloads_includeBounds,
        Section.contents_cons, Section.contents_nil, List.append_nil]
      rfl

/-- The wireframe around a frame is one section, if there is one. -/
theorem exists_sections_of_stageFrameBox (config : Config) (s : StagedFrame) :
    ∃ sections : List Section,
      (∀ part ∈ sections, part.layer = .boundingBox ∧ part.stem = "bounding-box") ∧
        (stageFrameBox config s).2.payloads = s.payloads ++ Section.contents sections := by
  unfold stageFrameBox
  cases s.bounds.toBox? with
  | none => exact ⟨[], fun part hpart => absurd hpart List.not_mem_nil, (List.append_nil _).symm⟩
  | some box =>
    refine ⟨[.ofPayload (wireframePayload box)], ?_, ?_⟩
    · intro part hpart
      rw [List.mem_singleton.mp hpart]
      exact ⟨rfl, rfl⟩
    · rw [Section.contents_cons, Section.contents_nil, List.append_nil]
      exact StagedFrame.payloads_stage s _

/-- A frame holds the sections of a drawing, between its boxes and the wireframe around it. -/
structure StagedFrame.Holds (s : StagedFrame) (drawing : DefectDrawing) (limit : Nat)
    (before after : List Section) : Prop where
  boxes : ∀ part ∈ before, part.layer = .boxes ∧ part.stem = "boxes"
  wireframe : ∀ part ∈ after, part.layer = .boundingBox ∧ part.stem = "bounding-box"
  payloads_eq : s.payloads =
    Section.contents (before ++ ((DefectBatches.ofDrawing drawing).sections limit ++ after))

/-- A frame of defects is staged as its boxes, then the batches of a drawing of it, and then a box
around them. -/
theorem exists_of_stageDefects {config : Config} {frame : DefectFrame} {s t : StagedFrame}
    (h : stageDefects config frame s = .done t) :
    2 ≤ config.lineChunkVertices ∧ ∃ boxed drawing, frame.DrawnAs drawing ∧
      stageBoxes config frame.boxes s = .done boxed ∧
        t = (stageFrameBox config
          { payloads := boxed.payloads ++
              Section.contents ((DefectBatches.ofDrawing drawing).sections config.lineChunkVertices)
            bounds := boxed.bounds.union (DefectBatches.ofDrawing drawing).bounds }).2 := by
  obtain ⟨drawn, hdrawn, hbox⟩ := Attempt.andThen_eq_done_iff.mp h
  obtain ⟨boxed, hboxes, hbatches⟩ := Attempt.andThen_eq_done_iff.mp hdrawn
  cases hframe : (DefectBatches.ofFrame frame).toExcept with
  | error failure =>
    rw [hframe] at hbatches
    exact nomatch congrArg Attempt.error? hbatches
  | ok batches =>
    rw [hframe] at hbatches
    obtain ⟨drawing, hdrawing, rfl⟩ :=
      DefectBatches.exists_drawnAs_of_ofFrame (Attempt.toExcept_eq_ok_iff.mp hframe)
    obtain ⟨hlimit, rfl⟩ :=
      DefectBatches.eq_of_stageBatches (DefectBatches.isWhole_ofDrawing drawing) hbatches
    exact ⟨hlimit, boxed, drawing, hdrawing, hboxes, (Attempt.done_inj.mp hbox).symm⟩

/-- A frame of defects that is staged has the sections of what is drawn of it. -/
theorem exists_holds_of_stageDefects {config : Config} {frame : DefectFrame} {s : StagedFrame}
    (h : stageDefects config frame .empty = .done s) :
    2 ≤ config.lineChunkVertices ∧ ∃ drawing before after, frame.DrawnAs drawing ∧
      s.Holds drawing config.lineChunkVertices before after := by
  obtain ⟨hlimit, boxed, drawing, hdrawing, hboxes, rfl⟩ := exists_of_stageDefects h
  obtain ⟨before, hbefore, hboxed⟩ := exists_sections_of_stageBoxes hboxes
  obtain ⟨after, hafter, hend⟩ := exists_sections_of_stageFrameBox config
    { payloads := boxed.payloads ++
        Section.contents ((DefectBatches.ofDrawing drawing).sections config.lineChunkVertices)
      bounds := boxed.bounds.union (DefectBatches.ofDrawing drawing).bounds }
  refine ⟨hlimit, drawing, before, after, hdrawing, hbefore, hafter, ?_⟩
  have hempty : StagedFrame.empty.payloads = [] := rfl
  rw [hend, hboxed, hempty, List.nil_append, Section.contents_append, Section.contents_append,
    List.append_assoc]

namespace StagedFrame.Holds

variable {s : StagedFrame} {drawing : DefectDrawing} {limit : Nat} {before after : List Section}

/-- The layers of lines and marks have nothing but the sections of the drawing. -/
theorem onLayer_eq (h : s.Holds drawing limit before after) {layer : Layer}
    (hboxes : layer ≠ .boxes) (hwireframe : layer ≠ .boundingBox) :
    s.onLayer layer = Section.contents
      (((DefectBatches.ofDrawing drawing).sections limit).filter (·.layer == layer)) := by
  have hbefore : before.filter (·.layer == layer) = [] :=
    Section.filter_layer_eq_nil (fun part hpart => (h.boxes part hpart).1) (Ne.symm hboxes)
  have hafter : after.filter (·.layer == layer) = [] :=
    Section.filter_layer_eq_nil (fun part hpart => (h.wireframe part hpart).1)
      (Ne.symm hwireframe)
  rw [onLayer, h.payloads_eq, Section.filter_layer_contents, List.filter_append,
    List.filter_append, hbefore, hafter, List.nil_append, List.append_nil]

/-- Apart from the boxes, the debug graphs and the wireframe, a layer has at most one section. -/
theorem onLayer_eq_of_ne_debug (h : s.Holds drawing limit before after) {layer : Layer}
    (hboxes : layer ≠ .boxes) (hwireframe : layer ≠ .boundingBox) (hdebug : layer ≠ .debug) :
    s.onLayer layer = Section.contents
      (((DefectBatches.ofDrawing drawing).circuitSections limit ++
        [Section.ofPayload (injectionPayload (DefectBatches.ofDrawing drawing).injections)]).filter
          (·.layer == layer)) := by
  rw [h.onLayer_eq hboxes hwireframe, DefectBatches.filter_layer_sections _ _ hdebug]

/-- On the primal layer there are the chunks of the primal batch, each in all strokes of that layer.
-/
theorem onLayer_primal (h : s.Holds drawing limit before after) :
    s.onLayer .primal = linePayloads "primal" .primal primalStrokes
      ((DefectBatches.ofDrawing drawing).primal.drawn limit) := by
  rw [h.onLayer_eq_of_ne_debug (by decide) (by decide) (by decide)]
  exact List.append_nil _

/-- On the dual layer there are the chunks of the dual batch, each in all strokes of that layer. -/
theorem onLayer_dual (h : s.Holds drawing limit before after) :
    s.onLayer .dual = linePayloads "dual" .dual dualStrokes
      ((DefectBatches.ofDrawing drawing).dual.drawn limit) := by
  rw [h.onLayer_eq_of_ne_debug (by decide) (by decide) (by decide)]
  exact List.append_nil _

/-- On the layer of what does not work there are the chunks of that batch, each in one stroke. -/
theorem onLayer_notWorking (h : s.Holds drawing limit before after) :
    s.onLayer .notWorking = linePayloads "not-working" .notWorking notWorkingStrokes
      ((DefectBatches.ofDrawing drawing).notWorking.drawn limit) := by
  rw [h.onLayer_eq_of_ne_debug (by decide) (by decide) (by decide)]
  exact List.append_nil _

/-- On the layer of injections there is one payload with all marks, unless there are none. -/
theorem onLayer_injections (h : s.Holds drawing limit before after) :
    s.onLayer .injections =
      queued (injectionPayload (drawing.marks.flatten.map DefectNode.position)) := by
  rw [h.onLayer_eq_of_ne_debug (by decide) (by decide) (by decide)]
  exact List.append_nil _

/-- The name of a debug graph selects its section from the whole frame. -/
theorem filter_hasStem_eq (h : s.Holds drawing limit before after) (i : Nat) :
    s.payloads.filter (·.hasStem (DefectBatches.debugStem i)) =
      Section.contents (((DefectBatches.ofDrawing drawing).sections limit).filter
        (·.stem == DefectBatches.debugStem i)) := by
  have hboxes : ∀ part ∈ before, Apart (DefectBatches.debugStem i) part.stem := by
    intro part hpart
    rw [(h.boxes part hpart).2]
    exact DefectBatches.apart_debugStem_of_mem i (by decide)
  have hwireframe : ∀ part ∈ after, Apart (DefectBatches.debugStem i) part.stem := by
    intro part hpart
    rw [(h.wireframe part hpart).2]
    exact DefectBatches.apart_debugStem_of_mem i (by decide)
  -- the sections in front are those of boxes, and behind there is the wireframe
  rw [h.payloads_eq, Section.filter_stem_contents, List.filter_append, List.filter_append,
    Section.filter_stem_eq_nil hboxes, Section.filter_stem_eq_nil hwireframe, List.nil_append,
    List.append_nil]
  intro part hpart
  rcases List.mem_append.mp hpart with hpart | hpart
  · exact Or.inr (hboxes part hpart)
  · rcases List.mem_append.mp hpart with hpart | hpart
    · exact DefectBatches.stem_eq_or_apart _ _ i hpart
    · exact Or.inr (hwireframe part hpart)

/-- The payloads named for a debug graph have the positions of its lines. -/
theorem positionsOf_filter_hasStem (h : s.Holds drawing limit before after) (hlimit : 2 ≤ limit)
    (i : Nat) :
    positionsOf (s.payloads.filter (·.hasStem (DefectBatches.debugStem i))) =
      linePositions (drawing.debug[i]?.getD []) := by
  have hgraph : (DefectBatches.ofDrawing drawing).debug[i]? =
      drawing.debug[i]?.map (DefectBatches.drawAll .empty) := List.getElem?_map
  rw [h.filter_hasStem_eq, DefectBatches.filter_stem_sections, hgraph]
  cases drawing.debug[i]? with
  | none => rfl
  | some lines =>
    obtain ⟨stroke, hstroke⟩ := DefectBatches.exists_debugStrokes i
    have hpayloads : Section.contents [DefectBatches.debugSection limit
        (DefectBatches.drawAll .empty lines, i)] = linePayloads s!"debug-{i}" .debug [stroke]
          ((DefectBatches.drawAll .empty lines).drawn limit) := by
      rw [← hstroke]
      exact List.append_nil _
    refine (congrArg positionsOf hpayloads).trans ?_
    rw [positionsOf_linePayloads_singleton]
    exact DefectBatches.flatMap_drawn_drawAll hlimit lines

/-- Every payload on the layer of debug graphs has the name of one of them. -/
theorem exists_hasStem_of_mem_debug (h : s.Holds drawing limit before after) {p : Payload}
    (hp : p ∈ s.onLayer .debug) :
    ∃ i < drawing.debug.length, p.hasStem (DefectBatches.debugStem i) = true := by
  rw [h.onLayer_eq (by decide) (by decide)] at hp
  obtain ⟨part, hpart, hmem⟩ := List.mem_flatMap.mp hp
  obtain ⟨hsection, hlayer⟩ := List.mem_filter.mp hpart
  obtain ⟨numbered, hnumbered, rfl⟩ :=
    DefectBatches.exists_debugSection_of_layer _ _ hsection (beq_iff_eq.mp hlayer)
  have hlt : numbered.2 < (drawing.debug.map (DefectBatches.drawAll .empty)).length :=
    List.snd_lt_of_mem_zipIdx hnumbered
  rw [List.length_map] at hlt
  exact ⟨numbered.2, hlt, Section.hasStem _ p hmem⟩

end StagedFrame.Holds

/-- If a frame of defects is staged, then every reference in it names a node, and the payloads draw
the edges between the named nodes: on the primal layer, in each of its strokes, those edges of the
circuit and then of the connections whose first ends have odd coordinates; on the dual layer those
with even ones; on the layer of what is not working the last edge of either graph; under the name of
a debug graph all its edges; and at most one payload marks all injections. -/
theorem stageDefects_draws_every_edge {config : Config} {frame : DefectFrame} {s : StagedFrame}
    (h : stageDefects config frame .empty = .done s) :
    ∃ drawing, frame.DrawnAs drawing ∧
      (∀ stroke ∈ primalStrokes,
        positionsOf ((s.onLayer .primal).filter (·.style == stroke.style)) =
          linePositions ((drawing.circuit ++ drawing.connections).filter (·.1.IsOdd))) ∧
      (∀ p ∈ s.onLayer .primal, ∃ stroke ∈ primalStrokes, p.style = stroke.style) ∧
      (∀ stroke ∈ dualStrokes,
        positionsOf ((s.onLayer .dual).filter (·.style == stroke.style)) =
          linePositions ((drawing.circuit ++ drawing.connections).filter (·.1.IsEven))) ∧
      (∀ p ∈ s.onLayer .dual, ∃ stroke ∈ dualStrokes, p.style = stroke.style) ∧
      positionsOf (s.onLayer .notWorking) =
        linePositions (drawing.circuit.getLast?.toList ++ drawing.connections.getLast?.toList) ∧
      (∀ i : Nat, positionsOf (s.payloads.filter (·.hasStem s!"debug-{i}-")) =
        linePositions (drawing.debug[i]?.getD [])) ∧
      (∀ p ∈ s.onLayer .debug, ∃ i < drawing.debug.length, p.hasStem s!"debug-{i}-" = true) ∧
      (s.onLayer .injections).length ≤ 1 ∧
      positionsOf (s.onLayer .injections) =
        drawing.marks.flatten.flatMap fun node => node.position.toList := by
  obtain ⟨hlimit, drawing, before, after, hdrawn, hholds⟩ := exists_holds_of_stageDefects h
  refine ⟨drawing, hdrawn, ?primal, ?primalStyles, ?dual, ?dualStyles, ?notWorking, ?debug,
    ?debugNames, ?onePayload, ?injections⟩
  case primal =>
    intro stroke hstroke
    rw [hholds.onLayer_primal, positionsOf_filter_linePayloads (by decide) hstroke]
    exact DefectBatches.flatMap_drawn_drawAll hlimit _
  case primalStyles =>
    intro p hp
    rw [hholds.onLayer_primal] at hp
    exact (of_mem_linePayloads hp).2.1
  case dual =>
    intro stroke hstroke
    rw [hholds.onLayer_dual, positionsOf_filter_linePayloads (by decide) hstroke]
    exact DefectBatches.flatMap_drawn_drawAll hlimit _
  case dualStyles =>
    intro p hp
    rw [hholds.onLayer_dual] at hp
    exact (of_mem_linePayloads hp).2.1
  case notWorking =>
    rw [hholds.onLayer_notWorking, notWorkingStrokes, positionsOf_linePayloads_singleton]
    exact DefectBatches.flatMap_drawn_drawAll hlimit _
  case debug =>
    exact hholds.positionsOf_filter_hasStem hlimit
  case debugNames =>
    exact fun p hp => hholds.exists_hasStem_of_mem_debug hp
  case onePayload =>
    rw [hholds.onLayer_injections]
    exact length_queued_le _
  case injections =>
    rw [hholds.onLayer_injections, positionsOf_queued, injectionPayload, List.flatMap_map]
    rfl

/-- A chunk of lines holds one segment, and a batch of boxes one box. -/
def crowdedConfig : Config :=
  { Config.default with accumulatorCapacity := 36, lineChunkVertices := 3 }

/-- A circuit with edges on both lattices and one on neither, connections, two debug graphs,
injections and a box. -/
def crowdedFrame : DefectFrame :=
  { circuit :=
      { nodes := [⟨1, -1, 3, 5⟩, ⟨2, 0, -2, 4⟩, ⟨3, 1, 2, 3⟩]
        edges := [(1, 2), (2, 1), (1, 3), (3, 2)]
        injections := [3] }
    connections := { nodes := [⟨1, 7, 7, -7⟩, ⟨2, 8, 8, 8⟩], edges := [(1, 2)], injections := [] }
    debug :=
      [⟨[⟨1, 0, 0, 0⟩, ⟨2, 1, 0, 0⟩], [(1, 2), (2, 1)], [2]⟩, ⟨[⟨1, 9, 9, 9⟩], [(1, 1)], []⟩]
    boxes := ⟨[⟨1, ⟨0, 0, 0⟩⟩], ⟨[(1, ⟨2, 2, 2⟩)]⟩⟩ }

/-- What is drawn of the crowded frame. -/
def crowdedDrawing : DefectDrawing :=
  { circuit :=
      [(⟨1, -1, 3, 5⟩, ⟨2, 0, -2, 4⟩), (⟨2, 0, -2, 4⟩, ⟨1, -1, 3, 5⟩),
        (⟨1, -1, 3, 5⟩, ⟨3, 1, 2, 3⟩), (⟨3, 1, 2, 3⟩, ⟨2, 0, -2, 4⟩)]
    connections := [(⟨1, 7, 7, -7⟩, ⟨2, 8, 8, 8⟩)]
    debug :=
      [[(⟨1, 0, 0, 0⟩, ⟨2, 1, 0, 0⟩), (⟨2, 1, 0, 0⟩, ⟨1, 0, 0, 0⟩)],
        [(⟨1, 9, 9, 9⟩, ⟨1, 9, 9, 9⟩)]]
    marks := [[⟨3, 1, 2, 3⟩], [], [⟨2, 1, 0, 0⟩], []] }

/-- The lines and marks of the crowded frame are those that its references name. -/
theorem drawnAs_crowdedDrawing : crowdedFrame.DrawnAs crowdedDrawing where
  circuit :=
    .cons ⟨⟨0, rfl, rfl⟩, 1, rfl, rfl⟩ (.cons ⟨⟨1, rfl, rfl⟩, 0, rfl, rfl⟩
      (.cons ⟨⟨0, rfl, rfl⟩, 2, rfl, rfl⟩ (.cons ⟨⟨2, rfl, rfl⟩, 1, rfl, rfl⟩ .nil)))
  connections := .cons ⟨⟨0, rfl, rfl⟩, 1, rfl, rfl⟩ .nil
  debug :=
    .cons (.cons ⟨⟨0, rfl, rfl⟩, 1, rfl, rfl⟩ (.cons ⟨⟨1, rfl, rfl⟩, 0, rfl, rfl⟩ .nil))
      (.cons (.cons ⟨⟨0, rfl, rfl⟩, 0, rfl, rfl⟩ .nil) .nil)
  marks :=
    .cons (.cons ⟨2, rfl, rfl⟩ .nil) (.cons .nil (.cons (.cons ⟨1, rfl, rfl⟩ .nil)
      (.cons .nil .nil)))

/-- The edge on neither lattice is drawn only because it is the last of the circuit.  Its ends and
those of the connection have the coordinates of their nodes, and so do the marks. -/
theorem stageDefects_draws_every_edge_crowded :
    ∃ s, stageDefects crowdedConfig crowdedFrame .empty = .done s ∧
      (∀ stroke ∈ primalStrokes,
        positionsOf ((s.onLayer .primal).filter (·.style == stroke.style)) =
          linePositions [(⟨1, -1, 3, 5⟩, ⟨2, 0, -2, 4⟩), (⟨1, -1, 3, 5⟩, ⟨3, 1, 2, 3⟩),
            (⟨1, 7, 7, -7⟩, ⟨2, 8, 8, 8⟩)]) ∧
      (∀ stroke ∈ dualStrokes,
        positionsOf ((s.onLayer .dual).filter (·.style == stroke.style)) =
          linePositions [(⟨2, 0, -2, 4⟩, ⟨1, -1, 3, 5⟩)]) ∧
      positionsOf (s.onLayer .notWorking) =
        linePositions [(⟨3, 1, 2, 3⟩, ⟨2, 0, -2, 4⟩), (⟨1, 7, 7, -7⟩, ⟨2, 8, 8, 8⟩)] ∧
      positionsOf (s.onLayer .notWorking) = [1, 2, 3, 0, -2, 4, 7, 7, -7, 8, 8, 8] ∧
      positionsOf (s.payloads.filter (·.hasStem "debug-1-")) =
        linePositions [(⟨1, 9, 9, 9⟩, ⟨1, 9, 9, 9⟩)] ∧
      positionsOf (s.onLayer .injections) = [1, 2, 3, 1, 0, 0] := by
  have hdone : stageDefects crowdedConfig crowdedFrame .empty =
      .done (stageDefects crowdedConfig crowdedFrame .empty).state :=
    Attempt.eq_done (by decide +kernel)
  obtain ⟨drawing, hdrawn, hprimal, -, hdual, -, hnotWorking, hdebug, -, -, hinjections⟩ :=
    stageDefects_draws_every_edge hdone
  obtain rfl : drawing = crowdedDrawing := hdrawn.unique drawnAs_crowdedDrawing
  refine ⟨_, hdone, ?_, ?_, hnotWorking, hnotWorking.trans (by decide +kernel), hdebug 1,
    hinjections.trans (by decide +kernel)⟩
  · intro stroke hstroke
    rw [hprimal stroke hstroke]
    exact congrArg linePositions (by decide)
  · intro stroke hstroke
    rw [hdual stroke hstroke]
    exact congrArg linePositions (by decide)

end LatticeScene.Staging
