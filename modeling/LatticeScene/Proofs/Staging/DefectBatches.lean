import LatticeScene.Staging.Defects
import LatticeScene.Proofs.Schedule.Defects
import LatticeScene.Proofs.Staging.Queue
import LatticeScene.Attempt

/-!
# What the batches of a defect frame hold

The lines of a circuit graph go to the batches of the lattices, `withLines`, and the marks of any
graph to the injections, `withMarks`.  When all references of a frame name a node, the batches hold
the lines of the graphs of the frame and nothing else (`exists_drawnAs_of_ofFrame`).  Staging them
queues the payloads of each batch in turn (`eq_of_stageBatches`).
-/

namespace LatticeScene.Staging

open Shape Schedule

/-- The components of the endpoints of lines, one line after the other. -/
def linePositions (lines : List DefectLine) : List Float32 :=
  lines.flatMap fun line => LineBatch.endpoints line.segment

namespace DefectBatches

/-! ### Lines and marks -/

/-- The lines whose first end is on the primal lattice. -/
def primalLines (lines : List DefectLine) : List DefectLine := lines.filter (·.1.IsOdd)

/-- The lines whose first end is on the dual lattice. -/
def dualLines (lines : List DefectLine) : List DefectLine := lines.filter (·.1.IsEven)

/-- Draw lines one after the other. -/
def drawAll (batch : LineBatch) (lines : List DefectLine) : LineBatch :=
  batch.addAll (lines.map DefectLine.segment)

/-- Lines that are drawn in two parts are drawn in one. -/
theorem drawAll_append (batch : LineBatch) (lines others : List DefectLine) :
    drawAll batch (lines ++ others) = drawAll (drawAll batch lines) others := by
  rw [drawAll, List.map_append, LineBatch.addAll_append]
  rfl

/-- Lines are drawn in chunks without loss. -/
theorem flatMap_drawn_drawAll {limit : Nat} (h : 2 ≤ limit) (lines : List DefectLine) :
    ((drawAll .empty lines).drawn limit).flatMap (·.positions.toList) = linePositions lines := by
  have hwhole : (drawAll .empty lines).IsWhole := LineBatch.isWhole_empty.addAll _
  rw [LineBatch.flatMap_drawn h hwhole, drawAll, LineBatch.toList_positions_addAll,
    List.flatMap_map]
  rfl

/-- The batches with marks added. -/
def withMarks (b : DefectBatches) (marks : List DefectNode) : DefectBatches :=
  { b with injections := b.injections ++ marks.map DefectNode.position }

/-- The batches with the lines of a circuit graph added, the last of them twice. -/
def withLines (b : DefectBatches) (lines : List DefectLine) : DefectBatches :=
  { b with
    primal := drawAll b.primal (primalLines lines)
    dual := drawAll b.dual (dualLines lines)
    notWorking := drawAll b.notWorking lines.getLast?.toList }

/-- The batches with the lines of a debug graph added. -/
def withDebug (b : DefectBatches) (lines : List DefectLine) : DefectBatches :=
  { b with debug := b.debug ++ [drawAll .empty lines] }

/-- A line goes to the batch of the lattice of its first end, if there is one. -/
theorem addLine_eq (b : DefectBatches) (line : DefectLine) :
    b.addLine line.1.sublattice? line.1.position line.2.position =
      { b with
        primal := drawAll b.primal (primalLines [line])
        dual := drawAll b.dual (dualLines [line]) } := by
  have hprimal := line.1.sublattice?_eq_primal_iff
  have hdual := line.1.sublattice?_eq_dual_iff
  unfold addLine primalLines dualLines
  cases hlattice : line.1.sublattice? with
  | none =>
    rw [hlattice] at hprimal hdual
    have hodd : ¬line.1.IsOdd := fun h => nomatch hprimal.mpr h
    have heven : ¬line.1.IsEven := fun h => nomatch hdual.mpr h
    rw [List.filter_cons_of_neg (by simpa using hodd),
      List.filter_cons_of_neg (by simpa using heven)]
    rfl
  | some lattice =>
    rw [hlattice] at hprimal hdual
    cases lattice with
    | primal =>
      have hodd : line.1.IsOdd := hprimal.mp rfl
      rw [List.filter_cons_of_pos (by simpa using hodd),
        List.filter_cons_of_neg (by simpa using hodd.not_isEven)]
      rfl
    | dual =>
      have heven : line.1.IsEven := hdual.mp rfl
      have hodd : ¬line.1.IsOdd := fun h => h.not_isEven heven
      rw [List.filter_cons_of_neg (by simpa using hodd),
        List.filter_cons_of_pos (by simpa using heven)]
      rfl

/-- Lines may be added one at a time, but only the last of all is not working. -/
theorem withLines_cons (b : DefectBatches) (line : DefectLine) {lines : List DefectLine}
    (h : lines ≠ []) :
    b.withLines (line :: lines) =
      (b.addLine line.1.sublattice? line.1.position line.2.position).withLines lines := by
  have hprimal : primalLines (line :: lines) = primalLines [line] ++ primalLines lines :=
    List.filter_append [line] lines
  have hdual : dualLines (line :: lines) = dualLines [line] ++ dualLines lines :=
    List.filter_append [line] lines
  have hlast : (line :: lines).getLast? = lines.getLast? := by
    rw [List.getLast?_cons, List.getLast?_eq_some_getLast h]
    rfl
  rw [addLine_eq, withLines, hprimal, hdual, hlast, drawAll_append, drawAll_append]
  rfl

/-! ### Adding graphs -/

section Graphs

variable {graph : DefectGraph} {b b' : DefectBatches}

/-- An injection that is added marks the node that it names. -/
theorem exists_of_addInjection {reference : Nat}
    (h : addInjection graph b reference = .done b') :
    ∃ node, graph.Names reference node ∧ b' = b.withMarks [node] := by
  unfold addInjection at h
  cases hnode : graph.node reference with
  | error fault =>
    rw [hnode] at h
    exact nomatch congrArg Attempt.error? h
  | ok node =>
    rw [hnode] at h
    exact ⟨node, DefectGraph.node_eq_ok_iff.mp hnode, (Attempt.done_inj.mp h).symm⟩

/-- Injections are marked one by one. -/
theorem exists_of_each_addInjection {references : List Nat}
    (h : Attempt.each (addInjection graph) b references = .done b') :
    ∃ marks, List.Forall₂ graph.Names references marks ∧ b' = b.withMarks marks := by
  induction references generalizing b with
  | nil =>
    refine ⟨[], .nil, ?_⟩
    rw [← Attempt.done_inj.mp h, withMarks, List.map_nil, List.append_nil]
  | cons reference references ih =>
    obtain ⟨between, hfirst, hrest⟩ := Attempt.andThen_eq_done_iff.mp h
    obtain ⟨node, hnode, rfl⟩ := exists_of_addInjection hfirst
    obtain ⟨marks, hmarks, rfl⟩ := ih hrest
    refine ⟨node :: marks, .cons hnode hmarks, ?_⟩
    simp only [withMarks, List.map_cons, List.map_nil, List.append_assoc, List.cons_append,
      List.nil_append]

/-- Edges are added one by one. -/
theorem exists_of_addEdges {edges : List (Nat × Nat)} (h : b.addEdges graph edges = .done b') :
    ∃ lines, graph.Joins edges lines ∧ b' = b.withLines lines := by
  induction edges generalizing b with
  | nil => exact ⟨[], .nil, (Attempt.done_inj.mp h).symm⟩
  | cons edge rest ih =>
    rw [addEdges] at h
    cases hends : graph.ends edge with
    | error fault =>
      rw [hends] at h
      exact nomatch congrArg Attempt.error? h
    | ok line =>
      rw [hends] at h
      have hline := DefectGraph.ends_eq_ok_iff.mp hends
      -- the last edge is drawn twice, so that it has a case of its own
      cases rest with
      | nil =>
        refine ⟨[line], .cons hline .nil, ?_⟩
        rw [← Attempt.done_inj.mp h, addLine_eq]
        rfl
      | cons next rest =>
        obtain ⟨lines, hlines, rfl⟩ := ih h
        have hne : lines ≠ [] := by
          rintro rfl
          exact nomatch hlines
        exact ⟨line :: lines, .cons hline hlines, (b.withLines_cons line hne).symm⟩

/-- A circuit graph that is added has its marks and its lines added. -/
theorem exists_of_addCircuit (h : b.addCircuit graph = .done b') :
    ∃ marks lines, graph.Marks marks ∧ graph.Draws lines ∧
      b' = (b.withMarks marks).withLines lines := by
  obtain ⟨between, hmarked, hdrawn⟩ := Attempt.andThen_eq_done_iff.mp h
  obtain ⟨marks, hmarks, rfl⟩ := exists_of_each_addInjection hmarked
  obtain ⟨lines, hlines, rfl⟩ := exists_of_addEdges hdrawn
  exact ⟨marks, lines, hmarks, hlines, rfl⟩

/-- A debug graph that can be drawn is drawn as the lines that its edges name. -/
theorem exists_of_debugBatch {edges : List (Nat × Nat)} {batch batch' : LineBatch}
    (h : debugBatch graph batch edges = .ok batch') :
    ∃ lines, graph.Joins edges lines ∧ batch' = drawAll batch lines := by
  induction edges generalizing batch with
  | nil => exact ⟨[], .nil, (Except.ok.inj h).symm⟩
  | cons edge rest ih =>
    rw [debugBatch] at h
    obtain ⟨line, hends, hrest⟩ := bind_eq_ok_iff.mp h
    obtain ⟨lines, hlines, rfl⟩ := ih hrest
    exact ⟨line :: lines, .cons (DefectGraph.ends_eq_ok_iff.mp hends) hlines, rfl⟩

/-- A debug graph that is added has its marks added and gets a batch with its lines. -/
theorem exists_of_addDebug (h : b.addDebug graph = .done b') :
    ∃ marks lines, graph.Marks marks ∧ graph.Draws lines ∧
      b' = (b.withMarks marks).withDebug lines := by
  obtain ⟨between, hmarked, hdrawn⟩ := Attempt.andThen_eq_done_iff.mp h
  obtain ⟨marks, hmarks, rfl⟩ := exists_of_each_addInjection hmarked
  obtain ⟨batch, hbatch, rfl⟩ := map_eq_ok_iff.mp (Attempt.ofExcept_eq_done_iff.mp hdrawn)
  obtain ⟨lines, hlines, rfl⟩ := exists_of_debugBatch (mapError_eq_ok_iff.mp hbatch)
  exact ⟨marks, lines, hmarks, hlines, rfl⟩

end Graphs

/-- Debug graphs that are added have all their marks added, and get a batch each. -/
theorem exists_of_each_addDebug {graphs : List DefectGraph} {b b' : DefectBatches}
    (h : Attempt.each addDebug b graphs = .done b') :
    ∃ marks lines, List.Forall₂ DefectGraph.Marks graphs marks ∧
      List.Forall₂ DefectGraph.Draws graphs lines ∧
      b' = { b.withMarks marks.flatten with debug := b.debug ++ lines.map (drawAll .empty) } := by
  induction graphs generalizing b with
  | nil =>
    refine ⟨[], [], .nil, .nil, ?_⟩
    rw [← Attempt.done_inj.mp h]
    simp only [withMarks, List.flatten_nil, List.map_nil, List.append_nil]
  | cons graph graphs ih =>
    obtain ⟨between, hfirst, hrest⟩ := Attempt.andThen_eq_done_iff.mp h
    obtain ⟨marks, lines, hmarks, hlines, rfl⟩ := exists_of_addDebug hfirst
    obtain ⟨marks', lines', hmarks', hlines', rfl⟩ := ih hrest
    refine ⟨marks :: marks', lines :: lines', .cons hmarks hmarks', .cons hlines hlines', ?_⟩
    simp only [withMarks, withDebug, List.flatten_cons, List.map_append, List.map_cons,
      List.append_assoc, List.cons_append, List.nil_append]

/-- The batches of a drawing. -/
def ofDrawing (drawing : DefectDrawing) : DefectBatches :=
  { primal := drawAll .empty (primalLines (drawing.circuit ++ drawing.connections))
    dual := drawAll .empty (dualLines (drawing.circuit ++ drawing.connections))
    notWorking := drawAll .empty
      (drawing.circuit.getLast?.toList ++ drawing.connections.getLast?.toList)
    debug := drawing.debug.map (drawAll .empty)
    injections := drawing.marks.flatten.map DefectNode.position }

/-- The batches of a frame are those of a drawing of it. -/
theorem exists_drawnAs_of_ofFrame {frame : DefectFrame} {b : DefectBatches}
    (h : ofFrame frame = .done b) : ∃ drawing, frame.DrawnAs drawing ∧ b = ofDrawing drawing := by
  obtain ⟨drawn, hdrawn, hdebug⟩ := Attempt.andThen_eq_done_iff.mp h
  obtain ⟨circuit, hcircuit, hconnections⟩ := Attempt.andThen_eq_done_iff.mp hdrawn
  obtain ⟨marks₁, lines₁, hmarks₁, hlines₁, rfl⟩ := exists_of_addCircuit hcircuit
  obtain ⟨marks₂, lines₂, hmarks₂, hlines₂, rfl⟩ := exists_of_addCircuit hconnections
  obtain ⟨marks, lines, hmarks, hlines, rfl⟩ := exists_of_each_addDebug hdebug
  refine ⟨⟨lines₁, lines₂, lines, marks₁ :: marks₂ :: marks⟩,
    ⟨hlines₁, hlines₂, hlines, .cons hmarks₁ (.cons hmarks₂ hmarks)⟩, ?_⟩
  simp only [ofDrawing, primalLines, dualLines, withMarks, withLines, empty, drawAll_append,
    List.filter_append, List.flatten_cons, List.map_append, List.nil_append, List.append_assoc]

/-! ### Staging -/

/-- How the names of the payloads of the debug graph with number `i` begin. -/
def debugStem (i : Nat) : String := s!"debug-{i}-"

/-- The section of the debug graph with number `i`. -/
def debugSection (limit : Nat) (numbered : LineBatch × Nat) : Section :=
  .ofLines s!"debug-{numbered.2}" .debug (debugStrokes numbered.2) (numbered.1.drawn limit)

/-- A debug graph is drawn in one stroke. -/
theorem exists_debugStrokes (i : Nat) : ∃ stroke, debugStrokes i = [stroke] := by
  unfold debugStrokes
  split
  · exact ⟨_, rfl⟩
  · exact ⟨_, rfl⟩

/-- The sections of the circuit graphs. -/
def circuitSections (b : DefectBatches) (limit : Nat) : List Section :=
  [.ofLines "primal" .primal primalStrokes (b.primal.drawn limit),
    .ofLines "dual" .dual dualStrokes (b.dual.drawn limit),
    .ofLines "not-working" .notWorking notWorkingStrokes (b.notWorking.drawn limit)]

/-- The sections that batches are queued in. -/
def sections (b : DefectBatches) (limit : Nat) : List Section :=
  b.circuitSections limit ++
    (b.debug.zipIdx.map (debugSection limit) ++ [.ofPayload (injectionPayload b.injections)])

/-- All batches of lines have whole segments. -/
def IsWhole (b : DefectBatches) : Prop := ∀ batch ∈ b.lineBatches, batch.IsWhole

/-- The lines of each batch of a drawing. -/
def linesOf (drawing : DefectDrawing) : List (List DefectLine) :=
  primalLines (drawing.circuit ++ drawing.connections) ::
    dualLines (drawing.circuit ++ drawing.connections) ::
    (drawing.circuit.getLast?.toList ++ drawing.connections.getLast?.toList) :: drawing.debug

/-- Each batch of a drawing is drawn from its own list of lines. -/
theorem lineBatches_ofDrawing (drawing : DefectDrawing) :
    (ofDrawing drawing).lineBatches = (linesOf drawing).map (drawAll .empty) := rfl

/-- The batches of a drawing have whole segments. -/
theorem isWhole_ofDrawing (drawing : DefectDrawing) : (ofDrawing drawing).IsWhole := by
  intro batch hbatch
  rw [lineBatches_ofDrawing] at hbatch
  obtain ⟨lines, -, rfl⟩ := List.mem_map.mp hbatch
  exact LineBatch.isWhole_empty.addAll _

/-- A payload in the sections of batches draws one of the batches, or marks the injections. -/
theorem mem_contents_sections {b : DefectBatches} {limit : Nat} {p : Payload}
    (h : p ∈ Section.contents (b.sections limit)) :
    (∃ batch ∈ b.lineBatches, ∃ name strokes, ∃ layer ∈ [Layer.primal, .dual, .notWorking, .debug],
        p ∈ linePayloads name layer strokes (batch.drawn limit)) ∨
      p ∈ queued (injectionPayload b.injections) := by
  obtain ⟨part, hpart, hmem⟩ := List.mem_flatMap.mp h
  simp only [sections, circuitSections, List.cons_append, List.nil_append, List.mem_cons,
    List.mem_append, List.mem_map, List.not_mem_nil, or_false] at hpart
  rcases hpart with rfl | rfl | rfl | ⟨numbered, hnumbered, rfl⟩ | rfl
  · exact Or.inl ⟨b.primal, by simp [lineBatches], _, _, .primal, by decide, hmem⟩
  · exact Or.inl ⟨b.dual, by simp [lineBatches], _, _, .dual, by decide, hmem⟩
  · exact Or.inl ⟨b.notWorking, by simp [lineBatches], _, _, .notWorking, by decide, hmem⟩
  · have hbatch : numbered.1 ∈ b.lineBatches := by
      simp [lineBatches, List.fst_mem_of_mem_zipIdx hnumbered]
    exact Or.inl ⟨numbered.1, hbatch, _, _, .debug, by decide, hmem⟩
  · exact Or.inr hmem

section Staging

variable {config : Config} {s t : StagedFrame}

/-- Lines that are staged are a section of their own. -/
theorem eq_of_stageLines {name : String} {layer : Layer} {strokes : List Stroke}
    {batch : LineBatch} (hbatch : batch.IsWhole)
    (h : stageLines config name layer strokes batch s = .done t) :
    2 ≤ config.lineChunkVertices ∧
      t = { s with
        payloads := s.payloads ++
          (Section.ofLines name layer strokes
            (batch.drawn config.lineChunkVertices)).payloads } := by
  by_cases hlimit : config.lineChunkVertices < 2
  · rw [stageLines_of_lt name layer strokes batch s hlimit] at h
    exact nomatch congrArg Attempt.error? h
  · rw [stageLines_of_le name layer strokes batch s (Nat.not_lt.mp hlimit) hbatch] at h
    exact ⟨Nat.not_lt.mp hlimit, (Attempt.done_inj.mp h).symm⟩

/-- The batches of debug graphs are queued one after the other, each in a section of its own. -/
theorem eq_of_each_stageLines {numbered : List (LineBatch × Nat)}
    (hnumbered : ∀ entry ∈ numbered, entry.1.IsWhole)
    (h : Attempt.each (fun s (batch, i) =>
      stageLines config s!"debug-{i}" .debug (debugStrokes i) batch s) s numbered = .done t) :
    t = { s with
      payloads := s.payloads ++
        Section.contents (numbered.map (debugSection config.lineChunkVertices)) } := by
  induction numbered generalizing s with
  | nil =>
    rw [← Attempt.done_inj.mp h, List.map_nil, Section.contents_nil, List.append_nil]
  | cons entry numbered ih =>
    obtain ⟨between, hfirst, hrest⟩ := Attempt.andThen_eq_done_iff.mp h
    have hentry := (eq_of_stageLines (hnumbered entry List.mem_cons_self) hfirst).2
    have hothers := ih
      (fun other hother => hnumbered other (List.mem_cons_of_mem entry hother)) hrest
    rw [hothers, hentry, List.map_cons, Section.contents_cons, List.append_assoc]
    rfl

/-- Batches are queued section by section, and the bounds grow around all of them. -/
theorem eq_of_stageBatches {b : DefectBatches} (hb : b.IsWhole)
    (h : stageBatches config b s = .done t) :
    2 ≤ config.lineChunkVertices ∧
      t = { payloads := s.payloads ++ Section.contents (b.sections config.lineChunkVertices)
            bounds := s.bounds.union b.bounds } := by
  obtain ⟨s₄, hlines, hmarks⟩ := Attempt.andThen_eq_done_iff.mp h
  obtain ⟨s₃, hcircuits, hdebug⟩ := Attempt.andThen_eq_done_iff.mp hlines
  obtain ⟨s₂, hlattices, hnotWorking⟩ := Attempt.andThen_eq_done_iff.mp hcircuits
  obtain ⟨s₁, hprimal, hdual⟩ := Attempt.andThen_eq_done_iff.mp hlattices
  obtain ⟨hlimit, h₁⟩ := eq_of_stageLines (hb _ (by simp [lineBatches])) hprimal
  obtain ⟨-, h₂⟩ := eq_of_stageLines (hb _ (by simp [lineBatches])) hdual
  obtain ⟨-, h₃⟩ := eq_of_stageLines (hb _ (by simp [lineBatches])) hnotWorking
  have h₄ := eq_of_each_stageLines
    (fun entry hentry => hb _ (by simp [lineBatches, List.fst_mem_of_mem_zipIdx hentry])) hdebug
  refine ⟨hlimit, ?_⟩
  rw [← Attempt.done_inj.mp hmarks, StagedFrame.stage_eq, h₄, h₃, h₂, h₁]
  simp only [sections, circuitSections, List.cons_append, List.nil_append,
    Section.contents_cons, Section.contents_append, Section.contents_nil,
    StagedFrame.includeBounds, List.append_nil, List.append_assoc]
  rfl

end Staging

/-! ### Telling sections apart -/

section Selection

variable (b : DefectBatches) (limit : Nat)

/-- Except for that of debug graphs, a layer has at most one section. -/
theorem filter_layer_sections {layer : Layer} (h : layer ≠ .debug) :
    (b.sections limit).filter (·.layer == layer) =
      (b.circuitSections limit ++ [Section.ofPayload (injectionPayload b.injections)]).filter
        (·.layer == layer) := by
  have hdebug : (b.debug.zipIdx.map (debugSection limit)).filter (·.layer == layer) = [] := by
    refine Section.filter_layer_eq_nil (fun part hpart => ?_) (Ne.symm h)
    obtain ⟨numbered, -, rfl⟩ := List.mem_map.mp hpart
    rfl
  rw [sections, List.filter_append, List.filter_append, hdebug, List.nil_append,
    ← List.filter_append]

/-- The layer of debug graphs has no other sections. -/
theorem exists_debugSection_of_layer {part : Section} (h : part ∈ b.sections limit)
    (hlayer : part.layer = .debug) :
    ∃ numbered ∈ b.debug.zipIdx, part = debugSection limit numbered := by
  simp only [sections, circuitSections, List.cons_append, List.nil_append, List.mem_cons,
    List.mem_append, List.mem_map, List.not_mem_nil, or_false] at h
  rcases h with rfl | rfl | rfl | ⟨numbered, hnumbered, rfl⟩ | rfl
  · exact nomatch hlayer
  · exact nomatch hlayer
  · exact nomatch hlayer
  · exact ⟨numbered, hnumbered, rfl⟩
  · exact nomatch hlayer

/-- A number is read back from its digits, which have a dash after them. -/
theorem eq_of_digits_dash {i j : Nat}
    (h : Nat.toDigits 10 i ++ ['-'] <+: Nat.toDigits 10 j ++ ['-']) : i = j := by
  have hdash : '-' ∉ Nat.toDigits 10 j := by
    intro hmem
    exact absurd (Nat.isDigit_of_mem_toDigits (by decide) (by decide) hmem) (by decide)
  obtain ⟨rest, hrest⟩ := h
  rw [List.append_assoc, List.cons_append, List.nil_append] at hrest
  have hdigits : Nat.toDigits 10 j = Nat.toDigits 10 i :=
    ((List.append_cons_inj_of_notMem hdash List.not_mem_nil).mp hrest.symm).1
  have hread : Nat.ofDigitChars 10 (Nat.toDigits 10 j) 0 =
      Nat.ofDigitChars 10 (Nat.toDigits 10 i) 0 := by rw [hdigits]
  rw [Nat.ofDigitChars_toDigits (by decide) (by decide),
    Nat.ofDigitChars_toDigits (by decide) (by decide)] at hread
  exact hread.symm

/-- The stem of a debug graph is made of the word, the digits of its number and a dash. -/
theorem toList_debugStem (i : Nat) :
    (debugStem i).toList = "debug-".toList ++ (Nat.toDigits 10 i ++ ['-']) := by
  simp [debugStem, toString, Nat.toList_repr]

/-- The names of different debug graphs do not begin alike. -/
theorem apart_debugStem {i j : Nat} (h : i ≠ j) : Apart (debugStem i) (debugStem j) := by
  unfold Apart
  rw [toList_debugStem, toList_debugStem, List.prefix_append_right_inj,
    List.prefix_append_right_inj]
  constructor
  · exact fun hprefix => h (eq_of_digits_dash hprefix)
  · exact fun hprefix => h (eq_of_digits_dash hprefix).symm

/-- Different debug graphs have different stems. -/
theorem debugStem_inj {i j : Nat} : debugStem i = debugStem j ↔ i = j := by
  constructor
  · intro h
    by_contra hne
    exact (apart_debugStem hne).ne h.symm
  · exact congrArg debugStem

/-- How the names of all other payloads of a frame begin. -/
def otherStems : List String :=
  ["boxes", "primal-", "dual-", "not-working-", "injections", "bounding-box"]

/-- The stem of a debug graph is apart from those of all other payloads. -/
theorem apart_debugStem_of_mem (i : Nat) {other : String} (h : other ∈ otherStems) :
    Apart (debugStem i) other := by
  have hapart : ∀ other ∈ otherStems, Apart "debug-" other := by decide
  refine (hapart other h).extend ?_
  rw [toList_debugStem]
  exact List.prefix_append _ _

/-- What is not a debug graph has one of the other stems. -/
theorem stem_mem_otherStems {part : Section}
    (h : part ∈ b.circuitSections limit ++ [Section.ofPayload (injectionPayload b.injections)]) :
    part.stem ∈ otherStems := by
  simp only [circuitSections, List.cons_append, List.nil_append, List.mem_cons, List.not_mem_nil,
    or_false] at h
  have hstem : part.stem ∈ ["primal-", "dual-", "not-working-", "injections"] := by
    rcases h with rfl | rfl | rfl | rfl
    · exact List.mem_cons_self
    · exact List.mem_cons_of_mem _ List.mem_cons_self
    · exact List.mem_cons_of_mem _ (List.mem_cons_of_mem _ List.mem_cons_self)
    · exact List.mem_cons_of_mem _ (List.mem_cons_of_mem _ (List.mem_cons_of_mem _
        List.mem_cons_self))
  exact (by decide : ∀ stem ∈ ["primal-", "dual-", "not-working-", "injections"],
    stem ∈ otherStems) _ hstem

/-- The name of a debug graph is that of a section, or apart from it. -/
theorem stem_eq_or_apart (i : Nat) {part : Section} (h : part ∈ b.sections limit) :
    part.stem = debugStem i ∨ Apart (debugStem i) part.stem := by
  by_cases hdebug : part ∈ b.debug.zipIdx.map (debugSection limit)
  · obtain ⟨numbered, -, rfl⟩ := List.mem_map.mp hdebug
    by_cases hnumber : i = numbered.2
    · exact Or.inl (congrArg debugStem hnumber.symm)
    · exact Or.inr (apart_debugStem hnumber)
  · refine Or.inr (apart_debugStem_of_mem i (b.stem_mem_otherStems limit ?_))
    simp only [sections, List.mem_append] at h ⊢
    tauto

/-- Of the numbered elements of a list at most one has a given number. -/
theorem filter_zipIdx_snd {α : Type} (xs : List α) (n i : Nat) :
    (xs.zipIdx n).filter (·.2 == n + i) = (xs[i]?.map (·, n + i)).toList := by
  induction xs generalizing n i with
  | nil => rfl
  | cons x xs ih =>
    rw [List.zipIdx_cons]
    cases i with
    | zero =>
      -- all numbers further back are greater
      have hrest : (xs.zipIdx (n + 1)).filter (·.2 == n) = [] := by
        refine List.filter_eq_nil_iff.mpr fun entry hentry => ?_
        have hle : n + 1 ≤ entry.2 := List.le_snd_of_mem_zipIdx hentry
        rw [beq_iff_eq]
        omega
      rw [Nat.add_zero, List.filter_cons, if_pos (beq_self_eq_true n), hrest]
      rfl
    | succ i =>
      have hne : ¬(n == n + (i + 1)) = true := by
        rw [beq_iff_eq]
        omega
      have hnext : n + (i + 1) = n + 1 + i := by omega
      rw [List.filter_cons, if_neg hne, hnext, ih (n + 1) i, List.getElem?_cons_succ]

/-- The name of a debug graph selects its section, if there is such a graph. -/
theorem filter_stem_sections (i : Nat) :
    (b.sections limit).filter (·.stem == debugStem i) =
      (b.debug[i]?.map fun batch => debugSection limit (batch, i)).toList := by
  have hother : ∀ part ∈
      b.circuitSections limit ++ [Section.ofPayload (injectionPayload b.injections)],
      Apart (debugStem i) part.stem := by
    intro part hpart
    exact apart_debugStem_of_mem i (b.stem_mem_otherStems limit hpart)
  -- nothing but the debug graph with this number has the stem
  have hcircuit : (b.circuitSections limit).filter (·.stem == debugStem i) = [] :=
    Section.filter_stem_eq_nil fun part hpart => hother part (List.mem_append_left _ hpart)
  have hinjections : [Section.ofPayload (injectionPayload b.injections)].filter
      (·.stem == debugStem i) = [] :=
    Section.filter_stem_eq_nil fun part hpart => hother part (List.mem_append_right _ hpart)
  have hdebug : (b.debug.zipIdx.map (debugSection limit)).filter (·.stem == debugStem i) =
      (b.debug.zipIdx.filter (·.2 == i)).map (debugSection limit) := by
    rw [List.filter_map]
    refine congrArg (List.map _) (List.filter_congr fun numbered _ => ?_)
    have hstem : (debugSection limit numbered).stem = debugStem numbered.2 := rfl
    rw [Function.comp_apply, hstem, Bool.eq_iff_iff, beq_iff_eq, beq_iff_eq, debugStem_inj]
  have hselect : b.debug.zipIdx.filter (·.2 == i) = (b.debug[i]?.map (·, i)).toList := by
    have h := filter_zipIdx_snd b.debug 0 i
    rwa [Nat.zero_add] at h
  rw [sections, List.filter_append, List.filter_append, hcircuit, hinjections, hdebug, hselect,
    List.nil_append, List.append_nil]
  cases b.debug[i]? with
  | none => rfl
  | some batch => rfl

end Selection

end DefectBatches

end LatticeScene.Staging
