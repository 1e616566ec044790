import LatticeScene.Proofs.Staging.DefectBatches

/-!
# References that end a graph

A graph is added to the batches of a frame reference by reference, first the injections and then the
ends of the edges.  The first dangling reference ends the graph, whichever kind of graph it is
(`verdict_addCircuit`, `verdict_addDebug`).  What was added before it stays: in front of an
injection these are marks, and in front of an edge all marks and, of a circuit graph, the lines that
were sorted so far.  What is not working and the batch of a debug graph are added at the end only.

So a debug graph has a batch if and only if it was added to its end.  In a series of calls the
batches line up with these graphs (`exists_debug_callAll`).
-/

namespace LatticeScene.Staging

open Shape Schedule

/-- The failure of a graph with a dangling reference. -/
def danglingFailure (graph : DefectGraph) (reference : Nat) : Failure :=
  .schedule (.danglingReference reference graph.nodes.length)

/-- How adding a graph ends: the first of its references that is dangling is the failure, and
without one there is no failure. -/
structure Verdict (graph : DefectGraph) (error? : Option Failure) : Prop where
  eq_none_iff : error? = none ↔ ∀ reference ∈ graph.references, graph.HasNode reference
  eq_first : ∀ before reference after, graph.references = before ++ reference :: after →
    (∀ earlier ∈ before, graph.HasNode earlier) → ¬graph.HasNode reference →
      error? = some (danglingFailure graph reference)

/-- The first dangling reference of a graph is how adding it ends. -/
theorem verdict_firstDangling? (graph : DefectGraph) :
    Verdict graph ((graph.firstDangling? graph.references).map (danglingFailure graph)) where
  eq_none_iff := by
    rw [Option.map_eq_none_iff]
    exact DefectGraph.firstDangling?_eq_none_iff
  eq_first := by
    intro before reference after hsplit hbefore hdangling
    rw [hsplit, DefectGraph.firstDangling?_append,
      DefectGraph.firstDangling?_eq_none_iff.mpr hbefore,
      DefectGraph.firstDangling?_cons_of_dangling hdangling]
    rfl

namespace DefectBatches

/-- The batches with lines sorted by their lattices, none of which is the last of a graph. -/
def withSorted (b : DefectBatches) (lines : List DefectLine) : DefectBatches :=
  { b with
    primal := drawAll b.primal (primalLines lines)
    dual := drawAll b.dual (dualLines lines) }

section Graphs

variable {graph : DefectGraph} {marks : List DefectNode} {lines : List DefectLine}

/-! ### Injections -/

/-- Marks that are added in two parts are added in one. -/
theorem withMarks_append (b : DefectBatches) (marks others : List DefectNode) :
    (b.withMarks marks).withMarks others = b.withMarks (marks ++ others) := by
  simp only [withMarks, List.map_append, List.append_assoc]

/-- Injections that name nodes are all marked. -/
theorem each_addInjection_of_names {references : List Nat}
    (h : List.Forall₂ graph.Names references marks) (b : DefectBatches) :
    Attempt.each (addInjection graph) b references = .done (b.withMarks marks) := by
  induction h generalizing b with
  | nil => rw [Attempt.each_nil, withMarks, List.map_nil, List.append_nil]
  | @cons reference node references marks hnode _ ih =>
    have hfirst : addInjection graph b reference = .done (b.withMarks [node]) := by
      rw [addInjection, DefectGraph.node_eq_ok_iff.mpr hnode]
      rfl
    rw [Attempt.each_cons, hfirst, Attempt.done_andThen, ih, withMarks_append]
    rfl

/-- The injections in front of a dangling one stay marked. -/
theorem addInjections_of_dangling {before after : List Nat} {reference : Nat}
    (hsplit : graph.injections = before ++ reference :: after)
    (hmarks : List.Forall₂ graph.Names before marks) (h : ¬graph.HasNode reference)
    (b : DefectBatches) :
    b.addInjections graph = .stopped (danglingFailure graph reference) (b.withMarks marks) := by
  have hreference : addInjection graph (b.withMarks marks) reference =
      .stopped (danglingFailure graph reference) (b.withMarks marks) := by
    rw [addInjection, DefectGraph.node_of_dangling h]
    rfl
  rw [addInjections, hsplit, Attempt.each_append, each_addInjection_of_names hmarks,
    Attempt.done_andThen, Attempt.each_cons, hreference, Attempt.stopped_andThen]

/-! ### Edges -/

/-- Lines that are sorted in two parts are sorted in one. -/
theorem withSorted_append (b : DefectBatches) (lines others : List DefectLine) :
    (b.withSorted lines).withSorted others = b.withSorted (lines ++ others) := by
  simp only [withSorted, primalLines, dualLines, List.filter_append, drawAll_append]

/-- An edge that is not the last one is sorted. -/
theorem addEdges_cons {edge : Nat × Nat} {line : DefectLine}
    (h : graph.Names edge.1 line.1 ∧ graph.Names edge.2 line.2) {rest : List (Nat × Nat)}
    (hrest : rest ≠ []) (b : DefectBatches) :
    b.addEdges graph (edge :: rest) = (b.withSorted [line]).addEdges graph rest := by
  rw [addEdges, DefectGraph.ends_eq_ok_iff.mpr h]
  have hlast : ¬rest.isEmpty = true := fun hempty => hrest (List.isEmpty_iff.mp hempty)
  simp only [if_neg hlast, addLine_eq]
  rfl

/-- The last edge is sorted and is what is not working. -/
theorem addEdges_singleton {edge : Nat × Nat} {line : DefectLine}
    (h : graph.Names edge.1 line.1 ∧ graph.Names edge.2 line.2) (b : DefectBatches) :
    b.addEdges graph [edge] = .done (b.withLines [line]) := by
  rw [addEdges, DefectGraph.ends_eq_ok_iff.mpr h]
  simp only [List.isEmpty_nil, if_true, addLine_eq]
  rfl

/-- Edges that are drawn are sorted one by one until the last one. -/
theorem addEdges_append {edges : List (Nat × Nat)} (h : graph.Joins edges lines)
    {rest : List (Nat × Nat)} (hrest : rest ≠ []) (b : DefectBatches) :
    b.addEdges graph (edges ++ rest) = (b.withSorted lines).addEdges graph rest := by
  induction h generalizing b with
  | nil => rfl
  | cons hline _ ih =>
    rw [List.cons_append, addEdges_cons hline (List.append_ne_nil_of_right_ne_nil _ hrest), ih,
      withSorted_append]
    rfl

/-- Edges that name the ends of lines are drawn as these lines, the last of them twice. -/
theorem addEdges_of_joins {edges : List (Nat × Nat)} (h : graph.Joins edges lines)
    (b : DefectBatches) : b.addEdges graph edges = .done (b.withLines lines) := by
  induction h generalizing b with
  | nil => rfl
  | @cons edge line edges lines hline hrest ih =>
    cases hrest with
    | nil => exact addEdges_singleton hline b
    | cons hnext hrest =>
      rw [addEdges_cons hline (List.cons_ne_nil _ _), ih,
        b.withLines_cons line (List.cons_ne_nil _ _), addLine_eq]
      rfl

/-- Edges in front that name the ends of lines are drawn before the others. -/
theorem debugBatch_append {edges : List (Nat × Nat)} (h : graph.Joins edges lines)
    (rest : List (Nat × Nat)) (batch : LineBatch) :
    debugBatch graph batch (edges ++ rest) = debugBatch graph (drawAll batch lines) rest := by
  induction h generalizing batch with
  | nil => rfl
  | cons hline _ ih =>
    rw [List.cons_append, debugBatch, DefectGraph.ends_eq_ok_iff.mpr hline]
    exact ih _

/-! ### Graphs that are added to their end -/

/-- A circuit graph without dangling references has its marks and all its lines added. -/
theorem addCircuit_of_sound (hmarks : graph.Marks marks) (hlines : graph.Draws lines)
    (b : DefectBatches) : b.addCircuit graph = .done ((b.withMarks marks).withLines lines) := by
  rw [addCircuit, addInjections, each_addInjection_of_names hmarks, Attempt.done_andThen,
    addEdges_of_joins hlines]

/-- A debug graph without dangling references has its marks added and gets a batch of its own. -/
theorem addDebug_of_sound (hmarks : graph.Marks marks) (hlines : graph.Draws lines)
    (b : DefectBatches) : b.addDebug graph = .done ((b.withMarks marks).withDebug lines) := by
  have hbatch : debugBatch graph .empty graph.edges = .ok (drawAll .empty lines) := by
    have happend := debugBatch_append hlines [] .empty
    rwa [List.append_nil] at happend
  rw [addDebug, addInjections, each_addInjection_of_names hmarks, Attempt.done_andThen, hbatch]
  rfl

/-! ### Graphs that a dangling reference ends -/

section Injection

variable {before after : List Nat} {reference : Nat}

/-- A circuit graph with a dangling injection stops with the marks that come before it. -/
theorem addCircuit_of_injection (hsplit : graph.injections = before ++ reference :: after)
    (hmarks : List.Forall₂ graph.Names before marks) (h : ¬graph.HasNode reference)
    (b : DefectBatches) :
    b.addCircuit graph = .stopped (danglingFailure graph reference) (b.withMarks marks) := by
  rw [addCircuit, addInjections_of_dangling hsplit hmarks h, Attempt.stopped_andThen]

/-- A debug graph with a dangling injection stops with the marks that come before it. -/
theorem addDebug_of_injection (hsplit : graph.injections = before ++ reference :: after)
    (hmarks : List.Forall₂ graph.Names before marks) (h : ¬graph.HasNode reference)
    (b : DefectBatches) :
    b.addDebug graph = .stopped (danglingFailure graph reference) (b.withMarks marks) := by
  rw [addDebug, addInjections_of_dangling hsplit hmarks h, Attempt.stopped_andThen]

end Injection

section Edge

variable {before after : List (Nat × Nat)} {edge : Nat × Nat} {reference : Nat}

/-- A circuit graph with a dangling end of an edge stops with all its marks and the lines that come
before that edge. -/
theorem addCircuit_of_edge (hmarks : graph.Marks marks)
    (hsplit : graph.edges = before ++ edge :: after) (hlines : graph.Joins before lines)
    (h : graph.firstDangling? [edge.1, edge.2] = some reference) (b : DefectBatches) :
    b.addCircuit graph =
      .stopped (danglingFailure graph reference) ((b.withMarks marks).withSorted lines) := by
  rw [addCircuit, addInjections, each_addInjection_of_names hmarks, Attempt.done_andThen, hsplit,
    addEdges_append hlines (List.cons_ne_nil _ _), addEdges, DefectGraph.ends_of_dangling h]
  rfl

/-- A debug graph with a dangling end of an edge stops with all its marks, and without a batch. -/
theorem addDebug_of_edge (hmarks : graph.Marks marks)
    (hsplit : graph.edges = before ++ edge :: after) (hlines : graph.Joins before lines)
    (h : graph.firstDangling? [edge.1, edge.2] = some reference) (b : DefectBatches) :
    b.addDebug graph = .stopped (danglingFailure graph reference) (b.withMarks marks) := by
  rw [addDebug, addInjections, each_addInjection_of_names hmarks, Attempt.done_andThen, hsplit,
    debugBatch_append hlines, debugBatch, DefectGraph.ends_of_dangling h]
  rfl

end Edge

end Graphs

/-! ### How a graph ends -/

/-- A batch has the edges of a graph, in order, and nothing else. -/
def BelongsTo (graph : DefectGraph) (batch : LineBatch) : Prop :=
  ∃ lines, graph.Draws lines ∧ batch = drawAll .empty lines

/-- A circuit graph ends at its first dangling reference, and has no batch of its own. -/
theorem exists_addCircuit (b : DefectBatches) (graph : DefectGraph) :
    ∃ next, b.addCircuit graph =
        ⟨next, (graph.firstDangling? graph.references).map (danglingFailure graph)⟩ ∧
      next.debug = b.debug := by
  have hlookedUp := graph.lookedUp
  generalize graph.firstDangling? graph.references = first? at hlookedUp
  cases hlookedUp with
  | whole hmarks hlines => exact ⟨_, addCircuit_of_sound hmarks hlines b, rfl⟩
  | injection hsplit hmarks h => exact ⟨_, addCircuit_of_injection hsplit hmarks h b, rfl⟩
  | edge hmarks hsplit hlines h => exact ⟨_, addCircuit_of_edge hmarks hsplit hlines h b, rfl⟩

/-- A debug graph ends at its first dangling reference, and without one it has a batch. -/
theorem exists_addDebug (b : DefectBatches) (graph : DefectGraph) :
    ∃ next, b.addDebug graph =
        ⟨next, (graph.firstDangling? graph.references).map (danglingFailure graph)⟩ ∧
      (graph.firstDangling? graph.references = none ∧
          (∃ batch, BelongsTo graph batch ∧ next.debug = b.debug ++ [batch]) ∨
        graph.firstDangling? graph.references ≠ none ∧ next.debug = b.debug) := by
  have hlookedUp := graph.lookedUp
  generalize graph.firstDangling? graph.references = first? at hlookedUp
  cases hlookedUp with
  | @whole marks lines hmarks hlines =>
    have hbatch : BelongsTo graph (drawAll .empty lines) := ⟨lines, hlines, rfl⟩
    exact ⟨_, addDebug_of_sound hmarks hlines b, Or.inl ⟨rfl, _, hbatch, rfl⟩⟩
  | injection hsplit hmarks h =>
    exact ⟨_, addDebug_of_injection hsplit hmarks h b, Or.inr ⟨Option.some_ne_none _, rfl⟩⟩
  | edge hmarks hsplit hlines h =>
    exact ⟨_, addDebug_of_edge hmarks hsplit hlines h b, Or.inr ⟨Option.some_ne_none _, rfl⟩⟩

/-- Adding a circuit graph ends as its first dangling reference says. -/
theorem verdict_addCircuit (b : DefectBatches) (graph : DefectGraph) :
    Verdict graph (b.addCircuit graph).error? := by
  obtain ⟨next, hnext, -⟩ := b.exists_addCircuit graph
  rw [hnext]
  exact verdict_firstDangling? graph

/-- Adding a debug graph ends as its first dangling reference says. -/
theorem verdict_addDebug (b : DefectBatches) (graph : DefectGraph) :
    Verdict graph (b.addDebug graph).error? := by
  obtain ⟨next, hnext, -⟩ := b.exists_addDebug graph
  rw [hnext]
  exact verdict_firstDangling? graph

/-! ### Series of calls -/

/-- A call that adds a graph. -/
inductive GraphCall where
  | circuit (graph : DefectGraph)
  | debug (graph : DefectGraph)

/-- Add a graph. -/
def call (b : DefectBatches) : GraphCall → Attempt Failure DefectBatches
  | .circuit graph => b.addCircuit graph
  | .debug graph => b.addDebug graph

/-- The batches after a series of calls, whether each of them succeeds or not. -/
def callAll (b : DefectBatches) (calls : List GraphCall) : DefectBatches :=
  calls.foldl (fun b call => (b.call call).state) b

/-- The debug graphs in a series of calls that have no dangling reference. -/
def soundDebugGraphs (calls : List GraphCall) : List DefectGraph :=
  calls.filterMap fun
    | .circuit _ => none
    | .debug graph => if ∀ reference ∈ graph.references, graph.HasNode reference then some graph
      else none

/-- A call adds the batch of a debug graph that is added to its end, and no other. -/
theorem exists_debug_call (b : DefectBatches) (call : GraphCall) :
    ∃ added, (b.call call).state.debug = b.debug ++ added ∧
      List.Forall₂ BelongsTo (soundDebugGraphs [call]) added := by
  cases call with
  | circuit graph =>
    obtain ⟨next, hnext, hdebug⟩ := b.exists_addCircuit graph
    rw [call, hnext]
    exact ⟨[], hdebug.trans (List.append_nil _).symm, .nil⟩
  | debug graph =>
    obtain ⟨next, hnext, hcases⟩ := b.exists_addDebug graph
    rw [call, hnext]
    rw [Ne, DefectGraph.firstDangling?_eq_none_iff] at hcases
    rcases hcases with ⟨hsound, batch, hbatch, hdebug⟩ | ⟨hsound, hdebug⟩
    · refine ⟨[batch], hdebug, ?_⟩
      simp only [soundDebugGraphs, List.filterMap_cons, List.filterMap_nil, if_pos hsound]
      exact .cons hbatch .nil
    · refine ⟨[], hdebug.trans (List.append_nil _).symm, ?_⟩
      simp only [soundDebugGraphs, List.filterMap_cons, List.filterMap_nil, if_neg hsound]
      exact .nil

/-- A series of calls leaves one batch for each debug graph without dangling references, in order,
and the batches that were there. -/
theorem exists_debug_callAll (b : DefectBatches) (calls : List GraphCall) :
    ∃ added, (b.callAll calls).debug = b.debug ++ added ∧
      List.Forall₂ BelongsTo (soundDebugGraphs calls) added := by
  induction calls generalizing b with
  | nil => exact ⟨[], (List.append_nil _).symm, .nil⟩
  | cons call calls ih =>
    obtain ⟨first, hfirst, hbelongs⟩ := b.exists_debug_call call
    obtain ⟨others, hothers, hrest⟩ := ih (b.call call).state
    refine ⟨first ++ others, ?_, ?_⟩
    · rw [hfirst, List.append_assoc] at hothers
      exact hothers
    · have hcons : soundDebugGraphs (call :: calls) =
          soundDebugGraphs [call] ++ soundDebugGraphs calls :=
        List.filterMap_append (l := [call])
      rw [hcons]
      exact List.rel_append hbelongs hrest

/-- A graph of either kind is added to the batches to its end exactly if all its references are in
the range of its nodes.  Otherwise the failure is the first one that is not, where injections come
before edges and the first end of an edge before the second.  A graph that ends at an injection has
left the marks in front of it.  A graph that ends at an edge has left all its marks and, if it is a
circuit graph, the lines in front of the edge on their lattices; nothing is added to what is not
working.  In any series of calls, the debug graphs without a dangling reference have one batch each,
in order, and no other graph has one. -/
theorem addGraph_stops_at_first_dangling (b : DefectBatches) (graph : DefectGraph) :
    (Verdict graph (b.addCircuit graph).error? ∧ Verdict graph (b.addDebug graph).error?) ∧
    (∀ before reference after, graph.injections = before ++ reference :: after →
      (∀ earlier ∈ before, graph.HasNode earlier) → ¬graph.HasNode reference →
        ∃ marks, List.Forall₂ graph.Names before marks ∧
          (b.addCircuit graph).state = b.withMarks marks ∧
          (b.addDebug graph).state = b.withMarks marks) ∧
    (∀ before edge after, graph.edges = before ++ edge :: after →
      (∀ earlier ∈ graph.injections ++ DefectGraph.endReferences before, graph.HasNode earlier) →
      ¬(graph.HasNode edge.1 ∧ graph.HasNode edge.2) →
        ∃ marks lines, graph.Marks marks ∧ graph.Joins before lines ∧
          (b.addCircuit graph).state =
            { b.withMarks marks with
              primal := b.primal.addAll ((lines.filter (·.1.IsOdd)).map DefectLine.segment)
              dual := b.dual.addAll ((lines.filter (·.1.IsEven)).map DefectLine.segment) } ∧
          (b.addDebug graph).state = b.withMarks marks) ∧
    (∀ calls, ∃ added, (b.callAll calls).debug = b.debug ++ added ∧
      List.Forall₂ BelongsTo (soundDebugGraphs calls) added) := by
  refine ⟨⟨b.verdict_addCircuit graph, b.verdict_addDebug graph⟩, ?injection, ?edge,
    b.exists_debug_callAll⟩
  case injection =>
    intro before reference after hsplit hbefore hdangling
    obtain ⟨marks, hmarks⟩ := DefectGraph.exists_names hbefore
    refine ⟨marks, hmarks, ?_, ?_⟩
    · rw [addCircuit_of_injection hsplit hmarks hdangling, Attempt.state_stopped]
    · rw [addDebug_of_injection hsplit hmarks hdangling, Attempt.state_stopped]
  case edge =>
    intro before edge after hsplit hearlier hends
    rw [List.forall_mem_append] at hearlier
    obtain ⟨marks, hmarks⟩ := DefectGraph.exists_names hearlier.1
    obtain ⟨lines, hlines⟩ := DefectGraph.exists_joins hearlier.2
    have hdangling : graph.firstDangling? [edge.1, edge.2] ≠ none := by
      rw [Ne, DefectGraph.firstDangling?_eq_none_iff, List.forall_mem_cons,
        List.forall_mem_singleton]
      exact hends
    obtain ⟨reference, hreference⟩ := Option.ne_none_iff_exists'.mp hdangling
    refine ⟨marks, lines, hmarks, hlines, ?_, ?_⟩
    · rw [addCircuit_of_edge hmarks hsplit hlines hreference, Attempt.state_stopped]
      rfl
    · rw [addDebug_of_edge hmarks hsplit hlines hreference, Attempt.state_stopped]

/-- An edge on either lattice, then one with a dangling end, and then another one. -/
def brokenGraph : DefectGraph :=
  { nodes := [⟨1, 1, 1, -1⟩, ⟨2, 0, 2, 4⟩]
    edges := [(1, 2), (2, 1), (2, 3), (0, 1)]
    injections := [2] }

/-- The graph with an injection into no node before its edges. -/
def brokenMarks : DefectGraph := { brokenGraph with injections := [1, 0, 2] }

/-- A graph with one node and nothing to draw. -/
def edgelessGraph : DefectGraph := ⟨[⟨1, 0, 0, 0⟩], [], []⟩

/-- The third edge ends the graph, or else the second injection does, and only the graphs that are
not ended have a batch.  Each of the two edges in front of the third has gone to its own batch. -/
theorem addGraph_stops_at_first_dangling_broken :
    (empty.addCircuit brokenGraph).error? = some (.schedule (.danglingReference 3 2)) ∧
    (∃ marks lines, brokenGraph.Marks marks ∧ brokenGraph.Joins [(1, 2), (2, 1)] lines ∧
      (empty.addCircuit brokenGraph).state =
        { empty.withMarks marks with
          primal := LineBatch.empty.addAll ((lines.filter (·.1.IsOdd)).map DefectLine.segment)
          dual := LineBatch.empty.addAll ((lines.filter (·.1.IsEven)).map DefectLine.segment) }) ∧
    (empty.addCircuit brokenGraph).state.primal.positions.toList = [1, 1, -1, 0, 2, 4] ∧
    (empty.addCircuit brokenGraph).state.dual.positions.toList = [0, 2, 4, 1, 1, -1] ∧
    (empty.addCircuit brokenGraph).state.notWorking.positions.toList = [] ∧
    (empty.addDebug brokenMarks).error? = some (.schedule (.danglingReference 0 2)) ∧
    (∃ marks, List.Forall₂ brokenMarks.Names [1] marks ∧
      (empty.addDebug brokenMarks).state = empty.withMarks marks) ∧
    (empty.addDebug edgelessGraph).error? = none ∧
    ∃ added, (empty.callAll [.debug brokenGraph, .debug edgelessGraph, .circuit brokenMarks,
        .debug edgelessGraph]).debug = added ∧
      List.Forall₂ BelongsTo [edgelessGraph, edgelessGraph] added := by
  obtain ⟨⟨hcircuit, -⟩, -, hedge, hcalls⟩ := addGraph_stops_at_first_dangling empty brokenGraph
  obtain ⟨⟨-, hdebug⟩, hinjection, -, -⟩ := addGraph_stops_at_first_dangling empty brokenMarks
  obtain ⟨⟨-, hedgeless⟩, -⟩ := addGraph_stops_at_first_dangling empty edgelessGraph
  refine ⟨?_, ?_, by decide +kernel, by decide +kernel, rfl, ?_, ?_, ?_, ?_⟩
  · exact hcircuit.eq_first [2, 1, 2, 2, 1, 2] 3 [0, 1] rfl (by decide) (by decide)
  · obtain ⟨marks, lines, hmarks, hlines, hstate, -⟩ :=
      hedge [(1, 2), (2, 1)] (2, 3) [(0, 1)] rfl (by decide) (by decide)
    exact ⟨marks, lines, hmarks, hlines, hstate⟩
  · exact hdebug.eq_first [1] 0 _ rfl (by decide) (by decide)
  · obtain ⟨marks, hmarks, -, hstate⟩ := hinjection [1] 0 [2] rfl (by decide) (by decide)
    exact ⟨marks, hmarks, hstate⟩
  · exact hedgeless.eq_none_iff.mpr (by decide)
  · obtain ⟨added, hadded, hbelongs⟩ := hcalls [.debug brokenGraph, .debug edgelessGraph,
      .circuit brokenMarks, .debug edgelessGraph]
    exact ⟨added, hadded, hbelongs⟩

end DefectBatches

end LatticeScene.Staging
