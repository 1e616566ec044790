import LatticeScene.Schedule.Defects
import Mathlib.Algebra.Ring.Int.Parity
import Mathlib.Data.List.Forall2

/-!
# What a defect graph draws

The edges and injections of a defect graph are references to its nodes, counted from one.
`DefectGraph.Joins g edges lines` says that `lines` are the pairs of nodes that `edges` refer to,
edge by edge, `DefectGraph.Draws g lines` says so of all edges of `g`, and
`DefectGraph.Marks g nodes` says the same of its injections.  Looking a reference up finds exactly
the node it names (`node_eq_ok_iff`).  A reference that names no node is dangling, and
`DefectGraph.firstDangling?` is the first such one among several.  `DefectGraph.LookedUp` says how
far the references of a graph can be looked up.

A node lies on the primal lattice when its coordinates are odd, and on the dual lattice when they
are even, whatever their signs (`sublattice?_eq_primal_iff`, `sublattice?_eq_dual_iff`).
-/

namespace LatticeScene.Schedule

namespace DefectNode

/-- All three coordinates are odd. -/
def IsOdd (n : DefectNode) : Prop := Odd n.x ∧ Odd n.y ∧ Odd n.z

/-- All three coordinates are even. -/
def IsEven (n : DefectNode) : Prop := Even n.x ∧ Even n.y ∧ Even n.z

instance decidableIsOdd : DecidablePred IsOdd := fun n =>
  inferInstanceAs (Decidable (Odd n.x ∧ Odd n.y ∧ Odd n.z))

instance decidableIsEven : DecidablePred IsEven := fun n =>
  inferInstanceAs (Decidable (Even n.x ∧ Even n.y ∧ Even n.z))

/-- The test for odd coordinates is that each of them leaves one when divided by two. -/
theorem all_odd_iff (n : DefectNode) :
    (n.coordinates.all fun c => c % 2 == 1) = true ↔ n.IsOdd := by
  simp only [coordinates, List.all_cons, List.all_nil, Bool.and_true, Bool.and_eq_true, beq_iff_eq,
    IsOdd, Int.odd_iff]

/-- The test for even coordinates is that two divides each of them. -/
theorem all_even_iff (n : DefectNode) :
    (n.coordinates.all fun c => c % 2 == 0) = true ↔ n.IsEven := by
  simp only [coordinates, List.all_cons, List.all_nil, Bool.and_true, Bool.and_eq_true, beq_iff_eq,
    IsEven, Int.even_iff]

/-- A node is not on both lattices. -/
theorem IsOdd.not_isEven {n : DefectNode} (h : n.IsOdd) : ¬n.IsEven :=
  fun heven => Int.not_even_iff_odd.mpr h.1 heven.1

/-- A node is on the primal lattice when its coordinates are odd. -/
theorem sublattice?_eq_primal_iff (n : DefectNode) : n.sublattice? = some .primal ↔ n.IsOdd := by
  rw [sublattice?]
  by_cases hodd : n.IsOdd
  · rw [if_pos ((all_odd_iff n).mpr hodd)]
    exact iff_of_true rfl hodd
  · rw [if_neg (mt (all_odd_iff n).mp hodd)]
    refine iff_of_false ?_ hodd
    split <;> simp

/-- A node is on the dual lattice when its coordinates are even. -/
theorem sublattice?_eq_dual_iff (n : DefectNode) : n.sublattice? = some .dual ↔ n.IsEven := by
  rw [sublattice?]
  by_cases hodd : n.IsOdd
  · rw [if_pos ((all_odd_iff n).mpr hodd)]
    exact iff_of_false (by simp) hodd.not_isEven
  · rw [if_neg (mt (all_odd_iff n).mp hodd)]
    by_cases heven : n.IsEven
    · rw [if_pos ((all_even_iff n).mpr heven)]
      exact iff_of_true rfl heven
    · rw [if_neg (mt (all_even_iff n).mp heven)]
      exact iff_of_false (by simp) heven

end DefectNode

/-- A line between two nodes. -/
abbrev DefectLine := DefectNode × DefectNode

/-- Where a line is drawn. -/
def DefectLine.segment (line : DefectLine) : Shape.Vec3 Float32 × Shape.Vec3 Float32 :=
  (line.1.position, line.2.position)

namespace DefectGraph

/-- A reference names a node by its place, counted from one. -/
def Names (g : DefectGraph) (reference : Nat) (node : DefectNode) : Prop :=
  ∃ place, reference = place + 1 ∧ g.nodes[place]? = some node

/-- The edges name the two ends of the lines, edge by edge. -/
def Joins (g : DefectGraph) (edges : List (Nat × Nat)) (lines : List DefectLine) : Prop :=
  List.Forall₂ (fun edge line => g.Names edge.1 line.1 ∧ g.Names edge.2 line.2) edges lines

/-- The lines between the nodes that all edges of the graph name, edge by edge. -/
def Draws (g : DefectGraph) (lines : List DefectLine) : Prop := g.Joins g.edges lines

/-- The nodes that the injections name, one by one. -/
def Marks (g : DefectGraph) (nodes : List DefectNode) : Prop :=
  List.Forall₂ g.Names g.injections nodes

/-- Looking a reference up gives the node that it names. -/
theorem node_eq_ok_iff {g : DefectGraph} {reference : Nat} {node : DefectNode} :
    g.node reference = .ok node ↔ g.Names reference node := by
  cases reference with
  | zero =>
    refine iff_of_false ?_ ?_
    · rintro ⟨⟩
    · rintro ⟨place, hzero, -⟩
      omega
  | succ place =>
    have hnames : g.Names (place + 1) node ↔ g.nodes[place]? = some node := by
      constructor
      · rintro ⟨other, hplace, hnode⟩
        rwa [Nat.succ.inj hplace]
      · exact fun hnode => ⟨place, rfl, hnode⟩
    rw [hnames, DefectGraph.node]
    cases g.nodes[place]? with
    | none => simp
    | some found => simp

/-- Looking an edge up gives the line between the nodes that its ends name. -/
theorem ends_eq_ok_iff {g : DefectGraph} {edge : Nat × Nat} {line : DefectLine} :
    g.ends edge = .ok line ↔ g.Names edge.1 line.1 ∧ g.Names edge.2 line.2 := by
  rw [← node_eq_ok_iff, ← node_eq_ok_iff, ends]
  cases hfirst : g.node edge.1 with
  | error fault => simp [bind, Except.bind]
  | ok first =>
    cases hsecond : g.node edge.2 with
    | error fault => simp [bind, Except.bind]
    | ok second => simp [bind, Except.bind, pure, Except.pure, Prod.ext_iff]

/-! ### References that name no node -/

/-- A reference is in the range of the nodes. -/
def HasNode (g : DefectGraph) (reference : Nat) : Prop :=
  1 ≤ reference ∧ reference ≤ g.nodes.length

instance decidableHasNode (g : DefectGraph) : DecidablePred g.HasNode := fun reference =>
  inferInstanceAs (Decidable (1 ≤ reference ∧ reference ≤ g.nodes.length))

/-- The references in edges, edge by edge and the first end first. -/
def endReferences (edges : List (Nat × Nat)) : List Nat :=
  edges.flatMap fun edge => [edge.1, edge.2]

/-- All references of a graph in the order in which they are looked up. -/
def references (g : DefectGraph) : List Nat := g.injections ++ endReferences g.edges

/-- The first of several references that is dangling. -/
def firstDangling? (g : DefectGraph) (references : List Nat) : Option Nat :=
  references.find? fun reference => !decide (g.HasNode reference)

/-- The fault of a dangling reference. -/
def dangling (g : DefectGraph) (reference : Nat) : Fault :=
  .danglingReference reference g.nodes.length

section Dangling

variable {g : DefectGraph}

/-- A reference in the range of the nodes names one of them. -/
theorem hasNode_iff {reference : Nat} : g.HasNode reference ↔ ∃ node, g.Names reference node := by
  constructor
  · rintro ⟨hpos, hle⟩
    have hlt : reference - 1 < g.nodes.length := by omega
    exact ⟨g.nodes[reference - 1], reference - 1, (Nat.sub_add_cancel hpos).symm,
      List.getElem?_eq_getElem hlt⟩
  · rintro ⟨node, place, rfl, hnode⟩
    obtain ⟨hlt, -⟩ := List.getElem?_eq_some_iff.mp hnode
    exact ⟨Nat.le_add_left 1 place, hlt⟩

/-- Looking a dangling reference up is a fault. -/
theorem node_of_dangling {reference : Nat} (h : ¬g.HasNode reference) :
    g.node reference = .error (g.dangling reference) := by
  cases reference with
  | zero => rfl
  | succ place =>
    have hnone : g.nodes[place]? = none := by
      refine List.getElem?_eq_none (Nat.not_lt.mp fun hlt => h ?_)
      exact ⟨Nat.le_add_left 1 place, hlt⟩
    rw [node, hnone]
    rfl

/-- No reference is dangling exactly when each of them names a node. -/
theorem firstDangling?_eq_none_iff {references : List Nat} :
    g.firstDangling? references = none ↔ ∀ reference ∈ references, g.HasNode reference := by
  simp only [firstDangling?, List.find?_eq_none, Bool.not_eq_true', decide_eq_false_iff_not,
    not_not]

/-- The first dangling reference is looked for in one part after the other. -/
theorem firstDangling?_append (references others : List Nat) :
    g.firstDangling? (references ++ others) =
      (g.firstDangling? references).or (g.firstDangling? others) := List.find?_append

/-- A dangling reference in front is the first one. -/
theorem firstDangling?_cons_of_dangling {reference : Nat} (h : ¬g.HasNode reference)
    (references : List Nat) : g.firstDangling? (reference :: references) = some reference := by
  refine List.find?_cons_of_pos ?_
  rw [decide_eq_false h]
  rfl

/-- Of an edge that is not drawn, the first end that is dangling is the fault. -/
theorem ends_of_dangling {edge : Nat × Nat} {reference : Nat}
    (h : g.firstDangling? [edge.1, edge.2] = some reference) :
    g.ends edge = .error (g.dangling reference) := by
  obtain ⟨hreference, before, after, hsplit, hbefore⟩ := List.find?_eq_some_iff_append.mp h
  have hdangling : ¬g.HasNode reference := by simpa using hreference
  rw [ends]
  cases before with
  | nil =>
    obtain ⟨rfl, -⟩ := List.cons.inj hsplit
    rw [node_of_dangling hdangling]
    rfl
  | cons first before =>
    obtain ⟨rfl, hrest⟩ := List.cons.inj hsplit
    have hfirst : g.HasNode edge.1 := by simpa using hbefore edge.1 List.mem_cons_self
    obtain ⟨node, hnode⟩ := hasNode_iff.mp hfirst
    rw [node_eq_ok_iff.mpr hnode]
    cases before with
    | nil =>
      obtain ⟨rfl, -⟩ := List.cons.inj hrest
      rw [node_of_dangling hdangling]
      rfl
    | cons second before =>
      have hlength := congrArg List.length hrest
      simp at hlength

/-- References that are not dangling name nodes. -/
theorem exists_names {references : List Nat} (h : ∀ reference ∈ references, g.HasNode reference) :
    ∃ nodes, List.Forall₂ g.Names references nodes := by
  induction references with
  | nil => exact ⟨[], .nil⟩
  | cons reference references ih =>
    obtain ⟨node, hnode⟩ := hasNode_iff.mp (h reference List.mem_cons_self)
    obtain ⟨nodes, hnodes⟩ := ih fun other hother => h other (List.mem_cons_of_mem _ hother)
    exact ⟨node :: nodes, .cons hnode hnodes⟩

/-- An edge without a dangling end is drawn. -/
theorem exists_line {edge : Nat × Nat} (h : g.firstDangling? [edge.1, edge.2] = none) :
    ∃ line : DefectLine, g.Names edge.1 line.1 ∧ g.Names edge.2 line.2 := by
  rw [firstDangling?_eq_none_iff, List.forall_mem_cons, List.forall_mem_singleton] at h
  obtain ⟨first, hfirst⟩ := hasNode_iff.mp h.1
  obtain ⟨second, hsecond⟩ := hasNode_iff.mp h.2
  exact ⟨(first, second), hfirst, hsecond⟩

/-- References name nodes up to the first dangling one. -/
theorem names_or_split (references : List Nat) :
    (g.firstDangling? references = none ∧ ∃ nodes, List.Forall₂ g.Names references nodes) ∨
      ∃ before reference after nodes, references = before ++ reference :: after ∧
        List.Forall₂ g.Names before nodes ∧ ¬g.HasNode reference ∧
        g.firstDangling? references = some reference := by
  cases h : g.firstDangling? references with
  | none => exact Or.inl ⟨rfl, exists_names (firstDangling?_eq_none_iff.mp h)⟩
  | some reference =>
    obtain ⟨hdangling, before, after, hsplit, hbefore⟩ := List.find?_eq_some_iff_append.mp h
    have hnames : ∀ earlier ∈ before, g.HasNode earlier := by
      intro earlier hmem
      simpa using hbefore earlier hmem
    obtain ⟨nodes, hnodes⟩ := exists_names hnames
    exact Or.inr ⟨before, reference, after, nodes, hsplit, hnodes, by simpa using hdangling, rfl⟩

/-- Edges are drawn up to the first one with a dangling end. -/
theorem joins_or_split (edges : List (Nat × Nat)) :
    (g.firstDangling? (endReferences edges) = none ∧ ∃ lines, g.Joins edges lines) ∨
      ∃ before edge after lines reference, edges = before ++ edge :: after ∧
        g.Joins before lines ∧ g.firstDangling? [edge.1, edge.2] = some reference ∧
        g.firstDangling? (endReferences edges) = some reference := by
  induction edges with
  | nil => exact Or.inl ⟨rfl, [], .nil⟩
  | cons edge edges ih =>
    have hcons : g.firstDangling? (endReferences (edge :: edges)) =
        (g.firstDangling? [edge.1, edge.2]).or (g.firstDangling? (endReferences edges)) :=
      firstDangling?_append _ _
    rw [hcons]
    -- the first edge is dangling, or it is joined and the others decide
    cases hends : g.firstDangling? [edge.1, edge.2] with
    | some reference =>
      exact Or.inr ⟨[], edge, edges, [], reference, rfl, .nil, hends, rfl⟩
    | none =>
      obtain ⟨line, hline⟩ := exists_line hends
      rcases ih with
        ⟨hnone, lines, hlines⟩ |
        ⟨before, other, after, lines, reference, rfl, hlines, hfirst, hsome⟩
      · exact Or.inl ⟨hnone, line :: lines, .cons hline hlines⟩
      · exact Or.inr ⟨edge :: before, other, after, line :: lines, reference, rfl,
          .cons hline hlines, hfirst, hsome⟩

/-- Edges whose ends name nodes join them with lines. -/
theorem exists_joins {edges : List (Nat × Nat)}
    (h : ∀ reference ∈ endReferences edges, g.HasNode reference) :
    ∃ lines, g.Joins edges lines := by
  rcases joins_or_split edges with ⟨-, hlines⟩ | ⟨_, _, _, _, _, -, -, -, hsome⟩
  · exact hlines
  · rw [firstDangling?_eq_none_iff.mpr h] at hsome
    cases hsome

end Dangling

/-- How far the references of a graph can be looked up: all of them, or up to a dangling one, which
is an injection or an end of an edge. -/
inductive LookedUp (g : DefectGraph) : Option Nat → Prop where
  | whole {marks : List DefectNode} {lines : List DefectLine} (hmarks : g.Marks marks)
      (hlines : g.Draws lines) : LookedUp g none
  | injection {before after : List Nat} {reference : Nat} {marks : List DefectNode}
      (hsplit : g.injections = before ++ reference :: after)
      (hmarks : List.Forall₂ g.Names before marks) (hdangling : ¬g.HasNode reference) :
      LookedUp g (some reference)
  | edge {before after : List (Nat × Nat)} {edge : Nat × Nat} {reference : Nat}
      {marks : List DefectNode} {lines : List DefectLine} (hmarks : g.Marks marks)
      (hsplit : g.edges = before ++ edge :: after) (hlines : g.Joins before lines)
      (hdangling : g.firstDangling? [edge.1, edge.2] = some reference) :
      LookedUp g (some reference)

/-- Every graph can be looked up as far as its first dangling reference, or else as a whole. -/
theorem lookedUp (g : DefectGraph) : g.LookedUp (g.firstDangling? g.references) := by
  rw [references, firstDangling?_append]
  rcases g.names_or_split g.injections with
    ⟨hnone, marks, hmarks⟩ | ⟨before, reference, after, marks, hsplit, hmarks, hdangling, hsome⟩
  case inr =>
    rw [hsome]
    exact .injection hsplit hmarks hdangling
  rw [hnone, Option.none_or]
  rcases g.joins_or_split g.edges with
    ⟨hnone, lines, hlines⟩ |
      ⟨before, edge, after, lines, reference, hsplit, hlines, hdangling, hsome⟩
  · rw [hnone]
    exact .whole hmarks hlines
  · rw [hsome]
    exact .edge hmarks hsplit hlines hdangling

end DefectGraph

/-- What is drawn of a frame: the lines of every graph, and the nodes that are marked. -/
@[ext]
structure DefectDrawing where
  circuit : List DefectLine
  connections : List DefectLine
  /-- The lines of every debug graph. -/
  debug : List (List DefectLine)
  /-- The marked nodes of the circuit, of the connections and of every debug graph. -/
  marks : List (List DefectNode)

/-- A drawing has what the references of a frame name, graph by graph. -/
structure DefectFrame.DrawnAs (frame : DefectFrame) (drawing : DefectDrawing) : Prop where
  circuit : frame.circuit.Draws drawing.circuit
  connections : frame.connections.Draws drawing.connections
  debug : List.Forall₂ DefectGraph.Draws frame.debug drawing.debug
  marks : List.Forall₂ DefectGraph.Marks (frame.circuit :: frame.connections :: frame.debug)
    drawing.marks

/-- A reference names at most one node. -/
theorem DefectGraph.rightUnique_names (g : DefectGraph) : Relator.RightUnique g.Names := by
  intro reference node other hnode hother
  rw [← node_eq_ok_iff] at hnode hother
  exact Except.ok.inj (hnode.symm.trans hother)

/-- Edges join no more than one list of lines. -/
theorem DefectGraph.rightUnique_joins (g : DefectGraph) : Relator.RightUnique g.Joins := by
  have hedge : Relator.RightUnique fun (edge : Nat × Nat) (line : DefectLine) =>
      g.Names edge.1 line.1 ∧ g.Names edge.2 line.2 := by
    intro edge line other hline hother
    exact Prod.ext (g.rightUnique_names hline.1 hother.1) (g.rightUnique_names hline.2 hother.2)
  intro edges lines others hlines hothers
  exact hedge.forall₂ hlines hothers

/-- A graph draws no more than one list of lines. -/
theorem DefectGraph.rightUnique_draws : Relator.RightUnique Draws := fun g _ _ hlines hothers =>
  g.rightUnique_joins hlines hothers

/-- A graph marks no more than one list of nodes. -/
theorem DefectGraph.rightUnique_marks : Relator.RightUnique Marks := by
  intro g nodes others hnodes hothers
  exact g.rightUnique_names.forall₂ hnodes hothers

/-- There is at most one drawing of a frame. -/
theorem DefectFrame.DrawnAs.unique {frame : DefectFrame} {drawing other : DefectDrawing}
    (h : frame.DrawnAs drawing) (hother : frame.DrawnAs other) : drawing = other := by
  have hcircuit := DefectGraph.rightUnique_draws h.circuit hother.circuit
  have hconnections := DefectGraph.rightUnique_draws h.connections hother.connections
  have hdebug := DefectGraph.rightUnique_draws.forall₂ h.debug hother.debug
  have hmarks := DefectGraph.rightUnique_marks.forall₂ h.marks hother.marks
  exact DefectDrawing.ext hcircuit hconnections hdebug hmarks

end LatticeScene.Schedule
