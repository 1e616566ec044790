import LatticeScene.Proofs.Json.Printing
import LatticeScene.Proofs.Json.Record
import LatticeScene.Proofs.Json.Trees
import LatticeScene.Schedule.Defects

/-!
# Texts of defect graphs

A defect graph is written as the compact text of an object with its nodes, edges and injections,
`DefectGraph.text`, and `DefectGraph.read?` reads a text as a graph.  Every graph that is read has
numbers of 64 bits (`DefectGraph.inRange_of_read?`), and every such graph is read back from what has
been written.  It is read just as well from any other text of an object that holds it
(`DefectGraph.GivenBy`): with its fields in another order, among unknown ones, without edges or
injections if there are none, and with blanks anywhere between the tokens.
-/

namespace LatticeScene.Schedule

open Json

/-- The number and the coordinates of a node have 64 bits with a sign. -/
def DefectNode.InRange (n : DefectNode) : Prop :=
  ∀ i ∈ [n.id, n.x, n.y, n.z], Int64.minValue.toInt ≤ i ∧ i ≤ Int64.maxValue.toInt

instance DefectNode.decidableInRange : DecidablePred DefectNode.InRange := fun n =>
  inferInstanceAs (Decidable (∀ i ∈ [n.id, n.x, n.y, n.z],
    Int64.minValue.toInt ≤ i ∧ i ≤ Int64.maxValue.toInt))

namespace DefectGraph

/-- The numbers of a graph have 64 bits. -/
structure InRange (g : DefectGraph) : Prop where
  nodes : ∀ n ∈ g.nodes, n.InRange
  edges : ∀ edge ∈ g.edges, edge.1 < UInt64.size ∧ edge.2 < UInt64.size
  injections : ∀ reference ∈ g.injections, reference < UInt64.size

/-- The text of a graph. -/
def text (g : DefectGraph) : String := g.toTree.compact

/-- The graph that a text holds. -/
def read? (text : String) : Option DefectGraph := (Tree.read? text).bind ofTree?

/-- The fields of a graph with their names. -/
def fields (g : DefectGraph) : List (String × Tree) :=
  [("nodes", .ofList DefectNode.toTree g.nodes), ("edges", .ofList edgeTree g.edges),
    ("inj", .ofList Tree.ofNat g.injections)]

/-- An empty list of edges or injections need not be written. -/
def MayOmit (field : String × Tree) : Prop :=
  field = ("edges", .array []) ∨ field = ("inj", .array [])

/-- The members of an object are the fields of a graph, in any order and among any others.  Edges
and injections may be missing if there are none. -/
def GivenBy (g : DefectGraph) (members : List (Quoted × Tree)) : Prop :=
  Tree.HasFields g.fields MayOmit members

end DefectGraph

/-! ### Reading what has been written -/

section Reading

/-- A node of 64 bits is read back from its tree. -/
theorem DefectNode.ofTree?_toTree {n : DefectNode} (h : n.InRange) :
    DefectNode.ofTree? n.toTree = some n := by
  have hread : ∀ i ∈ [n.id, n.x, n.y, n.z], (Tree.ofInt i).int64? = some i :=
    fun i hi => Tree.int64?_ofInt (h i hi).1 (h i hi).2
  simp only [List.forall_mem_cons] at hread
  obtain ⟨hid, hx, hy, hz, -⟩ := hread
  simp [DefectNode.toTree, DefectNode.ofTree?, hid, hx, hy, hz]

/-- The tree of a node is writable. -/
theorem DefectNode.isWritable_toTree (n : DefectNode) : n.toTree.IsWritable :=
  Tree.isWritable_ofList Tree.isWritable_ofInt [n.id, n.x, n.y, n.z]

namespace DefectGraph

variable {g : DefectGraph} {members : List (Quoted × Tree)}

/-- An edge of 64 bits is read back from its tree. -/
theorem edgeOfTree?_edgeTree {edge : Nat × Nat} (h : edge.1 < UInt64.size ∧ edge.2 < UInt64.size) :
    edgeOfTree? (edgeTree edge) = some edge := by
  rw [edgeTree, edgeOfTree?, Tree.nat64?_ofNat h.1, Tree.nat64?_ofNat h.2]
  rfl

/-- No two fields of a graph have the same name. -/
theorem nodup_names (g : DefectGraph) : (g.fields.map Prod.fst).Nodup := by
  have hnames : g.fields.map Prod.fst = ["nodes", "edges", "inj"] := rfl
  rw [hnames]
  decide

/-- The fields that are found in an object that holds a graph. -/
theorem GivenBy.fields? (h : g.GivenBy members) :
    ∃ edges injections,
      (Tree.object members).fields? [["nodes"], ["edges"], ["inj"]] =
        some [some (.ofList DefectNode.toTree g.nodes), edges, injections] ∧
      (edges = some (.ofList edgeTree g.edges) ∨
        edges = none ∧ Tree.ofList edgeTree g.edges = .array []) ∧
      (injections = some (.ofList Tree.ofNat g.injections) ∨
        injections = none ∧ Tree.ofList Tree.ofNat g.injections = .array []) := by
  obtain ⟨found, hfound, hvalues⟩ := Tree.HasFields.fields? h g.nodup_names
  rw [fields] at hvalues hfound
  obtain _ | @⟨_, nodes, _, _, hnodes, _ | @⟨_, edges, _, _, hedges,
    _ | @⟨_, injections, _, _, hinjections, _ | _⟩⟩⟩ := hvalues
  -- of the three fields the nodes are the one that may not be missing
  have hnodes : nodes = some (.ofList DefectNode.toTree g.nodes) :=
    hnodes.resolve_right fun h => by simp [MayOmit] at h
  subst hnodes
  refine ⟨edges, injections, hfound, ?_, ?_⟩
  · simpa [MayOmit] using hedges
  · simpa [MayOmit] using hinjections

/-- An object that holds a graph is read as this graph. -/
theorem ofTree?_of_givenBy (hrange : g.InRange) (h : g.GivenBy members) :
    ofTree? (.object members) = some g := by
  obtain ⟨edges, injections, hfound, hedges, hinjections⟩ := h.fields?
  have hnodes : Tree.list? DefectNode.ofTree? (.ofList DefectNode.toTree g.nodes) = some g.nodes :=
    Tree.list?_ofList fun n hn => DefectNode.ofTree?_toTree (hrange.nodes n hn)
  have hreadEdges := Tree.orDefault?_list?
    (fun edge hedge => edgeOfTree?_edgeTree (hrange.edges edge hedge)) hedges
  have hreadInjections := Tree.orDefault?_list?
    (fun k hk => Tree.nat64?_ofNat (hrange.injections k hk)) hinjections
  rw [ofTree?, hfound]
  simp [Tree.required?, hnodes, hreadEdges, hreadInjections]

/-- A written graph holds its fields. -/
theorem givenBy_toTree (g : DefectGraph) :
    ∃ members, g.toTree = .object members ∧ g.GivenBy members :=
  ⟨_, rfl, Tree.hasFields_record g.fields MayOmit⟩

/-- The tree of an edge is writable. -/
theorem isWritable_edgeTree (edge : Nat × Nat) : (edgeTree edge).IsWritable :=
  Tree.isWritable_ofList Tree.isWritable_ofNat [edge.1, edge.2]

/-- The tree of a graph is writable. -/
theorem isWritable_toTree (g : DefectGraph) : g.toTree.IsWritable := by
  refine Tree.isWritable_record (List.forall_mem_cons.mpr ⟨?_, List.forall_mem_cons.mpr ⟨?_,
    List.forall_mem_singleton.mpr ?_⟩⟩)
  · exact Tree.isWritable_ofList DefectNode.isWritable_toTree g.nodes
  · exact Tree.isWritable_ofList isWritable_edgeTree g.edges
  · exact Tree.isWritable_ofList Tree.isWritable_ofNat g.injections

/-- A graph is read from every spelling of an object that gives its fields. -/
theorem read?_of_spelledBy (hrange : g.InRange) (h : g.GivenBy members) {text : String}
    (htext : (Tree.object members).SpelledBy text) : read? text = some g := by
  rw [read?, htext.read?]
  exact ofTree?_of_givenBy hrange h

/-- A graph is read back from its own text. -/
theorem read?_text (hrange : g.InRange) : read? g.text = some g := by
  obtain ⟨members, htree, hgiven⟩ := g.givenBy_toTree
  have htext := g.isWritable_toTree.spelledBy_compact
  rw [htree] at htext
  rw [text, htree]
  exact read?_of_spelledBy hrange hgiven htext

end DefectGraph

end Reading

/-! ### Graphs that are read -/

section Range

/-- The numbers of a node that was read have 64 bits. -/
theorem DefectNode.inRange_of_ofTree? {tree : Tree} {n : DefectNode}
    (h : DefectNode.ofTree? tree = some n) : n.InRange := by
  rw [DefectNode.ofTree?.eq_def] at h
  split at h
  · simp only [Option.bind_eq_bind, Option.bind_eq_some_iff, Option.pure_def, Option.some.injEq]
      at h
    obtain ⟨id, hid, x, hx, y, hy, z, hz, rfl⟩ := h
    simp only [DefectNode.InRange, List.forall_mem_cons]
    exact ⟨Tree.bounds_of_int64? hid, Tree.bounds_of_int64? hx, Tree.bounds_of_int64? hy,
      Tree.bounds_of_int64? hz, List.forall_mem_nil _⟩
  · cases h

namespace DefectGraph

/-- The references of an edge that was read have 64 bits. -/
theorem lt_of_edgeOfTree? {tree : Tree} {edge : Nat × Nat} (h : edgeOfTree? tree = some edge) :
    edge.1 < UInt64.size ∧ edge.2 < UInt64.size := by
  rw [edgeOfTree?.eq_def] at h
  split at h
  · simp only [Option.bind_eq_bind, Option.bind_eq_some_iff, Option.pure_def, Option.some.injEq]
      at h
    obtain ⟨a, ha, b, hb, rfl⟩ := h
    exact ⟨Tree.lt_of_nat64? ha, Tree.lt_of_nat64? hb⟩
  · cases h

/-- The numbers of a graph that has been read have 64 bits. -/
theorem inRange_of_read? {text : String} {g : DefectGraph} (h : read? text = some g) :
    g.InRange := by
  obtain ⟨tree, -, htree⟩ := Option.bind_eq_some_iff.mp h
  rw [ofTree?] at htree
  obtain ⟨found, -, htree⟩ := Option.bind_eq_some_iff.mp htree
  split at htree
  · simp only [Option.bind_eq_bind, Option.bind_eq_some_iff, Option.pure_def, Option.some.injEq]
      at htree
    obtain ⟨nodes, hnodes, edges, hedges, injections, hinjections, rfl⟩ := htree
    obtain ⟨tree, -, hnodes⟩ := Option.bind_eq_some_iff.mp hnodes
    refine ⟨fun n hn => ?_, fun edge hedge => ?_, fun k hk => ?_⟩
    · obtain ⟨item, hitem⟩ := Tree.exists_of_mem_list? hnodes hn
      exact DefectNode.inRange_of_ofTree? hitem
    · obtain ⟨item, hitem⟩ := Tree.exists_of_mem_orDefault? hedges hedge
      exact lt_of_edgeOfTree? hitem
    · obtain ⟨item, hitem⟩ := Tree.exists_of_mem_orDefault? hinjections hk
      exact Tree.lt_of_nat64? hitem
  · cases htree

/-- Whatever text a graph has been read from, its own text is read as the same graph. -/
theorem read?_text_of_read? {text : String} {g : DefectGraph} (h : read? text = some g) :
    read? g.text = some g :=
  read?_text (inRange_of_read? h)

end DefectGraph

end Range

/-! ### Round trips -/

namespace DefectGraph

/-- A graph with numbers of 64 bits is read back from its text, and from every text of an object
that holds it.  Writing what has been read back gives the same text. -/
theorem round_trips_through_text {g : DefectGraph} (h : g.InRange) :
    read? g.text = some g ∧
      (∀ members text, g.GivenBy members → (Tree.object members).SpelledBy text →
        read? text = some g) ∧
      (read? g.text).map text = some g.text := by
  have hread := read?_text h
  refine ⟨hread, fun members text hgiven htext => read?_of_spelledBy h hgiven htext, ?_⟩
  rw [hread]
  rfl

/-- A graph with the least and the greatest numbers, and without injections. -/
def extremes : DefectGraph :=
  ⟨[⟨-9223372036854775808, 9223372036854775807, 0, -1⟩], [(1, 18446744073709551615)], []⟩

/-- The fields of `extremes` the other way round, after an unknown one and without injections. -/
def extremesReversed : List (String × Tree) :=
  [("note", .array [.null]), ("edges", .ofList edgeTree extremes.edges),
    ("nodes", .ofList DefectNode.toTree extremes.nodes)]

/-- The graph with the least and the greatest numbers is in range. -/
theorem inRange_extremes : extremes.InRange :=
  ⟨by decide +kernel, by decide, by decide⟩

/-- The fields the other way round, with an unknown one and without the injections, give the graph.
-/
theorem givenBy_extremesReversed :
    extremes.GivenBy
      (extremesReversed.map fun field => (Quoted.ofString field.1, field.2)) := by
  refine ⟨extremesReversed, extremes.fields.take 2, [("note", .array [.null])],
    Tree.named_map extremesReversed, (List.reverse_perm _).symm, List.take_sublist _ _, ?_, ?_⟩
  · simp [fields, extremes, MayOmit, Tree.ofList]
  · exact List.forall_mem_singleton.mpr (by decide)

/-- The tree of the fields the other way round is writable. -/
theorem isWritable_extremesReversed : (Tree.record extremesReversed).IsWritable := by
  refine Tree.isWritable_record (List.forall_mem_cons.mpr ⟨?_, List.forall_mem_cons.mpr ⟨?_,
    List.forall_mem_singleton.mpr ?_⟩⟩)
  · exact .array (List.forall_mem_singleton.mpr .null)
  · exact Tree.isWritable_ofList isWritable_edgeTree extremes.edges
  · exact Tree.isWritable_ofList DefectNode.isWritable_toTree extremes.nodes

/-- The least and the greatest numbers are read back, also from a text with line breaks, another
order of the fields, an unknown field and no injections. -/
theorem round_trips_through_text_extremes :
    extremes.InRange ∧
      read? ("\x7b\"nodes\":[[-9223372036854775808,9223372036854775807,0,-1]]," ++
        "\"edges\":[[1,18446744073709551615]],\"inj\":[]\x7d") = some extremes ∧
      read? ("\x7b\n  \"note\": [\n    null\n  ],\n" ++
        "  \"edges\": [\n    [\n      1,\n      18446744073709551615\n    ]\n  ],\n" ++
        "  \"nodes\": [\n    [\n      -9223372036854775808,\n      9223372036854775807,\n" ++
        "      0,\n      -1\n    ]\n  ]\n\x7d") = some extremes ∧
      (read? extremes.text).map text = some extremes.text := by
  obtain ⟨hread, hgiven, hwritten⟩ := round_trips_through_text inRange_extremes
  have htext : extremes.text = "\x7b\"nodes\":[[-9223372036854775808,9223372036854775807,0,-1]]," ++
      "\"edges\":[[1,18446744073709551615]],\"inj\":[]\x7d" := by decide +kernel
  have hpretty : (Tree.record extremesReversed).pretty =
      "\x7b\n  \"note\": [\n    null\n  ],\n" ++
        "  \"edges\": [\n    [\n      1,\n      18446744073709551615\n    ]\n  ],\n" ++
        "  \"nodes\": [\n    [\n      -9223372036854775808,\n      9223372036854775807,\n" ++
        "      0,\n      -1\n    ]\n  ]\n\x7d" := by decide +kernel
  rw [← htext, ← hpretty]
  exact ⟨inRange_extremes, hread,
    hgiven _ _ givenBy_extremesReversed isWritable_extremesReversed.spelledBy_pretty, hwritten⟩

end DefectGraph

end LatticeScene.Schedule
