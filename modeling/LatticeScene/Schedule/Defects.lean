import LatticeScene.Schedule.Boxes

/-!
# Defect graphs

The defects of a circuit form a graph on the integer lattice.  Nodes with three odd coordinates
lie on the primal lattice and nodes with three even ones on the dual lattice.  Edges and
injections refer to nodes by their place, counted from one.

A `DefectFrame` is what is shown together: the graph of the circuit, the connections from its
pins to boxes, graphs for debugging, and the boxes.
-/

namespace LatticeScene.Schedule

open Json Shape

/-- The two lattices on which defects run. -/
inductive Sublattice where
  | primal
  | dual
deriving DecidableEq, Repr

/-- A node of a defect graph. -/
structure DefectNode where
  id : Int
  x : Int
  y : Int
  z : Int
deriving DecidableEq, Repr

/-- A defect graph. -/
structure DefectGraph where
  nodes : List DefectNode
  /-- Pairs of references to nodes. -/
  edges : List (Nat × Nat)
  /-- References to the nodes where states are injected. -/
  injections : List Nat
deriving DecidableEq, Repr

/-- What is drawn in one frame of defects. -/
structure DefectFrame where
  /-- The circuit. -/
  circuit : DefectGraph
  /-- The defects between pins and boxes. -/
  connections : DefectGraph
  /-- Graphs of which every edge is drawn as it is. -/
  debug : List DefectGraph
  /-- The boxes. -/
  boxes : BoxSchedule
deriving DecidableEq

/-- The name of a lattice. -/
def Sublattice.name : Sublattice → String
  | primal => "Primal"
  | dual => "Dual"

namespace DefectNode

/-- The coordinates of a node. -/
def coordinates (n : DefectNode) : List Int := [n.x, n.y, n.z]

/-- Where a node is drawn. -/
def position (n : DefectNode) : Vec3 Float32 :=
  ⟨Float32.ofInt n.x, Float32.ofInt n.y, Float32.ofInt n.z⟩

/-- The lattice of a node, none when its coordinates are neither all odd nor all even. -/
def sublattice? (n : DefectNode) : Option Sublattice :=
  if n.coordinates.all (· % 2 == 1) then some .primal
  else if n.coordinates.all (· % 2 == 0) then some .dual
  else none

/-- Read a node: an array of its number and its coordinates. -/
def ofTree? : Tree → Option DefectNode
  | .array [id, x, y, z] => return ⟨← id.int64?, ← x.int64?, ← y.int64?, ← z.int64?⟩
  | _ => none

/-- Write a node. -/
def toTree (n : DefectNode) : Tree := .array ([n.id, n.x, n.y, n.z].map .ofInt)

end DefectNode

namespace DefectGraph

/-- The graph without nodes. -/
def empty : DefectGraph := ⟨[], [], []⟩

/-- Whether there is nothing to draw. -/
def isEmpty (g : DefectGraph) : Bool := g.edges.isEmpty && g.injections.isEmpty

/-- The node that a reference stands for. -/
def node (g : DefectGraph) (reference : Nat) : Except Fault DefectNode :=
  match reference with
  | 0 => .error (.danglingReference 0 g.nodes.length)
  | place + 1 =>
    match g.nodes[place]? with
    | some node => .ok node
    | none => .error (.danglingReference reference g.nodes.length)

/-- The nodes at the ends of an edge; the first end is looked up first. -/
def ends (g : DefectGraph) (edge : Nat × Nat) : Except Fault (DefectNode × DefectNode) := do
  let first ← g.node edge.1
  let second ← g.node edge.2
  return (first, second)

/-- The nodes at the ends of the edge at a place, counted from zero. -/
def edge (g : DefectGraph) (place : Nat) : Except Fault (DefectNode × DefectNode) :=
  match g.edges[place]? with
  | some edge => g.ends edge
  | none => .error (.danglingReference place g.edges.length)

/-- Read an edge: an array of two references. -/
def edgeOfTree? : Tree → Option (Nat × Nat)
  | .array [a, b] => return (← a.nat64?, ← b.nat64?)
  | _ => none

/-- Read a graph.  Edges and injections may be missing. -/
def ofTree? (tree : Tree) : Option DefectGraph := do
  match ← tree.fields? [["nodes"], ["edges"], ["inj"]] with
  | [nodes, edges, injections] =>
    return {
      nodes := ← Tree.required? (Tree.list? DefectNode.ofTree?) nodes
      edges := ← Tree.orDefault? [] (Tree.list? edgeOfTree?) edges
      injections := ← Tree.orDefault? [] (Tree.list? Tree.nat64?) injections }
  | _ => none

/-- Write an edge. -/
def edgeTree (edge : Nat × Nat) : Tree := .array [.ofNat edge.1, .ofNat edge.2]

/-- Write a graph. -/
def toTree (g : DefectGraph) : Tree :=
  .record [("nodes", .ofList DefectNode.toTree g.nodes), ("edges", .ofList edgeTree g.edges),
    ("inj", .ofList Tree.ofNat g.injections)]

end DefectGraph

/-- Read a frame of defects.  Everything but the circuit may be missing. -/
def DefectFrame.ofTree? (tree : Tree) : Option DefectFrame := do
  match ← tree.fields? [["circuit", "gr1"], ["connections", "gr2"], ["debug"],
      ["boxes", "bx0"]] with
  | [circuit, connections, debug, boxes] =>
    return {
      circuit := ← Tree.required? DefectGraph.ofTree? circuit
      connections := ← Tree.orDefault? .empty DefectGraph.ofTree? connections
      debug := ← Tree.orDefault? [] (Tree.list? DefectGraph.ofTree?) debug
      boxes := ← Tree.orDefault? .empty BoxSchedule.ofTree? boxes }
  | _ => none

/-- Write a frame of defects. -/
def DefectFrame.toTree (f : DefectFrame) : Tree :=
  .record [("circuit", f.circuit.toTree), ("connections", f.connections.toTree),
    ("debug", .ofList DefectGraph.toTree f.debug), ("boxes", f.boxes.toTree)]

end LatticeScene.Schedule
