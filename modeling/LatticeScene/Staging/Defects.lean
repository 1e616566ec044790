import LatticeScene.Staging.Boxes
import LatticeScene.Staging.StagedFrame
import LatticeScene.Schedule.Defects

/-!
# Staging defects

The edges of circuit graphs are sorted into batches of lines by the lattice of their first end;
edges on neither lattice are not drawn.  The last edge of such a graph is the connection that
could not be made and is drawn once more on its own.  The edges of a debug graph stay together in
a batch of their own.

A frame of defects is staged as its boxes, the batches, a marker for every injection and a
wireframe around all of it.
-/

namespace LatticeScene.Staging

open Shape Schedule

/-- The lines and markers of a frame of defects. -/
structure DefectBatches where
  primal : LineBatch
  dual : LineBatch
  /-- The last edges of the circuit graphs. -/
  notWorking : LineBatch
  /-- One batch for every debug graph. -/
  debug : List LineBatch
  /-- Where states are injected. -/
  injections : List (Vec3 Float32)
deriving DecidableEq

namespace DefectBatches

/-- No lines and no markers. -/
def empty : DefectBatches := ⟨.empty, .empty, .empty, [], []⟩

/-- Mark an injection. -/
def addInjection (graph : DefectGraph) (b : DefectBatches) (reference : Nat) :
    Attempt Failure DefectBatches :=
  match graph.node reference with
  | .error fault => .stopped (.schedule fault) b
  | .ok node => .done { b with injections := b.injections ++ [node.position] }

/-- Mark the injections of a graph. -/
def addInjections (graph : DefectGraph) (b : DefectBatches) : Attempt Failure DefectBatches :=
  .each (addInjection graph) b graph.injections

/-- Add a line to the batch of a lattice. -/
def addLine (b : DefectBatches) (lattice? : Option Sublattice) (start stop : Vec3 Float32) :
    DefectBatches :=
  match lattice? with
  | some .primal => { b with primal := b.primal.add start stop }
  | some .dual => { b with dual := b.dual.add start stop }
  | none => b

/-- Add the edges of a circuit graph, the last of them also as the one that is not working. -/
def addEdges (graph : DefectGraph) (b : DefectBatches) :
    List (Nat × Nat) → Attempt Failure DefectBatches
  | [] => .done b
  | edge :: rest =>
    match graph.ends edge with
    | .error fault => .stopped (.schedule fault) b
    | .ok (first, second) =>
      let b := b.addLine first.sublattice? first.position second.position
      if rest.isEmpty then
        .done { b with notWorking := b.notWorking.add first.position second.position }
      else addEdges graph b rest

/-- Add a circuit graph: its injections, then its edges. -/
def addCircuit (b : DefectBatches) (graph : DefectGraph) : Attempt Failure DefectBatches :=
  (b.addInjections graph).andThen fun b => b.addEdges graph graph.edges

/-- The batch of the edges of a debug graph. -/
def debugBatch (graph : DefectGraph) : LineBatch → List (Nat × Nat) → Except Fault LineBatch
  | batch, [] => .ok batch
  | batch, edge :: rest => do
    let (first, second) ← graph.ends edge
    debugBatch graph (batch.add first.position second.position) rest

/-- Add a debug graph: its injections, then its edges as one batch. -/
def addDebug (b : DefectBatches) (graph : DefectGraph) : Attempt Failure DefectBatches :=
  (b.addInjections graph).andThen fun b =>
    .ofExcept b ((debugBatch graph .empty graph.edges).mapError .schedule |>.map fun batch =>
      { b with debug := b.debug ++ [batch] })

/-- The batches of a frame. -/
def ofFrame (frame : DefectFrame) : Attempt Failure DefectBatches :=
  ((empty.addCircuit frame.circuit).andThen (addCircuit · frame.connections)).andThen
    fun b => .each addDebug b frame.debug

/-- All batches of lines. -/
def lineBatches (b : DefectBatches) : List LineBatch :=
  b.primal :: b.dual :: b.notWorking :: b.debug

/-- The envelope of all lines. -/
def bounds (b : DefectBatches) : Envelope :=
  b.lineBatches.foldl (fun bounds batch => bounds.union batch.bounds) .empty

end DefectBatches

/-- The strokes of the primal lattice, outline first. -/
def primalStrokes : List Stroke := [⟨"#181919", 4⟩, ⟨"#fcf2f3", 2⟩]

/-- The strokes of the dual lattice, outline first. -/
def dualStrokes : List Stroke := [⟨"#181919", 8⟩, ⟨"#686565", 6⟩]

/-- The strokes of connections that could not be made. -/
def notWorkingStrokes : List Stroke := [⟨"#ffff00", 20⟩]

/-- The strokes of the debug graph with number `i`: the graphs take turns with two colours. -/
def debugStrokes (i : Nat) : List Stroke :=
  if i % 2 = 0 then [⟨"#00ff00", 5⟩] else [⟨"#f442eb", 5⟩]

/-- The payload that marks the injections. -/
def injectionPayload (injections : List (Vec3 Float32)) : Payload :=
  .ofMesh "injections" .injections .points
    (Mesh.sequential (injections.flatMap Vec3.toList).toArray) (.solid "green")

/-- Stage the batches of a frame. -/
def stageBatches (config : Config) (b : DefectBatches) (s : StagedFrame) : StagingAttempt :=
  ((((stageLines config "primal" .primal primalStrokes b.primal (s.includeBounds b.bounds)).andThen
    (stageLines config "dual" .dual dualStrokes b.dual)).andThen
    (stageLines config "not-working" .notWorking notWorkingStrokes b.notWorking)).andThen
    fun s => .each (fun s (batch, i) =>
      stageLines config s!"debug-{i}" .debug (debugStrokes i) batch s) s b.debug.zipIdx).andThen
    fun s => .done (s.stage (injectionPayload b.injections))

/-- Stage a frame of defects. -/
def stageDefects (config : Config) (frame : DefectFrame) (s : StagedFrame) : StagingAttempt :=
  ((stageBoxes config frame.boxes s).andThen fun s =>
    match (DefectBatches.ofFrame frame).toExcept with
    | .error failure => .stopped failure s
    | .ok batches => stageBatches config batches s).andThen
    fun s => .done (stageFrameBox config s).2

end LatticeScene.Staging
