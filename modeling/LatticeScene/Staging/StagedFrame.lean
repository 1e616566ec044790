import LatticeScene.Shape.Batch
import LatticeScene.Schedule.Boxes
import LatticeScene.Attempt
import LatticeScene.Buffer
import LatticeScene.Staging.Payload
import LatticeScene.Settings
import LatticeScene.Shape.SegmentedBox

/-!
# Staged frames

A frame is staged before it is shown.  This module has the staged frame itself and what all builders
share: the reasons to fail, the drawing of lines, and the wireframe around everything.
-/

namespace LatticeScene.Staging

/-!
## Why a frame is not shown

A frame fails because its geometry is refused, because its schedule refers to something that is
not there, or because the display has no room for it.
-/

/-- The refusal of an upload that does not fit into the memory of a display. -/
structure OutOfMemory where
  /-- How many bytes were to be uploaded. -/
  requested : Nat
  /-- How many bytes were free. -/
  available : Nat
deriving DecidableEq, Repr

/-- The text of a refused upload. -/
def OutOfMemory.message (e : OutOfMemory) : String :=
  s!"out of memory: {e.requested} bytes requested, {e.available} available"

/-- A reason for which a frame is not shown. -/
inductive Failure where
  | shape (reason : Shape.Refusal)
  | schedule (reason : Schedule.Fault)
  | display (reason : OutOfMemory)
deriving DecidableEq, Repr

namespace Failure

/-- The text of a failure. -/
def message : Failure → String
  | shape reason => reason.message
  | schedule reason => reason.message
  | display reason => "render backend failed: " ++ reason.message

/-- Whether a batch of boxes has run out of room. -/
def isCapacityExceeded : Failure → Bool
  | shape (.capacityExceeded ..) => true
  | _ => false

end Failure

open Shape

/-!
## Staging

A frame is staged before it is shown: its payloads are queued, and its bounds grow around what is
queued.  Payloads without positions are left out.

A builder stages one kind of schedule.  When it fails, what it had staged before stays staged.
-/

/-- The payloads and bounds collected for a frame. -/
structure StagedFrame where
  payloads : List Payload
  bounds : Envelope
deriving DecidableEq

/-- The outcome of staging something. -/
abbrev StagingAttempt := Attempt Failure StagedFrame

namespace StagedFrame

/-- Nothing is staged yet. -/
def empty : StagedFrame := ⟨[], .empty⟩

/-- Queue a payload, unless it has no positions. -/
def stage (s : StagedFrame) (payload : Payload) : StagedFrame :=
  if payload.mesh.isEmpty then s else { s with payloads := s.payloads ++ [payload] }

/-- Queue payloads in order. -/
def stageAll (s : StagedFrame) (payloads : List Payload) : StagedFrame := payloads.foldl stage s

/-- Grow the bounds of the frame. -/
def includeBounds (s : StagedFrame) (bounds : Envelope) : StagedFrame :=
  { s with bounds := s.bounds.union bounds }

/-- Whether nothing is queued. -/
def isEmpty (s : StagedFrame) : Bool := s.payloads.isEmpty

/-- The queued payloads on a layer. -/
def onLayer (s : StagedFrame) (layer : Layer) : List Payload :=
  s.payloads.filter (·.layer == layer)

/-- How many vertices are queued. -/
def vertexCount (s : StagedFrame) : Nat := total (s.payloads.map Payload.vertexCount)

end StagedFrame

/-!
## Staging lines

A batch of lines is drawn in chunks, and every chunk once in each of several styles, one over the
other.  The name of a payload ends in the numbers of its chunk and of its style.
-/

/-- A colour and a width of lines. -/
structure Stroke where
  color : String
  width : Float32
deriving DecidableEq

/-- The payloads that draw chunks of lines with each of the given strokes. -/
def linePayloads (name : String) (layer : Layer) (strokes : List Stroke) (chunks : List Mesh) :
    List Payload :=
  chunks.zipIdx.flatMap fun (chunk, i) =>
    strokes.zipIdx.map fun (stroke, pass) =>
      Payload.ofMesh s!"{name}-{i}-{pass}" layer .lines chunk (.line stroke.color stroke.width)

/-- Stage a batch of lines with each of the given strokes. -/
def stageLines (config : Config) (name : String) (layer : Layer) (strokes : List Stroke)
    (batch : LineBatch) (s : StagedFrame) : StagingAttempt :=
  .ofExcept s ((batch.intoChunks config.lineChunkVertices).mapError .shape |>.map fun chunks =>
    s.stageAll (linePayloads name layer strokes chunks))

/-!
## The box around a frame

A wireframe can be staged around everything that has been staged before.  The size of a frame is
reported as the number of plumbing pieces that it takes along every axis.
-/

/-- How many pieces of the given edge an extent takes along every axis, none when the edge is not
above zero. -/
def pieceCounts (size : Vec3 Float32) (pieceUnit : Float32) : Vec3 Nat :=
  if pieceUnit ≤ 0 then Vec3.splat 0
  else size.map fun extent => Binary32.ceilCount (extent / pieceUnit)

/-- The components of points moved by `offset`. -/
def translate (offset : Vec3 Float32) (positions : Array Float32) : Array Float32 :=
  ((triples positions.toList).flatMap fun point => (point + offset).toList).toArray

/-- The wireframe of a box. -/
def wireframePayload (box : CornerBox Float32) : Payload :=
  let geometry := SegmentedBox.ofAllFaces box.dimensions (Vec3.splat 1)
  { name := "bounding-box"
    layer := .boundingBox
    primitive := .triangles
    mesh := ⟨translate box.center geometry.positions, geometry.indices⟩
    normals := some geometry.normals
    style := .outline "black" }

/-- Stage a wireframe around the bounds of a frame, and give its size in pieces.  Nothing is staged
around an empty frame. -/
def stageFrameBox (config : Config) (s : StagedFrame) : Option (Vec3 Nat) × StagedFrame :=
  match s.bounds.toBox? with
  | none => (none, s)
  | some box =>
    (some (pieceCounts box.dimensions config.pieceUnit), s.stage (wireframePayload box))

end LatticeScene.Staging
