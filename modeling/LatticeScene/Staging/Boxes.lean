import LatticeScene.Shape.Batch
import LatticeScene.Staging.StagedFrame
import LatticeScene.Schedule.Boxes

/-!
# Staging boxes and plumbing pieces

Boxes are collected in batches of their own and staged only when all of them have been taken.
-/

namespace LatticeScene.Staging

open Shape Schedule

/-!
## Staging whole boxes

All boxes of a schedule become one payload.  They are collected first, in a batch of their own, so
that a schedule with a box of an unknown type, or with more boxes than a batch can hold, changes
nothing.
-/

/-- A new batch of boxes, of the capacity that is configured. -/
def newBatch (config : Config) : Except Failure BoxBatch :=
  (BoxBatch.ofCapacity config.accumulatorCapacity).mapError .shape

/-- Add the selected faces of a box to a batch, or give the batch up. -/
def addFaces (batch : BoxBatch) (faces : FaceSet) (center dimensions : Vec3 Float32) :
    Except Failure BoxBatch :=
  (batch.addBox faces center dimensions).toExcept.mapError .shape

/-- Add the boxes of placements to a batch, or give the batch up. -/
def addPlacements (schedule : BoxSchedule) (batch : BoxBatch) :
    List Placement → Except Failure BoxBatch
  | [] => .ok batch
  | placement :: rest => do
    let box ← (schedule.box placement).mapError .schedule
    let batch ← addFaces batch .all box.center box.dimensions
    addPlacements schedule batch rest

/-- The payload that draws a batch of boxes. -/
def batchPayload (name : String) (layer : Layer) (style : Style) (batch : BoxBatch) : Payload :=
  (Payload.ofMesh name layer .triangles batch.toMesh style).withFlatNormals

/-- Stage the payload of a batch of boxes. -/
def StagedFrame.stageBatch (s : StagedFrame) (name : String) (layer : Layer) (style : Style)
    (batch : BoxBatch) : StagedFrame :=
  (s.includeBounds batch.bounds).stage (batchPayload name layer style batch)

/-- The batch of all boxes of a schedule. -/
def boxBatch (config : Config) (schedule : BoxSchedule) : Except Failure BoxBatch := do
  addPlacements schedule (← newBatch config) schedule.placements

/-- Stage the boxes of a schedule. -/
def stageBoxes (config : Config) (schedule : BoxSchedule) (s : StagedFrame) : StagingAttempt :=
  if schedule.isEmpty then .done s
  else .ofExcept s ((boxBatch config schedule).map
    (s.stageBatch "boxes" .boxes (.facets "green")))

/-!
## Staging plumbing pieces

A plumbing piece expands to a unit box around it and, on each lattice, to a core with an arm along
every axis that has one.  The units, the primal and the dual boxes of a schedule become one
payload each.  They are collected first, so that a schedule that does not fit changes nothing.
-/

/-- A box given by its centre. -/
structure CenteredBox where
  center : Vec3 Float32
  dimensions : Vec3 Float32
deriving DecidableEq

/-- The boxes that a plumbing piece expands to. -/
structure PieceBoxes where
  /-- The box around the piece. -/
  unit : CenteredBox
  primal : List CenteredBox
  dual : List CenteredBox
deriving DecidableEq

/-- The core at `origin`. -/
def coreBox (sizes : PieceSizes) (origin : Vec3 Float32) : CenteredBox :=
  ⟨origin, Vec3.splat sizes.coreSize⟩

/-- The arm of the core at `origin` along an axis: the core moved and stretched along it. -/
def armBox (sizes : PieceSizes) (origin : Vec3 Float32) (axis : Axis) : CenteredBox :=
  { center := origin.set axis (origin.get axis + sizes.armOffset)
    dimensions := (Vec3.splat sizes.coreSize).set axis sizes.armLength }

/-- The core at `origin` and its arms, nothing when there is no core. -/
def coreWithArms (sizes : PieceSizes) (origin : Vec3 Float32) (bits : Nat) : List CenteredBox :=
  if PlumbingPiece.hasCore bits then
    coreBox sizes origin :: (Axis.all.filter (PlumbingPiece.hasArm bits)).map (armBox sizes origin)
  else []

/-- The boxes that a piece expands to. -/
def pieceBoxes (sizes : PieceSizes) (piece : PlumbingPiece) : PieceBoxes :=
  { unit := ⟨piece.position, Vec3.splat sizes.unitSize⟩
    primal := coreWithArms sizes piece.position piece.primal
    dual := coreWithArms sizes (piece.position + Vec3.splat sizes.dualOffset) piece.dual }

/-- The batches of a plumbing schedule. -/
structure PlumbingBatches where
  units : BoxBatch
  primals : BoxBatch
  duals : BoxBatch

/-- Add all faces of boxes to a batch, or give the batch up. -/
def addBoxes (batch : BoxBatch) : List CenteredBox → Except Failure BoxBatch
  | [] => .ok batch
  | box :: rest => do
    let batch ← addFaces batch .all box.center box.dimensions
    addBoxes batch rest

/-- Add the boxes of pieces to the batches, or give the batches up. -/
def addPieces (sizes : PieceSizes) (batches : PlumbingBatches) :
    List PlumbingPiece → Except Failure PlumbingBatches
  | [] => .ok batches
  | piece :: rest => do
    let boxes := pieceBoxes sizes piece
    let units ← addBoxes batches.units [boxes.unit]
    let primals ← addBoxes batches.primals boxes.primal
    let duals ← addBoxes batches.duals boxes.dual
    addPieces sizes { units, primals, duals } rest

/-- The batches of all pieces of a schedule. -/
def plumbingBatches (config : Config) (schedule : PlumbingSchedule) :
    Except Failure PlumbingBatches := do
  let batch ← newBatch config
  addPieces config.pieces ⟨batch, batch, batch⟩ schedule.pieces

/-- Stage the batches of a plumbing schedule. -/
def StagedFrame.stagePlumbingBatches (s : StagedFrame) (batches : PlumbingBatches) : StagedFrame :=
  ((s.stageBatch "plumbing-units" .plumbingUnits (.outline "grey") batches.units).stageBatch
    "plumbing-primals" .plumbingPrimals (.facets "red") batches.primals).stageBatch
    "plumbing-duals" .plumbingDuals (.facets "blue") batches.duals

/-- Stage a plumbing schedule. -/
def stagePlumbing (config : Config) (schedule : PlumbingSchedule) (s : StagedFrame) :
    StagingAttempt :=
  .ofExcept s ((plumbingBatches config schedule).map s.stagePlumbingBatches)

end LatticeScene.Staging
