import LatticeScene.Shape.Spelling
import LatticeScene.Buffer
import LatticeScene.Display.Device
import LatticeScene.Staging.Defects
import LatticeScene.Staging.Lattice
import LatticeScene.Staging.Boxes

/-!
# Viewers and sessions

A viewer shows frames on a device, reports on each of them, and is used in sessions of many
actions.
-/

namespace LatticeScene.Display

open Json Shape

/-!
## Frame summaries

The counts that are reported when a frame has been shown.
-/

/-- What is reported of a frame that has been shown. -/
structure FrameSummary where
  /-- The number of the frame, counted from one. -/
  frame : Nat
  meshes : Nat
  attached : Nat
  vertices : Nat
  bytes : Nat
  /-- The box around the frame, none when it is empty. -/
  bounds : Option (CornerBox Float32)
  /-- The size of that box in plumbing pieces. -/
  pieces : Option (Vec3 Nat)
deriving DecidableEq

/-- The fields of a summary as JSON. -/
def FrameSummary.members (s : FrameSummary) : List (String × Tree) :=
  [("frame", .ofNat s.frame), ("meshes", .ofNat s.meshes), ("attached", .ofNat s.attached),
    ("vertices", .ofNat s.vertices), ("bytes", .ofNat s.bytes),
    ("bounds", .ofOption CornerBox.toTree s.bounds),
    ("pieces", .ofOption (Vec3.toTree Tree.ofNat) s.pieces)]

/-- Write a summary as JSON. -/
def FrameSummary.toTree (s : FrameSummary) : Tree := .record s.members

open Staging

/-!
## Viewers

A `Viewer` owns all meshes that are uploaded to a device and shows one frame after the other.  A
new frame is staged first.  When staging fails, the frame before it stays as it is.  When it
succeeds, the meshes of the frame before are disposed of and the staged payloads are uploaded; if
an upload is refused, those before it are disposed of too, and nothing is shown.

Layers can be shown and hidden at any time.  What is hidden stays uploaded, and a later frame
follows the same visibility.
-/

/-- A mesh that a viewer has uploaded. -/
structure LiveMesh where
  handle : Handle
  layer : Layer
  name : String
  vertexCount : Nat
  bytes : Nat
deriving DecidableEq, Repr

/-- The state of a viewer. -/
structure Viewer where
  display : RecordedDevice
  /-- The uploaded meshes in the order of their payloads. -/
  live : List LiveMesh
  /-- The bounds of the frame that is shown. -/
  bounds : Envelope
  /-- Which layers are shown. -/
  visible : Layer → Bool
  config : Config
  /-- How many frames have been shown. -/
  frames : Nat

/-- What a viewer keeps of an uploaded payload. -/
def LiveMesh.ofPayload (handle : Handle) (p : Payload) : LiveMesh :=
  { handle, layer := p.layer, name := p.name, vertexCount := p.vertexCount, bytes := p.byteSize }

namespace Viewer

/-- A viewer that has shown nothing. -/
def start (device : Device) (config : Config) : Viewer :=
  { display := .ofDevice device
    live := []
    bounds := .empty
    visible := fun layer => layer.visibleUnder config.draw
    config
    frames := 0 }

/-- Show or hide a layer. -/
def setLayerVisible (v : Viewer) (layer : Layer) (visible : Bool) : Viewer :=
  { v with
    visible := fun l => if l = layer then visible else v.visible l
    display := (v.live.filter (·.layer == layer)).foldl
      (fun display mesh => display.setAttached mesh.handle visible) v.display }

/-- Change what is drawn, and show and hide all layers accordingly. -/
def setDrawOptions (v : Viewer) (options : DrawOptions) : Viewer :=
  Layer.all.foldl (fun v layer => v.setLayerVisible layer (layer.visibleUnder options))
    { v with config := { v.config with draw := options } }

/-- Dispose of all meshes and forget the bounds. -/
def clear (v : Viewer) : Viewer :=
  { v with
    display := v.live.foldl (fun display mesh => display.dispose mesh.handle) v.display
    live := []
    bounds := .empty }

/-- Upload payloads until one is refused. -/
def uploadAll (v : Viewer) : List Payload → Attempt OutOfMemory Viewer
  | [] => .done v
  | payload :: rest =>
    match v.display.upload payload with
    | (.ok handle, display) =>
      uploadAll { v with display, live := v.live ++ [.ofPayload handle payload] } rest
    | (.error e, display) => .stopped e { v with display }

/-- The uploaded meshes on layers that are shown. -/
def shownMeshes (v : Viewer) : List LiveMesh := v.live.filter fun mesh => v.visible mesh.layer

/-- Attach the meshes on layers that are shown. -/
def attachShown (v : Viewer) : Viewer :=
  { v with
    display := v.shownMeshes.foldl (fun display mesh => display.setAttached mesh.handle true)
      v.display }

/-- The summary of the frame that is shown. -/
def summary (v : Viewer) : FrameSummary :=
  let box? := v.bounds.toBox?
  { frame := v.frames
    meshes := v.live.length
    attached := v.shownMeshes.length
    vertices := total (v.live.map (·.vertexCount))
    bytes := total (v.live.map (·.bytes))
    bounds := box?
    pieces := box?.map fun box => pieceCounts box.dimensions v.config.pieceUnit }

/-- Show what has been staged in place of the frame before. -/
def commit (v : Viewer) (staged : StagedFrame) : Except Failure FrameSummary × Viewer :=
  let uploaded := v.clear.uploadAll staged.payloads
  match uploaded.error? with
  | some e => (.error (.display e), uploaded.state.clear)
  | none =>
    let v := uploaded.state.attachShown
    let v := { v with bounds := staged.bounds, frames := v.frames + 1 }
    (.ok v.summary, v)

/-- Stage a frame with `build` and show it.  A frame that cannot be staged changes nothing. -/
def rebuild (v : Viewer) (build : Config → StagedFrame → StagingAttempt) :
    Except Failure FrameSummary × Viewer :=
  let staged := build v.config .empty
  match staged.error? with
  | some failure => (.error failure, v)
  | none => v.commit staged.state

/-- Show a frame of defects. -/
def showDefects (v : Viewer) (frame : Schedule.DefectFrame) :
    Except Failure FrameSummary × Viewer :=
  v.rebuild fun config s => stageDefects config frame s

/-- Show a plumbing schedule. -/
def showPlumbing (v : Viewer) (schedule : Schedule.PlumbingSchedule) :
    Except Failure FrameSummary × Viewer :=
  v.rebuild fun config s => stagePlumbing config schedule s

/-- Show a lattice layout. -/
def showLattice (v : Viewer) (layout : Schedule.LatticeLayout) :
    Except Failure FrameSummary × Viewer :=
  v.rebuild fun config s => stageLattice config layout s

end Viewer

/-!
## Sessions

A session is a series of actions on one viewer.  A `Subject` is what a frame can be built from, and
an `Action` is anything that can be done to a viewer: a subject is shown, a frame that was staged
in some other way is committed or given up, the viewer is cleared, or what it shows is changed.
`Viewer.run` performs the actions of a session one after the other.

What an action reports does not matter to the actions after it, so `Viewer.perform` keeps only the
viewer.
-/

/-- What a frame can be built from. -/
inductive Subject where
  | defects (frame : Schedule.DefectFrame)
  | plumbing (schedule : Schedule.PlumbingSchedule)
  | lattice (layout : Schedule.LatticeLayout)

/-- Stage a subject on top of what is staged already. -/
def Subject.stage (subject : Subject) (config : Config) (s : StagedFrame) : StagingAttempt :=
  match subject with
  | defects frame => stageDefects config frame s
  | plumbing schedule => stagePlumbing config schedule s
  | lattice layout => stageLattice config layout s

/-- Something that is done to a viewer. -/
inductive Action where
  /-- Show a subject in place of the frame before. -/
  | rebuild (subject : Subject)
  /-- Show what has been staged in place of the frame before. -/
  | commit (staged : StagedFrame)
  /-- Give up what has been staged. -/
  | abandon (staged : StagedFrame)
  /-- Dispose of the frame that is shown. -/
  | clear
  /-- Show or hide a layer. -/
  | setLayerVisible (layer : Layer) (visible : Bool)
  /-- Change what is drawn. -/
  | setDrawOptions (options : DrawOptions)

namespace Viewer

/-- Show a subject in place of the frame before. -/
def showSubject (v : Viewer) : Subject → Except Failure FrameSummary × Viewer
  | .defects frame => v.showDefects frame
  | .plumbing schedule => v.showPlumbing schedule
  | .lattice layout => v.showLattice layout

/-- The viewer after an action. -/
def perform (v : Viewer) : Action → Viewer
  | .rebuild subject => (v.showSubject subject).2
  | .commit staged => (v.commit staged).2
  | .abandon _ => v
  | .clear => v.clear
  | .setLayerVisible layer visible => v.setLayerVisible layer visible
  | .setDrawOptions options => v.setDrawOptions options

/-- The viewer after the actions of a session. -/
def run (v : Viewer) (actions : List Action) : Viewer := actions.foldl perform v

@[simp] theorem run_nil (v : Viewer) : v.run [] = v := rfl

@[simp] theorem run_cons (v : Viewer) (action : Action) (actions : List Action) :
    v.run (action :: actions) = (v.perform action).run actions := rfl

/-- Showing a subject is staging it and committing what was staged. -/
theorem showSubject_eq_rebuild (v : Viewer) (subject : Subject) :
    v.showSubject subject = v.rebuild subject.stage := by
  cases subject <;> rfl

end Viewer

end LatticeScene.Display
