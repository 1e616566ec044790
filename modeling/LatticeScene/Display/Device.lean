import LatticeScene.Buffer
import LatticeScene.Staging.StagedFrame
import LatticeScene.Staging.Payload

/-!
# Headless display devices

A `Device` keeps account of uploads instead of drawing them.  Every upload gets a handle, and the
handles are issued in order and never twice.  A device may have a budget: an upload that would
take more than what is left of it is refused.

Disposing of a mesh that is not there and attaching one that is not there change nothing.
-/

namespace LatticeScene.Display

open Staging

/-- The name of an uploaded mesh. -/
abbrev Handle := Nat

/-- What a device knows of an uploaded mesh. -/
structure ResidentMesh where
  name : String
  layer : Layer
  primitive : Primitive
  vertexCount : Nat
  bytes : Nat
  /-- Whether the mesh is part of the drawn scene. -/
  attached : Bool
deriving DecidableEq, Repr

/-- A display without a screen. -/
structure Device where
  /-- The meshes that are there, in the order of their handles. -/
  resident : List (Handle × ResidentMesh)
  /-- The handle for the next upload. -/
  nextHandle : Handle
  /-- The account of uploads and disposals. -/
  ledger : MemoryLedger
  /-- The most bytes that may be there at a time. -/
  budget : Option Nat
deriving DecidableEq, Repr

/-- What a device will know of a payload, which is not attached at first. -/
def ResidentMesh.ofPayload (p : Payload) : ResidentMesh :=
  { name := p.name
    layer := p.layer
    primitive := p.primitive
    vertexCount := p.vertexCount
    bytes := p.byteSize
    attached := false }

namespace Device

/-- A device to which nothing has been uploaded. -/
def empty (budget : Option Nat) : Device :=
  { resident := [], nextHandle := 0, ledger := .empty, budget }

/-- The mesh with a given handle. -/
def get? (d : Device) (handle : Handle) : Option ResidentMesh := d.resident.lookup handle

/-- How many meshes are there. -/
def residentCount (d : Device) : Nat := d.resident.length

/-- How many meshes are attached. -/
def attachedCount (d : Device) : Nat := d.resident.countP (·.2.attached)

/-- The bytes that are left of the budget, if there is one. -/
def available? (d : Device) : Option Nat := d.budget.map (· - d.ledger.current)

/-- Whether a number of bytes may be uploaded. -/
def admits (d : Device) (bytes : Nat) : Bool :=
  match d.available? with
  | some available => bytes ≤ available
  | none => true

/-- Account for an upload that the device admits. -/
def accept (d : Device) (p : Payload) : Device :=
  { d with
    resident := d.resident ++ [(d.nextHandle, .ofPayload p)]
    nextHandle := d.nextHandle + 1
    ledger := d.ledger.allocate p.byteSize }

/-- Upload a payload.  A refused upload changes nothing. -/
def upload (d : Device) (p : Payload) : Except OutOfMemory (Handle × Device) :=
  if d.admits p.byteSize then .ok (d.nextHandle, d.accept p)
  else .error ⟨p.byteSize, d.available?.getD 0⟩

/-- Dispose of a mesh. -/
def dispose (d : Device) (handle : Handle) : Device :=
  match d.get? handle with
  | none => d
  | some mesh =>
    { d with
      resident := d.resident.filter (·.1 != handle)
      ledger := d.ledger.release mesh.bytes }

/-- Attach a mesh to the drawn scene, or detach it. -/
def setAttached (d : Device) (handle : Handle) (attached : Bool) : Device :=
  { d with
    resident := d.resident.map fun entry =>
      if entry.1 = handle then (entry.1, { entry.2 with attached }) else entry }

end Device

/-- A call to a device. -/
inductive Call where
  /-- The upload of a payload with the given name, and the handle it got unless it was refused. -/
  | upload (name : String) (granted : Option Handle)
  | dispose (handle : Handle)
  | setAttached (handle : Handle) (attached : Bool)
deriving DecidableEq, Repr

/-- A device together with the calls made to it, latest last. -/
structure RecordedDevice where
  device : Device
  calls : List Call
deriving DecidableEq, Repr

namespace RecordedDevice

/-- A device to which no call has been made. -/
def ofDevice (device : Device) : RecordedDevice := ⟨device, []⟩

/-- Upload a payload. -/
def upload (r : RecordedDevice) (p : Payload) : Except OutOfMemory Handle × RecordedDevice :=
  match r.device.upload p with
  | .ok (handle, device) => (.ok handle, ⟨device, r.calls ++ [.upload p.name (some handle)]⟩)
  | .error e => (.error e, ⟨r.device, r.calls ++ [.upload p.name none]⟩)

/-- Dispose of a mesh. -/
def dispose (r : RecordedDevice) (handle : Handle) : RecordedDevice :=
  ⟨r.device.dispose handle, r.calls ++ [.dispose handle]⟩

/-- Attach a mesh to the drawn scene, or detach it. -/
def setAttached (r : RecordedDevice) (handle : Handle) (attached : Bool) : RecordedDevice :=
  ⟨r.device.setAttached handle attached, r.calls ++ [.setAttached handle attached]⟩

end RecordedDevice

end LatticeScene.Display
