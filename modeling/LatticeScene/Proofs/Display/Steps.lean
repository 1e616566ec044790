import LatticeScene.Display.Viewer
import LatticeScene.Proofs.Display.Balance

/-!
# What the operations of a viewer do

Every operation of a viewer is described here once, so that later proofs need not open it.

Uploading goes payload by payload: `Viewer.receive` and `Viewer.turnAway` are the two things that
can happen to the first payload (`uploadAll_cons_of_admits`, `uploadAll_cons_of_refuses`), and
neither of them touches anything but the display and the list of uploaded meshes
(`exists_state_uploadAll`).  A commit ends in one of two viewers (`commit_of_refused`,
`commit_of_accepted`), and a rebuild either changes nothing or is a commit
(`rebuild_of_failed`, `rebuild_of_staged`).
-/

namespace LatticeScene.Display

open Staging

namespace Viewer

/-! ### Clearing -/

@[simp] theorem live_clear (v : Viewer) : v.clear.live = [] := rfl

@[simp] theorem bounds_clear (v : Viewer) : v.clear.bounds = .empty := rfl

@[simp] theorem visible_clear (v : Viewer) : v.clear.visible = v.visible := rfl

@[simp] theorem config_clear (v : Viewer) : v.clear.config = v.config := rfl

@[simp] theorem frames_clear (v : Viewer) : v.clear.frames = v.frames := rfl

/-- Clearing disposes of the live meshes in order. -/
theorem display_clear (v : Viewer) :
    v.clear.display = (v.live.map (·.handle)).foldl RecordedDevice.dispose v.display :=
  List.foldl_map.symm

/-- Clearing disposes of every live mesh, in the order in which the meshes came. -/
theorem calls_clear (v : Viewer) :
    v.clear.display.calls = v.display.calls ++ v.live.map fun mesh => .dispose mesh.handle := by
  rw [display_clear, RecordedDevice.calls_foldl_dispose, List.map_map]
  rfl

/-! ### Attaching and detaching -/

/-- Attach live meshes or detach them. -/
def switch (v : Viewer) (meshes : List LiveMesh) (attached : Bool) : Viewer :=
  { v with
    display := (meshes.map (·.handle)).foldl (fun r handle => r.setAttached handle attached)
      v.display }

/-- Showing or hiding a layer is switching its live meshes, and remembering the choice. -/
theorem setLayerVisible_eq (v : Viewer) (layer : Layer) (visible : Bool) :
    v.setLayerVisible layer visible =
      { v.switch (v.live.filter (·.layer == layer)) visible with
        visible := fun l => if l = layer then visible else v.visible l } := by
  simp only [setLayerVisible, switch, List.foldl_map]

@[simp] theorem live_setLayerVisible (v : Viewer) (layer : Layer) (visible : Bool) :
    (v.setLayerVisible layer visible).live = v.live := rfl

/-- The choice for one layer is remembered, and the others are kept. -/
@[simp] theorem visible_setLayerVisible (v : Viewer) (layer : Layer) (visible : Bool) :
    (v.setLayerVisible layer visible).visible =
      fun l => if l = layer then visible else v.visible l := rfl

@[simp] theorem config_setLayerVisible (v : Viewer) (layer : Layer) (visible : Bool) :
    (v.setLayerVisible layer visible).config = v.config := rfl

@[simp] theorem frames_setLayerVisible (v : Viewer) (layer : Layer) (visible : Bool) :
    (v.setLayerVisible layer visible).frames = v.frames := rfl

/-- Attaching what is shown is switching those meshes on. -/
theorem attachShown_eq (v : Viewer) : v.attachShown = v.switch v.shownMeshes true := by
  simp only [attachShown, switch, List.foldl_map]

/-- Attaching what is shown is one call for each mesh on a layer that is shown. -/
theorem calls_attachShown (v : Viewer) :
    v.attachShown.display.calls =
      v.display.calls ++ v.shownMeshes.map fun mesh => .setAttached mesh.handle true := by
  rw [attachShown_eq, switch, RecordedDevice.calls_foldl_setAttached, List.map_map]
  rfl

/-! ### Uploading -/

/-- Take in a payload that the device has accepted. -/
def receive (v : Viewer) (p : Payload) : Viewer :=
  { v with
    display :=
      { device := v.display.device.accept p
        calls := v.display.calls ++ [.upload p.name (some v.display.device.nextHandle)] }
    live := v.live ++ [.ofPayload v.display.device.nextHandle p] }

/-- Note that the device has refused a payload. -/
def turnAway (v : Viewer) (p : Payload) : Viewer :=
  { v with display := ⟨v.display.device, v.display.calls ++ [.upload p.name none]⟩ }

@[simp] theorem uploadAll_nil (v : Viewer) : v.uploadAll [] = .done v := rfl

/-- When the device has room for the first payload, it is taken in and the others follow. -/
theorem uploadAll_cons_of_admits {v : Viewer} {p : Payload} (ps : List Payload)
    (h : v.display.device.admits p.byteSize = true) :
    v.uploadAll (p :: ps) = (v.receive p).uploadAll ps := by
  rw [uploadAll, RecordedDevice.upload_of_admits h]
  rfl

/-- When the device has no room for the first payload, the others are not tried. -/
theorem uploadAll_cons_of_refuses {v : Viewer} {p : Payload} (ps : List Payload)
    (h : ¬v.display.device.admits p.byteSize = true) :
    v.uploadAll (p :: ps) =
      .stopped ⟨p.byteSize, v.display.device.available?.getD 0⟩ (v.turnAway p) := by
  rw [uploadAll, RecordedDevice.upload_of_refuses h]
  rfl

/-- Uploading changes the display and the list of live meshes, and nothing else. -/
theorem exists_state_uploadAll (v : Viewer) (ps : List Payload) :
    ∃ display live, (v.uploadAll ps).state = { v with display, live } := by
  induction ps generalizing v with
  | nil => exact ⟨v.display, v.live, rfl⟩
  | cons p ps ih =>
    by_cases h : v.display.device.admits p.byteSize = true
    · rw [uploadAll_cons_of_admits ps h]
      obtain ⟨display, live, heq⟩ := ih (v.receive p)
      exact ⟨display, live, heq⟩
    · rw [uploadAll_cons_of_refuses ps h]
      exact ⟨_, _, rfl⟩

/-- Uploads keep the choice of layers, whether they are accepted or not. -/
@[simp] theorem visible_uploadAll (v : Viewer) (ps : List Payload) :
    (v.uploadAll ps).state.visible = v.visible := by
  obtain ⟨display, live, heq⟩ := v.exists_state_uploadAll ps
  rw [heq]

/-- Uploads keep the configuration, whether they are accepted or not. -/
@[simp] theorem config_uploadAll (v : Viewer) (ps : List Payload) :
    (v.uploadAll ps).state.config = v.config := by
  obtain ⟨display, live, heq⟩ := v.exists_state_uploadAll ps
  rw [heq]

/-- Uploads keep the number of frames shown so far, whether they are accepted or not. -/
@[simp] theorem frames_uploadAll (v : Viewer) (ps : List Payload) :
    (v.uploadAll ps).state.frames = v.frames := by
  obtain ⟨display, live, heq⟩ := v.exists_state_uploadAll ps
  rw [heq]

/-! ### Committing and rebuilding -/

/-- The viewer in which a commit ends when every upload is accepted. -/
def committed (v : Viewer) (staged : StagedFrame) : Viewer :=
  { (v.clear.uploadAll staged.payloads).state.attachShown with
    bounds := staged.bounds
    frames := v.frames + 1 }

/-- The viewer in which a commit ends when an upload is refused. -/
def withdrawn (v : Viewer) (staged : StagedFrame) : Viewer :=
  (v.clear.uploadAll staged.payloads).state.clear

/-- A commit with a refused upload reports the refusal. -/
theorem commit_of_refused {v : Viewer} {staged : StagedFrame} {e : OutOfMemory}
    (h : (v.clear.uploadAll staged.payloads).error? = some e) :
    v.commit staged = (.error (.display e), v.withdrawn staged) := by
  simp only [commit, h]
  rfl

/-- A commit without refused uploads reports the new frame. -/
theorem commit_of_accepted {v : Viewer} {staged : StagedFrame}
    (h : (v.clear.uploadAll staged.payloads).error? = none) :
    v.commit staged = (.ok (v.committed staged).summary, v.committed staged) := by
  have hframes : (v.clear.uploadAll staged.payloads).state.attachShown.frames = v.frames :=
    frames_uploadAll _ _
  simp only [commit, h, hframes]
  rfl

/-- A frame that cannot be staged changes nothing. -/
theorem rebuild_of_failed {v : Viewer} {build : Config → StagedFrame → StagingAttempt}
    {failure : Failure} (h : (build v.config .empty).error? = some failure) :
    v.rebuild build = (.error failure, v) := by
  simp only [rebuild, h]

/-- A frame that can be staged is committed. -/
theorem rebuild_of_staged {v : Viewer} {build : Config → StagedFrame → StagingAttempt}
    (h : (build v.config .empty).error? = none) :
    v.rebuild build = v.commit (build v.config .empty).state := by
  simp only [rebuild, h]

/-- A committed frame keeps the choice of layers. -/
@[simp] theorem visible_committed (v : Viewer) (staged : StagedFrame) :
    (v.committed staged).visible = v.visible :=
  visible_uploadAll _ _

/-- A committed frame keeps the configuration. -/
@[simp] theorem config_committed (v : Viewer) (staged : StagedFrame) :
    (v.committed staged).config = v.config :=
  config_uploadAll _ _

/-- A withdrawn frame keeps the choice of layers. -/
@[simp] theorem visible_withdrawn (v : Viewer) (staged : StagedFrame) :
    (v.withdrawn staged).visible = v.visible :=
  visible_uploadAll _ _

/-- A withdrawn frame keeps the configuration. -/
@[simp] theorem config_withdrawn (v : Viewer) (staged : StagedFrame) :
    (v.withdrawn staged).config = v.config :=
  config_uploadAll _ _

/-- A withdrawn frame is not counted. -/
@[simp] theorem frames_withdrawn (v : Viewer) (staged : StagedFrame) :
    (v.withdrawn staged).frames = v.frames :=
  frames_uploadAll _ _

end Viewer

end LatticeScene.Display
