import LatticeScene.Proofs.Display.Steps

/-!
# A viewer owns the meshes of its device

A viewer keeps a list of the meshes it has uploaded, and its device keeps a table of the meshes
that are there.  `Viewer.Owns` says that the list is what the viewer can see of the table, and that
the calls which led there are in order: a call that names a handle names one of a mesh that is
there.  All else follows from these two.  The books of the device balance, so every operation of a
viewer keeps `Owns`, above all a commit that is refused somewhere in the middle.

`run_owns_resident_meshes` draws the conclusion for whole sessions.
-/

namespace LatticeScene.Display

open Staging

/-- What a viewer keeps of a mesh that is there. -/
def LiveMesh.ofEntry (entry : Handle × ResidentMesh) : LiveMesh :=
  { handle := entry.1
    layer := entry.2.layer
    name := entry.2.name
    vertexCount := entry.2.vertexCount
    bytes := entry.2.bytes }

namespace Viewer

/-- The live meshes of a viewer are the meshes of its device, which had the given budget from the
start and to which no call was made in vain. -/
structure Owns (v : Viewer) (budget : Option Nat) : Prop where
  /-- The calls lead from a new device to the present one. -/
  transcript : (Device.empty budget).Transcript v.display.calls v.display.device
  /-- The viewer and the device know the same meshes in the same order. -/
  live_eq : v.live = v.display.device.resident.map LiveMesh.ofEntry

namespace Owns

variable {v : Viewer} {budget : Option Nat}

/-- The device of a viewer that owns its meshes is balanced. -/
theorem balanced (hv : v.Owns budget) : v.display.device.Balanced :=
  hv.transcript.balanced (Device.balanced_empty budget)

/-- The device of a viewer that owns its meshes has the budget it had from the start. -/
theorem budget_eq (hv : v.Owns budget) : v.display.device.budget = budget :=
  hv.transcript.budget_eq

/-- The handles on the device are those of the live meshes. -/
theorem handles_eq (hv : v.Owns budget) :
    v.display.device.handles = v.live.map (·.handle) := by
  rw [hv.live_eq, List.map_map]
  rfl

/-- The bytes on the device are those of the live meshes. -/
theorem residentBytes_eq (hv : v.Owns budget) :
    v.display.device.residentBytes = total (v.live.map (·.bytes)) := by
  rw [hv.live_eq, List.map_map]
  rfl

/-- The device has as many meshes as are live. -/
theorem residentCount_eq (hv : v.Owns budget) :
    v.display.device.residentCount = v.live.length := by
  rw [hv.live_eq, List.length_map, Device.residentCount]

/-- The device has every live mesh under its handle. -/
theorem exists_get? (hv : v.Owns budget) {mesh : LiveMesh} (hmem : mesh ∈ v.live) :
    ∃ resident, v.display.device.get? mesh.handle = some resident ∧
      resident.layer = mesh.layer ∧ resident.name = mesh.name ∧
      resident.vertexCount = mesh.vertexCount ∧ resident.bytes = mesh.bytes := by
  rw [hv.live_eq] at hmem
  obtain ⟨⟨handle, resident⟩, hentry, rfl⟩ := List.mem_map.mp hmem
  exact ⟨resident, Device.get?_of_mem_resident hv.balanced.nodup hentry, rfl, rfl, rfl, rfl⟩

end Owns

/-- A new viewer on a new device owns its meshes, of which there are none. -/
theorem owns_start (budget : Option Nat) (config : Config) :
    (start (.empty budget) config).Owns budget :=
  ⟨.start, rfl⟩

/-! ### Every operation keeps what a viewer owns -/

section Operations

variable {v : Viewer} {budget : Option Nat}

/-- Clearing empties the device. -/
theorem Owns.device_clear (hv : v.Owns budget) :
    v.clear.display.device = v.display.device.emptied := by
  rw [display_clear, RecordedDevice.device_foldl_dispose, ← hv.handles_eq]
  exact hv.balanced.foldl_dispose_handles

/-- A viewer that is cleared owns what is left, which is nothing. -/
theorem Owns.clear (hv : v.Owns budget) : v.clear.Owns budget where
  transcript := by
    rw [display_clear, ← hv.handles_eq]
    exact RecordedDevice.transcript_foldl_dispose hv.transcript hv.balanced.nodup
      fun _ hmem => hmem
  live_eq := by
    rw [hv.device_clear]
    rfl

/-- A viewer owns the mesh it receives along with the others. -/
theorem Owns.receive (hv : v.Owns budget) {p : Payload}
    (h : v.display.device.admits p.byteSize = true) : (v.receive p).Owns budget where
  transcript := hv.transcript.granted (Device.upload_eq_ok_iff.mpr ⟨h, rfl, rfl⟩)
  live_eq := by
    simp only [Viewer.receive, Device.accept, List.map_append, ← hv.live_eq]
    rfl

/-- A viewer that is refused an upload owns what it owned before. -/
theorem Owns.turnAway (hv : v.Owns budget) {p : Payload}
    (h : ¬v.display.device.admits p.byteSize = true) : (v.turnAway p).Owns budget where
  transcript := by
    have hrefused : v.display.device.upload p =
        .error ⟨p.byteSize, v.display.device.available?.getD 0⟩ := if_neg h
    exact hv.transcript.refused hrefused
  live_eq := hv.live_eq

/-- Whether or not an upload is refused, what has been uploaded is owned. -/
theorem Owns.uploadAll (hv : v.Owns budget) (ps : List Payload) :
    (v.uploadAll ps).state.Owns budget := by
  induction ps generalizing v with
  | nil => exact hv
  | cons p ps ih =>
    by_cases h : v.display.device.admits p.byteSize = true
    · rw [uploadAll_cons_of_admits ps h]
      exact ih (hv.receive h)
    · rw [uploadAll_cons_of_refuses ps h]
      exact hv.turnAway h

/-- Switching meshes that are live leaves the viewer the owner of all of them. -/
theorem Owns.switch (hv : v.Owns budget) {meshes : List LiveMesh}
    (hmeshes : ∀ mesh ∈ meshes, mesh ∈ v.live) (attached : Bool) :
    (v.switch meshes attached).Owns budget where
  transcript := by
    refine RecordedDevice.transcript_foldl_setAttached hv.transcript attached fun handle hmem => ?_
    obtain ⟨mesh, hmesh, rfl⟩ := List.mem_map.mp hmem
    rw [hv.handles_eq]
    exact List.mem_map_of_mem (hmeshes mesh hmesh)
  live_eq := by
    rw [Viewer.switch, RecordedDevice.device_foldl_setAttached]
    -- attachment is nothing that a viewer keeps of a mesh
    refine List.foldlRecOn (motive := fun d : Device => v.live = d.resident.map LiveMesh.ofEntry)
      _ _ hv.live_eq fun d hd handle _ => ?_
    rw [hd, Device.map_resident_setAttached]
    exact fun _ _ _ => rfl

/-- Attaching the meshes that are shown makes no call in vain. -/
theorem Owns.attachShown (hv : v.Owns budget) : v.attachShown.Owns budget := by
  rw [attachShown_eq]
  exact hv.switch (fun _ hmem => List.mem_of_mem_filter hmem) true

/-- Showing or hiding a layer makes no call in vain. -/
theorem Owns.setLayerVisible (hv : v.Owns budget) (layer : Layer) (visible : Bool) :
    (v.setLayerVisible layer visible).Owns budget := by
  have h : (v.switch (v.live.filter (·.layer == layer)) visible).Owns budget :=
    hv.switch (fun _ hmem => List.mem_of_mem_filter hmem) visible
  rw [setLayerVisible_eq]
  exact ⟨h.transcript, h.live_eq⟩

/-- Choosing what to draw makes no call in vain. -/
theorem Owns.setDrawOptions (hv : v.Owns budget) (options : DrawOptions) :
    (v.setDrawOptions options).Owns budget := by
  refine List.foldlRecOn (motive := fun w : Viewer => w.Owns budget) _ _ ?_ ?_
  · exact ⟨hv.transcript, hv.live_eq⟩
  · exact fun w hw layer _ => hw.setLayerVisible layer _

/-- A viewer owns its meshes after a frame was committed. -/
theorem Owns.committed (hv : v.Owns budget) (staged : StagedFrame) :
    (v.committed staged).Owns budget := by
  have h := (hv.clear.uploadAll staged.payloads).attachShown
  exact ⟨h.transcript, h.live_eq⟩

/-- A viewer owns its meshes after a frame was withdrawn. -/
theorem Owns.withdrawn (hv : v.Owns budget) (staged : StagedFrame) :
    (v.withdrawn staged).Owns budget :=
  (hv.clear.uploadAll staged.payloads).clear

/-- A viewer owns its meshes after a commit, however it ends. -/
theorem Owns.commit (hv : v.Owns budget) (staged : StagedFrame) :
    (v.commit staged).2.Owns budget := by
  cases h : (v.clear.uploadAll staged.payloads).error? with
  | some e =>
    rw [commit_of_refused h]
    exact hv.withdrawn staged
  | none =>
    rw [commit_of_accepted h]
    exact hv.committed staged

/-- A viewer owns its meshes after a frame is rebuilt, however that ends. -/
theorem Owns.rebuild (hv : v.Owns budget) (build : Config → StagedFrame → StagingAttempt) :
    (v.rebuild build).2.Owns budget := by
  cases h : (build v.config .empty).error? with
  | some failure =>
    rw [rebuild_of_failed h]
    exact hv
  | none =>
    rw [rebuild_of_staged h]
    exact hv.commit _

/-- A viewer owns its meshes after any action. -/
theorem Owns.perform (hv : v.Owns budget) (action : Action) : (v.perform action).Owns budget := by
  cases action with
  | rebuild subject =>
    rw [Viewer.perform, showSubject_eq_rebuild]
    exact hv.rebuild subject.stage
  | commit staged => exact hv.commit staged
  | abandon staged => exact hv
  | clear => exact hv.clear
  | setLayerVisible layer visible => exact hv.setLayerVisible layer visible
  | setDrawOptions options => exact hv.setDrawOptions options

/-- A viewer owns its meshes after any session. -/
theorem Owns.run (hv : v.Owns budget) (actions : List Action) : (v.run actions).Owns budget := by
  induction actions generalizing v with
  | nil => exact hv
  | cons action actions ih => exact ih (hv.perform action)

end Operations

/-- A viewer on a new device owns its meshes after any session. -/
theorem owns_run_start (budget : Option Nat) (config : Config) (actions : List Action) :
    ((start (.empty budget) config).run actions).Owns budget :=
  (owns_start budget config).run actions

/-- A payload of one point, which takes sixteen bytes. -/
def pointOn (layer : Layer) : Payload :=
  .ofMesh "point" layer .points ⟨#[0, 0, 0], #[0]⟩ .plain

/-- A frame of two points, one of three points, a layer hidden, and a frame of two points again.  On
forty bytes there is no room for the third point. -/
def crowdedSession : List Action :=
  [.commit ⟨[pointOn .boxes, pointOn .lattice], .empty⟩,
    .commit ⟨[pointOn .boxes, pointOn .lattice, pointOn .boxes], .empty⟩,
    .setLayerVisible .boxes false,
    .commit ⟨[pointOn .boxes, pointOn .lattice], .empty⟩]

/-- After any session, the handles of the live meshes are the different handles of the meshes that
are there, and the viewer knows each of these as it is.  The handles are below the next one, and
none has been issued twice.  The ledger holds the bytes of the live meshes and counts them.  No
mesh was ever disposed of, attached or detached that was not there. -/
theorem run_owns_resident_meshes (budget : Option Nat) (config : Config) (actions : List Action) :
    let v := (start (.empty budget) config).run actions
    let device := v.display.device
    (v.live.map (·.handle)).Nodup ∧
      device.handles = v.live.map (·.handle) ∧
      (∀ mesh ∈ v.live, ∃ resident, device.get? mesh.handle = some resident ∧
        resident.layer = mesh.layer ∧ resident.name = mesh.name ∧
        resident.vertexCount = mesh.vertexCount ∧ resident.bytes = mesh.bytes) ∧
      (∀ mesh ∈ v.live, mesh.handle < device.nextHandle) ∧
      (issued v.display.calls).Nodup ∧
      device.ledger.current = total (v.live.map (·.bytes)) ∧
      device.ledger.live = v.live.length ∧
      (Device.empty budget).Transcript v.display.calls device := by
  intro v device
  have hv : v.Owns budget := owns_run_start budget config actions
  have hbalanced : device.Balanced := hv.balanced
  refine ⟨?_, hv.handles_eq, fun mesh hmem => hv.exists_get? hmem, ?_, ?_, ?_, ?_, hv.transcript⟩
  · rw [← hv.handles_eq]
    exact hbalanced.nodup
  · intro mesh hmem
    refine hbalanced.lt_next _ ?_
    rw [hv.handles_eq]
    exact List.mem_map_of_mem hmem
  · rw [hv.transcript.issued_eq_range rfl]
    exact List.nodup_range
  · rw [hbalanced.current_eq, hv.residentBytes_eq]
  · rw [hbalanced.live_eq, hv.residentCount_eq]

/-- A frame that was refused in the middle leaves no mesh behind, and its handles stay issued. -/
theorem run_owns_resident_meshes_crowded :
    let v := (start (.empty (some 40)) .default).run crowdedSession
    v.live.map (·.handle) = [4, 5] ∧
      v.display.device.handles = [4, 5] ∧
      issued v.display.calls = [0, 1, 2, 3, 4, 5] ∧
      (issued v.display.calls).Nodup ∧
      v.display.device.ledger.current = 32 := by
  intro v
  have hlive : v.live.map (·.handle) = [4, 5] := by decide
  have hbytes : total (v.live.map (·.bytes)) = 32 := by decide
  obtain ⟨-, hhandles, -, -, hissued, hcurrent, -⟩ :=
    run_owns_resident_meshes (some 40) .default crowdedSession
  exact ⟨hlive, hhandles.trans hlive, by decide, hissued, hcurrent.trans hbytes⟩

end Viewer

end LatticeScene.Display
