import LatticeScene.Buffer
import LatticeScene.Display.Device
import Mathlib.Data.List.Nodup

/-!
# The books of a device balance

A device keeps two accounts of what has been uploaded to it: the meshes that are there, and the
ledger of bytes.  `Device.Balanced` says that the two agree and that the handles of the meshes are
in the order in which they were issued.  It holds of a device without meshes, and it is kept by
every upload that is accepted, by every disposal and by attaching and detaching, whatever handles
these are called with.

The second half is about disposing of all meshes of a balanced device: in whatever state it was,
`Device.emptied` is what is left of it.
-/

namespace LatticeScene.Display

open Staging

namespace Device

/-- The handles of the meshes that are there, in the order in which they were issued. -/
def handles (d : Device) : List Handle := d.resident.map (·.1)

/-- The bytes of all meshes that are there. -/
def residentBytes (d : Device) : Nat := total (d.resident.map (·.2.bytes))

/-- The meshes of a device and its ledger agree. -/
structure Balanced (d : Device) : Prop where
  /-- Handles are issued in increasing order. -/
  sorted : d.handles.Pairwise (· < ·)
  /-- The handle for the next upload is above all others. -/
  lt_next : ∀ handle ∈ d.handles, handle < d.nextHandle
  /-- The bytes held are those of the meshes that are there. -/
  current_eq : d.ledger.current = d.residentBytes
  /-- Every handle that was issued stands for one allocation. -/
  allocations_eq : d.ledger.allocations = d.nextHandle
  /-- What was allocated is there or was released. -/
  releases_add : d.ledger.releases + d.residentCount = d.ledger.allocations

/-- No mesh has the handle of another one. -/
theorem Balanced.nodup {d : Device} (hd : d.Balanced) : d.handles.Nodup :=
  hd.sorted.imp fun hlt => Nat.ne_of_lt hlt

/-- The ledger of a balanced device counts the meshes that are there. -/
theorem Balanced.live_eq {d : Device} (hd : d.Balanced) : d.ledger.live = d.residentCount := by
  have h := hd.releases_add
  rw [MemoryLedger.live]
  omega

/-! ### Looking meshes up -/

/-- Looking a handle up gives one of the meshes that are there. -/
theorem mem_resident_of_get? {d : Device} {handle : Handle} {mesh : ResidentMesh}
    (h : d.get? handle = some mesh) : (handle, mesh) ∈ d.resident := by
  obtain ⟨before, after, heq, -⟩ := List.lookup_eq_some_iff.mp h
  rw [heq]
  exact List.mem_append_right _ List.mem_cons_self

/-- When no two meshes share a handle, every mesh is found under its own. -/
theorem get?_of_mem_resident {d : Device} (hd : d.handles.Nodup) {handle : Handle}
    {mesh : ResidentMesh} (h : (handle, mesh) ∈ d.resident) : d.get? handle = some mesh := by
  obtain ⟨before, after, heq⟩ := List.append_of_mem h
  refine List.lookup_eq_some_iff.mpr ⟨before, after, heq, ?_⟩
  rintro ⟨other, mesh'⟩ hmem
  rw [handles, heq, List.map_append, List.map_cons, List.nodup_append] at hd
  have hne := hd.2.2 other (List.mem_map_of_mem hmem) handle List.mem_cons_self
  exact bne_iff_ne.mpr (Ne.symm hne)

/-- A handle is found exactly when it is the handle of a mesh that is there. -/
theorem get?_isSome_iff {d : Device} {handle : Handle} :
    (d.get? handle).isSome ↔ handle ∈ d.handles := by
  rw [get?, handles, List.lookup_isSome_iff]
  simp

/-! ### What the operations do to the meshes -/

/-- An accepted mesh comes last, under the handle that was next. -/
@[simp] theorem handles_accept (d : Device) (p : Payload) :
    (d.accept p).handles = d.handles ++ [d.nextHandle] := by
  simp [handles, accept]

/-- An accepted mesh adds its bytes to those that are resident. -/
@[simp] theorem residentBytes_accept (d : Device) (p : Payload) :
    (d.accept p).residentBytes = d.residentBytes + p.byteSize := by
  simp [residentBytes, accept, ResidentMesh.ofPayload]

/-- Disposing of a mesh takes away the entry of its handle, if there is one. -/
theorem resident_dispose (d : Device) (handle : Handle) :
    (d.dispose handle).resident = d.resident.filter (·.1 != handle) := by
  unfold dispose
  cases h : d.get? handle with
  | some mesh => rfl
  | none =>
    refine (List.filter_eq_self.mpr fun entry hmem => bne_iff_ne.mpr ?_).symm
    rintro rfl
    have hsome := get?_isSome_iff.mpr (List.mem_map_of_mem hmem)
    rw [h] at hsome
    exact Bool.false_ne_true hsome

/-- Disposing of a handle leaves the other handles in their order. -/
@[simp] theorem handles_dispose (d : Device) (handle : Handle) :
    (d.dispose handle).handles = d.handles.filter (· != handle) := by
  rw [handles, resident_dispose, handles, List.filter_map]
  rfl

/-- Disposing of a mesh does not free its handle for another upload. -/
@[simp] theorem nextHandle_dispose (d : Device) (handle : Handle) :
    (d.dispose handle).nextHandle = d.nextHandle := by
  unfold dispose
  split <;> rfl

/-- Disposing of a mesh leaves the budget alone. -/
@[simp] theorem budget_dispose (d : Device) (handle : Handle) :
    (d.dispose handle).budget = d.budget := by
  unfold dispose
  split <;> rfl

/-- Attaching or detaching a mesh changes nothing that is read off the meshes without looking at
their attachment. -/
theorem map_resident_setAttached {β : Type} (f : Handle × ResidentMesh → β)
    (hf : ∀ handle mesh attached, f (handle, { mesh with attached }) = f (handle, mesh))
    (d : Device) (handle : Handle) (attached : Bool) :
    (d.setAttached handle attached).resident.map f = d.resident.map f := by
  rw [setAttached, List.map_map]
  refine List.map_congr_left fun entry _ => ?_
  rw [Function.comp_apply]
  split
  · exact hf entry.1 entry.2 attached
  · rfl

/-- Attaching and detaching leave the handles alone. -/
@[simp] theorem handles_setAttached (d : Device) (handle : Handle) (attached : Bool) :
    (d.setAttached handle attached).handles = d.handles :=
  map_resident_setAttached _ (fun _ _ _ => rfl) d handle attached

/-- Attaching and detaching leave the resident bytes alone. -/
@[simp] theorem residentBytes_setAttached (d : Device) (handle : Handle) (attached : Bool) :
    (d.setAttached handle attached).residentBytes = d.residentBytes :=
  congrArg total (map_resident_setAttached _ (fun _ _ _ => rfl) d handle attached)

/-- Attaching and detaching leave the number of meshes alone. -/
@[simp] theorem residentCount_setAttached (d : Device) (handle : Handle) (attached : Bool) :
    (d.setAttached handle attached).residentCount = d.residentCount := by
  simp [residentCount, setAttached]

/-- When handles are not shared, taking one mesh away leaves exactly the others. -/
theorem perm_cons_filter_of_get? {d : Device} (hd : d.handles.Nodup) {handle : Handle}
    {mesh : ResidentMesh} (h : d.get? handle = some mesh) :
    d.resident.Perm ((handle, mesh) :: d.resident.filter (·.1 != handle)) := by
  obtain ⟨before, after, heq, hbefore⟩ := List.lookup_eq_some_iff.mp h
  rw [handles, heq, List.map_append, List.map_cons, List.nodup_append, List.nodup_cons] at hd
  obtain ⟨-, ⟨hafter, -⟩, -⟩ := hd
  have h₁ : before.filter (·.1 != handle) = before := by
    refine List.filter_eq_self.mpr fun entry hmem => ?_
    rw [bne_comm]
    exact hbefore entry hmem
  have h₂ : after.filter (·.1 != handle) = after := by
    refine List.filter_eq_self.mpr fun entry hmem => bne_iff_ne.mpr ?_
    intro hsame
    exact hafter (List.mem_map.mpr ⟨entry, hmem, hsame⟩)
  rw [heq, List.filter_append, List.filter_cons_of_neg (by simp), h₁, h₂]
  exact List.perm_middle

/-! ### Balance is kept -/

/-- A new device is balanced. -/
theorem balanced_empty (budget : Option Nat) : (empty budget).Balanced where
  sorted := List.Pairwise.nil
  lt_next := fun _ h => absurd h List.not_mem_nil
  current_eq := rfl
  allocations_eq := rfl
  releases_add := rfl

/-- A balanced device is balanced after an upload it accepts: the new handle is above the others,
and the ledger counts the new mesh. -/
theorem Balanced.accept {d : Device} (hd : d.Balanced) (p : Payload) : (d.accept p).Balanced where
  sorted := by
    rw [handles_accept, List.pairwise_append]
    refine ⟨hd.sorted, List.pairwise_singleton _ _, fun handle hmem next hnext => ?_⟩
    rw [List.mem_singleton.mp hnext]
    exact hd.lt_next handle hmem
  lt_next := by
    intro handle hmem
    rw [handles_accept, List.mem_append, List.mem_singleton] at hmem
    rcases hmem with hmem | rfl
    · exact Nat.lt_succ_of_lt (hd.lt_next handle hmem)
    · exact Nat.lt_succ_self _
  current_eq := by
    rw [residentBytes_accept, ← hd.current_eq]
    rfl
  allocations_eq := congrArg (· + 1) hd.allocations_eq
  releases_add := by
    have h := hd.releases_add
    simp only [residentCount, Device.accept, MemoryLedger.allocate, List.length_append,
      List.length_singleton] at h ⊢
    omega

/-- A balanced device is balanced after a mesh is disposed of, whether the mesh is there or not. -/
theorem Balanced.dispose {d : Device} (hd : d.Balanced) (handle : Handle) :
    (d.dispose handle).Balanced := by
  cases h : d.get? handle with
  | none =>
    have heq : d.dispose handle = d := by rw [Device.dispose, h]
    rwa [heq]
  | some mesh =>
    -- up to order the meshes are the one that goes and those that stay
    have hperm := perm_cons_filter_of_get? hd.nodup h
    have hbytes : d.residentBytes = mesh.bytes + (d.dispose handle).residentBytes := by
      rw [residentBytes, residentBytes, resident_dispose, total_eq_of_perm (hperm.map _),
        List.map_cons, total_cons]
    have hcount : d.residentCount = (d.dispose handle).residentCount + 1 := by
      rw [residentCount, residentCount, resident_dispose, hperm.length_eq, List.length_cons]
    have hledger : (d.dispose handle).ledger = d.ledger.release mesh.bytes := by
      rw [Device.dispose, h]
    refine ⟨?_, ?_, ?_, ?_, ?_⟩
    · rw [handles_dispose]
      exact hd.sorted.filter _
    · intro other hmem
      rw [handles_dispose] at hmem
      rw [nextHandle_dispose]
      exact hd.lt_next other (List.mem_of_mem_filter hmem)
    · have hcurrent := hd.current_eq
      simp only [hledger, MemoryLedger.release]
      omega
    · rw [hledger, nextHandle_dispose]
      exact hd.allocations_eq
    · have hreleases := hd.releases_add
      simp only [hledger, MemoryLedger.release]
      omega

/-- A balanced device is balanced after a mesh is attached or detached. -/
theorem Balanced.setAttached {d : Device} (hd : d.Balanced) (handle : Handle) (attached : Bool) :
    (d.setAttached handle attached).Balanced where
  sorted := by
    rw [handles_setAttached]
    exact hd.sorted
  lt_next := by
    rw [handles_setAttached]
    exact hd.lt_next
  current_eq := by
    rw [residentBytes_setAttached]
    exact hd.current_eq
  allocations_eq := hd.allocations_eq
  releases_add := by
    rw [residentCount_setAttached]
    exact hd.releases_add

/-! ### Disposing of everything -/

/-- What is left of a device when all its meshes have been disposed of. -/
def emptied (d : Device) : Device :=
  { d with
    resident := []
    ledger := { d.ledger with current := 0, releases := d.ledger.allocations } }

/-- Disposing of one mesh first makes no difference to what is left in the end. -/
theorem emptied_dispose (d : Device) (handle : Handle) :
    (d.dispose handle).emptied = d.emptied := by
  unfold dispose
  split <;> rfl

/-- A balanced device without meshes holds no bytes and has released all it had. -/
theorem Balanced.emptied_eq_self {d : Device} (hd : d.Balanced) (h : d.resident = []) :
    d.emptied = d := by
  obtain ⟨resident, nextHandle, ⟨current, peak, allocations, releases⟩, budget⟩ := d
  subst h
  have hcurrent : current = 0 := hd.current_eq
  have hreleases : releases + 0 = allocations := hd.releases_add
  simp only [emptied, Device.mk.injEq, MemoryLedger.mk.injEq, true_and, and_true]
  omega

/-- Disposing of all handles of a balanced device empties it. -/
theorem Balanced.foldl_dispose_handles {d : Device} (hd : d.Balanced) :
    d.handles.foldl Device.dispose d = d.emptied := by
  -- by induction on the handles that are left, of which the first is always the first one there
  suffices h : ∀ (hs : List Handle) (d : Device), d.Balanced → d.handles = hs →
      hs.foldl Device.dispose d = d.emptied from h _ d hd rfl
  intro hs
  induction hs with
  | nil =>
    intro d hd hnil
    exact (hd.emptied_eq_self (List.map_eq_nil_iff.mp hnil)).symm
  | cons handle hs ih =>
    intro d hd hcons
    have hrest : (d.dispose handle).handles = hs := by
      have hnodup := hd.nodup
      rw [hcons, List.nodup_cons] at hnodup
      rw [handles_dispose, hcons, List.filter_cons_of_neg (by simp)]
      refine List.filter_eq_self.mpr fun other hmem => bne_iff_ne.mpr ?_
      rintro rfl
      exact hnodup.1 hmem
    rw [List.foldl_cons, ih _ (hd.dispose handle) hrest, emptied_dispose]

end Device

/-!
## Transcripts

A recorded device keeps the calls that were made to it.  `Device.Transcript d calls e` says what it
means for such a record to be in order: made one after the other to `d`, the calls lead to `e`, and
whenever a call names a handle, the mesh with that handle is there at the time of the call.

`issued` lists the handles that were granted in a series of calls.  From the start of a device on
they are the numbers below its next handle, each of them once (`Transcript.issued_eq_range`).
-/

/-- The handle that a call was granted, when it was an upload that was not refused. -/
def Call.granted? : Call → Option Handle
  | upload _ granted => granted
  | dispose _ => none
  | setAttached _ _ => none

/-- The handles that were issued in a series of calls. -/
def issued (calls : List Call) : List Handle := calls.filterMap Call.granted?

/-- The handles issued by later calls come after those issued before. -/
theorem issued_append (calls later : List Call) :
    issued (calls ++ later) = issued calls ++ issued later :=
  List.filterMap_append

/-- The calls lead from the device `d` to another one, and no call names a handle of a mesh that is
not there. -/
inductive Device.Transcript (d : Device) : List Call → Device → Prop where
  | start : Transcript d [] d
  | granted {calls : List Call} {e f : Device} {p : Payload} {handle : Handle} :
      Transcript d calls e → e.upload p = .ok (handle, f) →
        Transcript d (calls ++ [.upload p.name (some handle)]) f
  | refused {calls : List Call} {e : Device} {p : Payload} {reason : OutOfMemory} :
      Transcript d calls e → e.upload p = .error reason →
        Transcript d (calls ++ [.upload p.name none]) e
  | disposed {calls : List Call} {e : Device} {handle : Handle} :
      Transcript d calls e → handle ∈ e.handles →
        Transcript d (calls ++ [.dispose handle]) (e.dispose handle)
  | switched {calls : List Call} {e : Device} {handle : Handle} {attached : Bool} :
      Transcript d calls e → handle ∈ e.handles →
        Transcript d (calls ++ [.setAttached handle attached]) (e.setAttached handle attached)

namespace Device

/-- An upload is accepted under the next handle exactly when the device admits its bytes. -/
theorem upload_eq_ok_iff {d e : Device} {p : Payload} {handle : Handle} :
    d.upload p = .ok (handle, e) ↔
      d.admits p.byteSize = true ∧ handle = d.nextHandle ∧ e = d.accept p := by
  unfold upload
  split
  · next h => simp [h, eq_comm]
  · next h => simp [h]

namespace Transcript

variable {d e : Device} {calls : List Call}

/-- The books of a device balance after any calls when they did before. -/
theorem balanced (h : Transcript d calls e) (hd : d.Balanced) : e.Balanced := by
  induction h with
  | start => exact hd
  | granted _ hupload ih =>
    obtain ⟨-, -, rfl⟩ := upload_eq_ok_iff.mp hupload
    exact ih.accept _
  | refused _ _ ih => exact ih
  | disposed _ _ ih => exact ih.dispose _
  | switched _ _ ih => exact ih.setAttached _ _

/-- No call changes the budget of a device. -/
theorem budget_eq (h : Transcript d calls e) : e.budget = d.budget := by
  induction h with
  | start => rfl
  | granted _ hupload ih =>
    obtain ⟨-, -, rfl⟩ := upload_eq_ok_iff.mp hupload
    exact ih
  | refused _ _ ih => exact ih
  | disposed _ _ ih => rw [budget_dispose, ih]
  | switched _ _ ih => exact ih

/-- Handles are issued one after the other from zero on, and none of them twice. -/
theorem issued_eq_range (h : Transcript d calls e) (hd : d.nextHandle = 0) :
    issued calls = List.range e.nextHandle := by
  induction h with
  | start => rw [hd]; rfl
  | granted _ hupload ih =>
    obtain ⟨-, rfl, rfl⟩ := upload_eq_ok_iff.mp hupload
    rw [issued_append, ih]
    exact List.range_succ.symm
  | refused _ _ ih =>
    rw [issued_append, ih]
    exact List.append_nil _
  | disposed _ _ ih =>
    rw [issued_append, ih, nextHandle_dispose]
    exact List.append_nil _
  | switched _ _ ih =>
    rw [issued_append, ih]
    exact List.append_nil _

end Transcript

end Device

/-! ### Recorded devices -/

namespace RecordedDevice

variable {d : Device} {r : RecordedDevice}

/-- An upload that the budget admits is recorded under the handle that it gets. -/
theorem upload_of_admits {p : Payload} (h : r.device.admits p.byteSize = true) :
    r.upload p = (.ok r.device.nextHandle,
      ⟨r.device.accept p, r.calls ++ [.upload p.name (some r.device.nextHandle)]⟩) := by
  rw [upload, Device.upload, if_pos h]

/-- An upload that the budget does not admit is recorded without a handle, and reported with what
was asked for and what was left. -/
theorem upload_of_refuses {p : Payload} (h : ¬r.device.admits p.byteSize = true) :
    r.upload p = (.error ⟨p.byteSize, r.device.available?.getD 0⟩,
      ⟨r.device, r.calls ++ [.upload p.name none]⟩) := by
  rw [upload, Device.upload, if_neg h]

/-- Disposing of handles one after the other does to the device what the recorded calls say. -/
theorem device_foldl_dispose (r : RecordedDevice) (hs : List Handle) :
    (hs.foldl dispose r).device = hs.foldl Device.dispose r.device :=
  (List.foldl_hom (fun r : RecordedDevice => r.device) fun _ _ => rfl).symm

/-- Disposing of handles one after the other records one call for each of them. -/
theorem calls_foldl_dispose (r : RecordedDevice) (hs : List Handle) :
    (hs.foldl dispose r).calls = r.calls ++ hs.map Call.dispose := by
  induction hs generalizing r with
  | nil => exact (List.append_nil _).symm
  | cons handle hs ih =>
    rw [List.foldl_cons, ih, List.map_cons]
    exact List.append_assoc _ _ _

/-- Switching handles one after the other does to the device what the recorded calls say. -/
theorem device_foldl_setAttached (r : RecordedDevice) (hs : List Handle) (attached : Bool) :
    (hs.foldl (fun r handle => r.setAttached handle attached) r).device =
      hs.foldl (fun d handle => d.setAttached handle attached) r.device :=
  (List.foldl_hom (fun r : RecordedDevice => r.device) fun _ _ => rfl).symm

/-- Switching handles one after the other records one call for each of them. -/
theorem calls_foldl_setAttached (r : RecordedDevice) (hs : List Handle) (attached : Bool) :
    (hs.foldl (fun r handle => r.setAttached handle attached) r).calls =
      r.calls ++ hs.map (Call.setAttached · attached) := by
  induction hs generalizing r with
  | nil => exact (List.append_nil _).symm
  | cons handle hs ih =>
    rw [List.foldl_cons, ih, List.map_cons]
    exact List.append_assoc _ _ _

/-- Disposing of different meshes that are all there keeps the record in order. -/
theorem transcript_foldl_dispose {hs : List Handle} (h : d.Transcript r.calls r.device)
    (hnodup : hs.Nodup) (hmem : ∀ handle ∈ hs, handle ∈ r.device.handles) :
    d.Transcript (hs.foldl dispose r).calls (hs.foldl dispose r).device := by
  induction hs generalizing r with
  | nil => exact h
  | cons handle hs ih =>
    rw [List.nodup_cons] at hnodup
    rw [List.forall_mem_cons] at hmem
    refine ih (r := r.dispose handle) (h.disposed hmem.1) hnodup.2 fun other hother => ?_
    -- the meshes that are still to go are not the one that has gone
    have hne : other ≠ handle := fun heq => hnodup.1 (heq ▸ hother)
    have hfilter : other ∈ r.device.handles.filter (· != handle) :=
      List.mem_filter.mpr ⟨hmem.2 other hother, bne_iff_ne.mpr hne⟩
    rwa [← Device.handles_dispose] at hfilter

/-- Attaching or detaching meshes that are all there keeps the record in order. -/
theorem transcript_foldl_setAttached {hs : List Handle} (h : d.Transcript r.calls r.device)
    (attached : Bool) (hmem : ∀ handle ∈ hs, handle ∈ r.device.handles) :
    d.Transcript (hs.foldl (fun r handle => r.setAttached handle attached) r).calls
      (hs.foldl (fun r handle => r.setAttached handle attached) r).device := by
  induction hs generalizing r with
  | nil => exact h
  | cons handle hs ih =>
    rw [List.forall_mem_cons] at hmem
    refine ih (r := r.setAttached handle attached) (h.switched hmem.1) fun other hother => ?_
    have hsame : (r.setAttached handle attached).device.handles = r.device.handles :=
      Device.handles_setAttached _ _ _
    rw [hsame]
    exact hmem.2 other hother

end RecordedDevice

end LatticeScene.Display
