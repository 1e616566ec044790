import LatticeScene.Proofs.Display.Ownership
import Mathlib.Data.List.Infix
import Mathlib.Order.Bounds.Basic

/-!
# The books of a device balance under any requests

A viewer names only handles of meshes that are there.  Other callers need not: they may dispose of a
mesh twice, or name a handle before it is issued.  `Request` is anything that can be asked of a
device, and `RecordedDevice.serveAll` serves requests one after the other, those that are refused
and those that name nothing included.

What every request keeps is gathered in `Books` (`Books.serve`), and so it holds after any requests
to a fresh device (`books_served`).  The peak of the ledger is the most that the device has held
after any of them (`isGreatest_peak`), because no request raises it above what is held then
(`peak_serve`).
-/

namespace LatticeScene.Display

open Staging

/-- Something that is asked of a device. -/
inductive Request where
  | upload (p : Payload)
  | dispose (handle : Handle)
  | setAttached (handle : Handle) (attached : Bool)

/-- A call that grants no handle. -/
theorem issued_append_of_granted? {calls : List Call} {call : Call} (h : call.granted? = none) :
    issued (calls ++ [call]) = issued calls := by
  rw [issued_append, issued, issued, List.filterMap_cons_none h, List.filterMap_nil,
    List.append_nil]

/-! ### Requests that change nothing -/

namespace Device

variable {d : Device} {handle : Handle}

/-- Without a budget every upload is admitted, and otherwise those that fit into what is left. -/
theorem admits_iff {bytes : Nat} :
    d.admits bytes = true ↔ ∀ limit, d.budget = some limit → bytes ≤ limit - d.ledger.current := by
  unfold admits available?
  cases d.budget with
  | none => exact iff_of_true rfl fun limit h => absurd h.symm (Option.some_ne_none limit)
  | some limit =>
    refine decide_eq_true_iff.trans ⟨fun hle other hother => ?_, fun h => h limit rfl⟩
    rwa [← Option.some.inj hother]

/-- Disposing of a mesh that is not there changes nothing. -/
theorem dispose_of_get?_eq_none (h : d.get? handle = none) : d.dispose handle = d := by
  rw [dispose, h]

/-- Attaching or detaching a mesh that is not there changes nothing. -/
theorem setAttached_of_get?_eq_none (h : d.get? handle = none) (attached : Bool) :
    d.setAttached handle attached = d := by
  have habsent : ∀ entry ∈ d.resident, entry.1 ≠ handle := by
    rintro entry hentry rfl
    have hsome : (d.get? entry.1).isSome := get?_isSome_iff.mpr (List.mem_map_of_mem hentry)
    rw [h] at hsome
    exact Bool.false_ne_true hsome
  have hsame : d.resident.map (fun entry =>
      if entry.1 = handle then (entry.1, { entry.2 with attached }) else entry) = d.resident := by
    refine (List.map_congr_left fun entry hentry => ?_).trans (List.map_id _)
    rw [if_neg (habsent entry hentry)]
    rfl
  rw [setAttached, hsame]

/-- A mesh that is there has no more bytes than are held. -/
theorem Balanced.bytes_le (hd : d.Balanced) {mesh : ResidentMesh}
    (h : d.get? handle = some mesh) : mesh.bytes ≤ d.ledger.current := by
  have hperm := (perm_cons_filter_of_get? hd.nodup h).map (·.2.bytes)
  rw [hd.current_eq, residentBytes, total_eq_of_perm hperm, List.map_cons, total_cons]
  exact Nat.le_add_right _ _

end Device

namespace RecordedDevice

/-! ### Serving requests -/

/-- The device after a request. -/
def serve (r : RecordedDevice) : Request → RecordedDevice
  | .upload p => (r.upload p).2
  | .dispose handle => r.dispose handle
  | .setAttached handle attached => r.setAttached handle attached

/-- The device after several requests. -/
def serveAll (r : RecordedDevice) (requests : List Request) : RecordedDevice :=
  requests.foldl serve r

/-- A fresh device after several requests. -/
def served (budget : Option Nat) (requests : List Request) : RecordedDevice :=
  (ofDevice (.empty budget)).serveAll requests

/-- Requests that follow others are served where those have led. -/
theorem served_append (budget : Option Nat) (requests later : List Request) :
    served budget (requests ++ later) = (served budget requests).serveAll later :=
  List.foldl_append

section Uploads

variable {r : RecordedDevice} {p : Payload}

/-- An upload is refused exactly when the budget does not admit it. -/
theorem exists_error_upload_iff :
    (∃ e, (r.upload p).1 = .error e) ↔ ¬r.device.admits p.byteSize = true := by
  by_cases h : r.device.admits p.byteSize = true
  · rw [upload_of_admits h]
    refine iff_of_false ?_ (not_not_intro h)
    rintro ⟨e, he⟩
    cases he
  · rw [upload_of_refuses h]
    exact iff_of_true ⟨_, rfl⟩ h

/-- An upload that is refused leaves the device as it is. -/
theorem device_upload_of_error {e : OutOfMemory} (h : (r.upload p).1 = .error e) :
    (r.upload p).2.device = r.device := by
  rw [upload_of_refuses (exists_error_upload_iff.mp ⟨e, h⟩)]

end Uploads

/-- Every request is recorded as one call. -/
theorem exists_call_serve (r : RecordedDevice) (request : Request) :
    ∃ call, (r.serve request).calls = r.calls ++ [call] := by
  cases request with
  | upload p =>
    by_cases h : r.device.admits p.byteSize = true
    · rw [serve, upload_of_admits h]
      exact ⟨_, rfl⟩
    · rw [serve, upload_of_refuses h]
      exact ⟨_, rfl⟩
  | dispose handle => exact ⟨_, rfl⟩
  | setAttached handle attached => exact ⟨_, rfl⟩

/-- Serving requests only adds to the record of calls. -/
theorem exists_calls_serveAll (r : RecordedDevice) (requests : List Request) :
    ∃ later, (r.serveAll requests).calls = r.calls ++ later := by
  induction requests generalizing r with
  | nil => exact ⟨[], (List.append_nil _).symm⟩
  | cons request requests ih =>
    obtain ⟨call, hcall⟩ := r.exists_call_serve request
    obtain ⟨later, hlater⟩ := ih (r.serve request)
    refine ⟨call :: later, hlater.trans ?_⟩
    rw [hcall, List.append_assoc, List.singleton_append]

/-! ### What every request keeps -/

/-- The meshes, the ledger and the record of a device with the given budget agree. -/
structure Books (budget : Option Nat) (r : RecordedDevice) : Prop where
  balanced : r.device.Balanced
  budget_eq : r.device.budget = budget
  /-- Handles are issued in order, and each of them once. -/
  issued_eq : issued r.calls = List.range r.device.nextHandle
  /-- No more is held than the budget permits. -/
  current_le : ∀ limit, budget = some limit → r.device.ledger.current ≤ limit
  current_le_peak : r.device.ledger.current ≤ r.device.ledger.peak

section Serving

variable {budget : Option Nat} {r : RecordedDevice}

/-- The books of a new device agree. -/
theorem books_start (budget : Option Nat) : (ofDevice (.empty budget)).Books budget where
  balanced := Device.balanced_empty budget
  budget_eq := rfl
  issued_eq := rfl
  current_le limit _ := Nat.zero_le limit
  current_le_peak := Nat.le_refl 0

/-- An upload that is admitted keeps the books. -/
theorem Books.accept (h : r.Books budget) {p : Payload} (hp : r.device.admits p.byteSize = true) :
    Books budget
      ⟨r.device.accept p, r.calls ++ [.upload p.name (some r.device.nextHandle)]⟩ where
  balanced := h.balanced.accept p
  budget_eq := h.budget_eq
  issued_eq := by
    rw [issued_append, h.issued_eq]
    exact List.range_succ.symm
  current_le := by
    intro limit hlimit
    have hroom := Device.admits_iff.mp hp limit (h.budget_eq.trans hlimit)
    have hheld := h.current_le limit hlimit
    simp only [Device.accept, MemoryLedger.allocate]
    omega
  current_le_peak := Nat.le_max_right _ _

/-- An upload that is refused keeps the books. -/
theorem Books.refuse (h : r.Books budget) (name : String) :
    Books budget ⟨r.device, r.calls ++ [.upload name none]⟩ where
  balanced := h.balanced
  budget_eq := h.budget_eq
  issued_eq := (issued_append_of_granted? rfl).trans h.issued_eq
  current_le := h.current_le
  current_le_peak := h.current_le_peak

/-- A disposal keeps the books, whatever handle it names. -/
theorem Books.dispose (h : r.Books budget) (handle : Handle) :
    (r.dispose handle).Books budget := by
  have hcurrent : (r.device.dispose handle).ledger.current ≤ r.device.ledger.current ∧
      (r.device.dispose handle).ledger.peak = r.device.ledger.peak := by
    unfold Device.dispose
    split
    · exact ⟨Nat.le_refl _, rfl⟩
    · exact ⟨Nat.sub_le _ _, rfl⟩
  constructor
  · exact h.balanced.dispose handle
  · exact (Device.budget_dispose _ _).trans h.budget_eq
  · refine (issued_append_of_granted? rfl).trans (h.issued_eq.trans ?_)
    exact congrArg List.range (Device.nextHandle_dispose _ _).symm
  · exact fun limit hlimit => Nat.le_trans hcurrent.1 (h.current_le limit hlimit)
  · exact Nat.le_trans hcurrent.1 (Nat.le_trans h.current_le_peak (Nat.le_of_eq hcurrent.2.symm))

/-- Attaching and detaching keeps the books, whatever handle it names. -/
theorem Books.setAttached (h : r.Books budget) (handle : Handle) (attached : Bool) :
    (r.setAttached handle attached).Books budget where
  balanced := h.balanced.setAttached handle attached
  budget_eq := h.budget_eq
  issued_eq := (issued_append_of_granted? rfl).trans h.issued_eq
  current_le := h.current_le
  current_le_peak := h.current_le_peak

/-- The books agree after a request of any kind if they agreed before. -/
theorem Books.serve (h : r.Books budget) (request : Request) : (r.serve request).Books budget := by
  cases request with
  | upload p =>
    by_cases hp : r.device.admits p.byteSize = true
    · rw [RecordedDevice.serve, upload_of_admits hp]
      exact h.accept hp
    · rw [RecordedDevice.serve, upload_of_refuses hp]
      exact h.refuse p.name
  | dispose handle => exact h.dispose handle
  | setAttached handle attached => exact h.setAttached handle attached

/-- The books agree after any list of requests to a new device. -/
theorem books_served (budget : Option Nat) (requests : List Request) :
    (served budget requests).Books budget :=
  List.foldlRecOn (motive := Books budget) requests serve (books_start budget)
    fun _ h request _ => h.serve request

/-- The peak follows what is held. -/
theorem peak_serve (h : r.device.ledger.current ≤ r.device.ledger.peak) (request : Request) :
    (r.serve request).device.ledger.peak =
      max r.device.ledger.peak (r.serve request).device.ledger.current := by
  cases request with
  | upload p =>
    by_cases hp : r.device.admits p.byteSize = true
    · rw [serve, upload_of_admits hp]
      rfl
    · rw [serve, upload_of_refuses hp]
      exact (Nat.max_eq_left h).symm
  | dispose handle =>
    have hdispose : (r.device.dispose handle).ledger.peak =
        max r.device.ledger.peak (r.device.dispose handle).ledger.current := by
      unfold Device.dispose
      split
      · exact (Nat.max_eq_left h).symm
      · exact (Nat.max_eq_left (Nat.le_trans (Nat.sub_le _ _) h)).symm
    exact hdispose
  | setAttached handle attached => exact (Nat.max_eq_left h).symm

end Serving

/-- The peak is the most that has been held after any of the requests. -/
theorem isGreatest_peak (budget : Option Nat) (requests : List Request) :
    IsGreatest
      {n | ∃ before, before <+: requests ∧ n = (served budget before).device.ledger.current}
      (served budget requests).device.ledger.peak := by
  induction requests using List.reverseRecOn with
  | nil =>
    refine ⟨⟨[], List.prefix_rfl, rfl⟩, ?_⟩
    rintro n ⟨before, hbefore, rfl⟩
    rw [List.prefix_nil.mp hbefore]
    exact Nat.le_refl 0
  | append_singleton requests request ih =>
    have hpeak : (served budget (requests ++ [request])).device.ledger.peak =
        max (served budget requests).device.ledger.peak
          (served budget (requests ++ [request])).device.ledger.current := by
      rw [served_append]
      exact peak_serve (books_served budget requests).current_le_peak request
    -- a prefix either leaves the last request out or is everything
    have hsplit : {n | ∃ before, before <+: requests ++ [request] ∧
          n = (served budget before).device.ledger.current} =
        insert (served budget (requests ++ [request])).device.ledger.current
          {n | ∃ before, before <+: requests ∧
            n = (served budget before).device.ledger.current} := by
      ext n
      constructor
      · rintro ⟨before, hbefore, rfl⟩
        rcases List.prefix_concat_iff.mp hbefore with rfl | hprefix
        · exact Set.mem_insert _ _
        · exact Set.mem_insert_of_mem _ ⟨before, hprefix, rfl⟩
      · rintro (rfl | ⟨before, hbefore, rfl⟩)
        · exact ⟨_, List.prefix_rfl, rfl⟩
        · exact ⟨before, hbefore.trans (List.prefix_append _ _), rfl⟩
    rw [hpeak, hsplit, max_comm]
    exact ih.insert _

/-- What has been held stays within the budget, and so does the most of it. -/
theorem peak_le {budget : Option Nat} {limit : Nat} (hlimit : budget = some limit)
    (requests : List Request) : (served budget requests).device.ledger.peak ≤ limit := by
  obtain ⟨before, -, hpeak⟩ := (isGreatest_peak budget requests).1
  rw [hpeak]
  exact (books_served budget before).current_le limit hlimit

/-- A handle that has been issued is not issued again. -/
theorem exists_later_of_issued {budget : Option Nat} {before : List Request} {handle : Handle}
    (h : handle ∈ issued (served budget before).calls) (after : List Request) :
    ∃ later, (served budget (before ++ after)).calls = (served budget before).calls ++ later ∧
      handle ∉ issued later := by
  obtain ⟨later, hlater⟩ := (served budget before).exists_calls_serveAll after
  rw [← served_append] at hlater
  have hnodup : (issued (served budget (before ++ after)).calls).Nodup := by
    rw [(books_served budget _).issued_eq]
    exact List.nodup_range
  rw [hlater, issued_append, List.nodup_append] at hnodup
  exact ⟨later, hlater, fun hagain => hnodup.2.2 handle h handle hagain rfl⟩

/-- The handles of meshes that are there have been issued. -/
theorem mem_issued_of_isSome {budget : Option Nat} {requests : List Request} {handle : Handle}
    (h : ((served budget requests).device.get? handle).isSome) :
    handle ∈ issued (served budget requests).calls := by
  have hbooks := books_served budget requests
  rw [hbooks.issued_eq, List.mem_range]
  exact hbooks.balanced.lt_next handle (Device.get?_isSome_iff.mp h)

/-- After any requests to a fresh device, the ledger holds the bytes of the meshes that are there,
so that releasing any of them takes away no more than is held.  Allocations that have not been
released are meshes that are there, and every upload that was granted is one allocation and one
handle.  What is held stays within the budget, and the peak is the most that has ever been held.
The handle of a mesh that has been disposed of is not issued again.  An upload is refused exactly if
it is larger than what is left of the budget, and a refused upload, or a handle of no mesh, changes
nothing. -/
theorem served_books_balance (budget : Option Nat) (requests : List Request) :
    let r := served budget requests
    let ledger := r.device.ledger
    ledger.current = total (r.device.resident.map (·.2.bytes)) ∧
    (∀ handle mesh, r.device.get? handle = some mesh → mesh.bytes ≤ ledger.current) ∧
    ledger.live = r.device.residentCount ∧
    ledger.allocations = (issued r.calls).length ∧
    r.device.nextHandle = (issued r.calls).length ∧
    (∀ limit, budget = some limit → ledger.current ≤ limit ∧ ledger.peak ≤ limit) ∧
    IsGreatest
      {n | ∃ before, before <+: requests ∧ n = (served budget before).device.ledger.current}
      ledger.peak ∧
    (∀ before handle after, requests = before ++ .dispose handle :: after →
      ((served budget before).device.get? handle).isSome →
      ∃ later, r.calls = (served budget (before ++ [.dispose handle])).calls ++ later ∧
        handle ∉ issued later) ∧
    (∀ p, (∃ e, (r.upload p).1 = .error e) ↔
      ∃ limit, budget = some limit ∧ limit - ledger.current < p.byteSize) ∧
    (∀ p e, (r.upload p).1 = .error e → (r.upload p).2.device = r.device) ∧
    (∀ handle, r.device.get? handle = none →
      (r.dispose handle).device = r.device ∧
        ∀ attached, (r.setAttached handle attached).device = r.device) := by
  intro r ledger
  have hbooks : r.Books budget := books_served budget requests
  have hissued : (issued r.calls).length = r.device.nextHandle := by
    rw [hbooks.issued_eq, List.length_range]
  refine ⟨hbooks.balanced.current_eq, fun handle mesh => hbooks.balanced.bytes_le,
    hbooks.balanced.live_eq, hbooks.balanced.allocations_eq.trans hissued.symm, hissued.symm,
    fun limit hlimit => ⟨hbooks.current_le limit hlimit, peak_le hlimit requests⟩,
    isGreatest_peak budget requests, ?_, fun p => ?_, fun p e => device_upload_of_error,
    fun handle hnone => ⟨?_, fun attached => ?_⟩⟩
  · rintro before handle after rfl hthere
    -- disposing issues nothing, so that the handle was issued before
    have hsame : issued (served budget (before ++ [.dispose handle])).calls =
        issued (served budget before).calls := by
      rw [served_append]
      exact issued_append_of_granted? rfl
    have hmem : handle ∈ issued (served budget (before ++ [.dispose handle])).calls := by
      rw [hsame]
      exact mem_issued_of_isSome hthere
    have hagain := exists_later_of_issued hmem after
    rwa [List.append_assoc, List.singleton_append] at hagain
  · rw [exists_error_upload_iff, Device.admits_iff, hbooks.budget_eq]
    simp only [not_forall, Nat.not_le, exists_prop]
    rfl
  · exact Device.dispose_of_get?_eq_none hnone
  · exact Device.setAttached_of_get?_eq_none hnone attached

/-- Two points, the first of which is disposed of twice, a mesh that was never there, and then two
more points. -/
def carelessRequests : List Request :=
  [.upload (Viewer.pointOn .boxes), .upload (Viewer.pointOn .lattice), .dispose 0, .dispose 0,
    .setAttached 7 true, .upload (Viewer.pointOn .boxes), .upload (Viewer.pointOn .boxes)]

/-- On forty bytes there is no room for the last point, and the first handle is gone for good. -/
theorem served_books_balance_careless :
    let r := served (some 40) carelessRequests
    r.device.ledger.peak ≤ 40 ∧
    (∃ later, r.calls = (served (some 40) (carelessRequests.take 3)).calls ++ later ∧
      0 ∉ issued later) ∧
    (∃ e, (r.upload (Viewer.pointOn .boxes)).1 = .error e ∧
      (r.upload (Viewer.pointOn .boxes)).2.device = r.device) ∧
    (r.dispose 0).device = r.device := by
  intro r
  obtain ⟨-, -, -, -, -, hbudget, -, hdisposed, hrefused, hunchanged, habsent⟩ :=
    served_books_balance (some 40) carelessRequests
  have hlater := hdisposed (carelessRequests.take 2) 0 (carelessRequests.drop 3) rfl (by decide)
  obtain ⟨e, he⟩ := (hrefused (Viewer.pointOn .boxes)).mpr ⟨40, rfl, by decide⟩
  exact ⟨(hbudget 40 rfl).2, hlater, ⟨e, he, hunchanged _ e he⟩, (habsent 0 (by decide)).1⟩

end RecordedDevice

end LatticeScene.Display
