import LatticeScene.Proofs.Display.Ownership

/-!
# How much of a frame a device takes

A device takes payloads one after the other until one does not fit into the room that is left.
What it takes depends on the payloads and on the room alone: `fitting room ps` is the part of `ps`
that is taken and `refusal? room ps` is the refusal of the payload after it.  A room is a number of
bytes, or nothing at all when there is no budget.

The equations below describe uploading in these terms.  They determine the refusal
(`error?_uploadAll`), the device (`device_uploadAll`), the live meshes (`live_uploadAll`) and the
calls (`exists_calls_uploadAll`).  On a viewer that has just been cleared the room is the whole
budget (`Owns.available?_clear`), so that nothing of the frames before is left in any of them.
-/

namespace LatticeScene.Display

open Staging

/-! ### Room -/

/-- Whether a room has space for some bytes. -/
def hasSpace (room : Option Nat) (bytes : Nat) : Bool := room.all (bytes ≤ ·)

/-- What is left of a room when some bytes have been put into it. -/
def spaceAfter (room : Option Nat) (bytes : Nat) : Option Nat := room.map (· - bytes)

/-- The payloads in front of the first one that does not fit. -/
def fitting (room : Option Nat) : List Payload → List Payload
  | [] => []
  | p :: ps => if hasSpace room p.byteSize then p :: fitting (spaceAfter room p.byteSize) ps else []

/-- The refusal of the first payload that does not fit, if there is one. -/
def refusal? (room : Option Nat) : List Payload → Option OutOfMemory
  | [] => none
  | p :: ps =>
    if hasSpace room p.byteSize then refusal? (spaceAfter room p.byteSize) ps
    else some ⟨p.byteSize, room.getD 0⟩

/-- When nothing is refused, everything fits. -/
theorem fitting_eq_self {room : Option Nat} {ps : List Payload} (h : refusal? room ps = none) :
    fitting room ps = ps := by
  induction ps generalizing room with
  | nil => rfl
  | cons p ps ih =>
    rw [refusal?] at h
    split at h
    · next hspace => rw [fitting, if_pos hspace, ih h]
    · exact absurd h (Option.some_ne_none _)

namespace Device

/-- The budget admits an upload when what is left of it has space for the bytes. -/
theorem admits_eq_hasSpace (d : Device) (bytes : Nat) :
    d.admits bytes = hasSpace d.available? bytes := by
  unfold admits hasSpace
  cases d.available? <;> rfl

/-- An upload takes its bytes from the room that is left. -/
theorem available?_accept (d : Device) (p : Payload) :
    (d.accept p).available? = spaceAfter d.available? p.byteSize := by
  simp only [available?, accept, MemoryLedger.allocate, spaceAfter, Option.map_map]
  congr 1
  funext budget
  exact Nat.sub_add_eq budget _ _

/-- Account for several uploads. -/
def acceptAll (d : Device) (ps : List Payload) : Device := ps.foldl accept d

end Device

/-- What a viewer keeps of payloads that were granted the handles from `next` on. -/
def LiveMesh.ofPayloads (next : Handle) (ps : List Payload) : List LiveMesh :=
  (ps.zipIdx next).map fun numbered => .ofPayload numbered.2 numbered.1

/-- The first payload gets the next handle, and the others get those after it. -/
theorem LiveMesh.ofPayloads_cons (next : Handle) (p : Payload) (ps : List Payload) :
    ofPayloads next (p :: ps) = .ofPayload next p :: ofPayloads (next + 1) ps := by
  rw [ofPayloads, List.zipIdx_cons, List.map_cons, ofPayloads]

/-- The handles from `next` on are in no other order than that of the payloads. -/
theorem LiveMesh.map_handle_ofPayloads (next : Handle) (ps : List Payload) :
    (ofPayloads next ps).map (·.handle) = List.range' next ps.length := by
  rw [ofPayloads, List.map_map, ← List.zipIdx_map_snd next ps]
  rfl

/-- What is kept of a payload, its handle apart, does not depend on the handle. -/
theorem LiveMesh.map_ofPayloads {β : Type} (f : LiveMesh → β)
    (hf : ∀ handle p, f (.ofPayload handle p) = f (.ofPayload 0 p)) (next : Handle)
    (ps : List Payload) :
    (ofPayloads next ps).map f = ps.map fun p => f (.ofPayload 0 p) := by
  induction ps generalizing next with
  | nil => rfl
  | cons p ps ih => rw [ofPayloads_cons, List.map_cons, List.map_cons, ih, hf next p]

namespace Viewer

/-! ### Uploading -/

/-- Uploading is refused exactly when the room of the device does not suffice. -/
theorem error?_uploadAll (v : Viewer) (ps : List Payload) :
    (v.uploadAll ps).error? = refusal? v.display.device.available? ps := by
  induction ps generalizing v with
  | nil => rfl
  | cons p ps ih =>
    rw [refusal?, ← Device.admits_eq_hasSpace, ← Device.available?_accept]
    split
    · next h => rw [uploadAll_cons_of_admits ps h, ih]; rfl
    · next h => rw [uploadAll_cons_of_refuses ps h]; rfl

/-- The device accounts for the payloads that fit, and for no others. -/
theorem device_uploadAll (v : Viewer) (ps : List Payload) :
    (v.uploadAll ps).state.display.device =
      v.display.device.acceptAll (fitting v.display.device.available? ps) := by
  induction ps generalizing v with
  | nil => rfl
  | cons p ps ih =>
    rw [fitting, ← Device.admits_eq_hasSpace, ← Device.available?_accept]
    split
    · next h => rw [uploadAll_cons_of_admits ps h, ih]; rfl
    · next h => rw [uploadAll_cons_of_refuses ps h]; rfl

/-- The payloads that fit become live, with the next handles in order. -/
theorem live_uploadAll (v : Viewer) (ps : List Payload) :
    (v.uploadAll ps).state.live =
      v.live ++ LiveMesh.ofPayloads v.display.device.nextHandle
        (fitting v.display.device.available? ps) := by
  induction ps generalizing v with
  | nil => exact (List.append_nil _).symm
  | cons p ps ih =>
    rw [fitting, ← Device.admits_eq_hasSpace, ← Device.available?_accept]
    split
    · next h =>
      rw [uploadAll_cons_of_admits ps h, ih, LiveMesh.ofPayloads_cons, List.append_cons]
      rfl
    · next h =>
      rw [uploadAll_cons_of_refuses ps h]
      exact (List.append_nil _).symm

/-- Among the calls of an upload there is a refused one exactly when it ends in an error. -/
theorem exists_calls_uploadAll (v : Viewer) (ps : List Payload) :
    ∃ made, (v.uploadAll ps).state.display.calls = v.display.calls ++ made ∧
      ((∃ name, Call.upload name none ∈ made) ↔ (v.uploadAll ps).error?.isSome) := by
  induction ps generalizing v with
  | nil => exact ⟨[], (List.append_nil _).symm, by simp⟩
  | cons p ps ih =>
    by_cases h : v.display.device.admits p.byteSize = true
    · obtain ⟨made, hcalls, hiff⟩ := ih (v.receive p)
      rw [uploadAll_cons_of_admits ps h]
      refine ⟨.upload p.name (some v.display.device.nextHandle) :: made, ?_, ?_⟩
      · rw [hcalls, List.append_cons]
        rfl
      · rw [← hiff]
        simp
    · rw [uploadAll_cons_of_refuses ps h]
      exact ⟨[.upload p.name none], rfl, by simp⟩

/-! ### Uploading a whole frame -/

section Frame

variable {v : Viewer} {budget : Option Nat}

/-- A cleared viewer has all its budget left, whatever was shown before. -/
theorem Owns.available?_clear (hv : v.Owns budget) :
    v.clear.display.device.available? = budget := by
  rw [hv.device_clear, Device.available?, Device.emptied, hv.budget_eq]
  cases budget <;> rfl

/-- A commit is refused exactly when the budget does not suffice for the frame. -/
theorem Owns.error?_uploadAll_clear (hv : v.Owns budget) (ps : List Payload) :
    (v.clear.uploadAll ps).error? = refusal? budget ps := by
  rw [error?_uploadAll, hv.available?_clear]

/-- After a frame was uploaded to a cleared viewer, the device holds the payloads that fit into the
budget, and nothing else. -/
theorem Owns.device_uploadAll_clear (hv : v.Owns budget) (ps : List Payload) :
    (v.clear.uploadAll ps).state.display.device =
      v.display.device.emptied.acceptAll (fitting budget ps) := by
  rw [device_uploadAll, hv.available?_clear, hv.device_clear]

/-- After a frame was uploaded to a cleared viewer, the payloads that fit into the budget are live.
-/
theorem Owns.live_uploadAll_clear (hv : v.Owns budget) (ps : List Payload) :
    (v.clear.uploadAll ps).state.live =
      LiveMesh.ofPayloads v.display.device.nextHandle (fitting budget ps) := by
  rw [live_uploadAll, hv.available?_clear, hv.device_clear]
  rfl

/-- A committed frame is live payload by payload. -/
theorem Owns.live_committed (hv : v.Owns budget) {staged : StagedFrame}
    (h : refusal? budget staged.payloads = none) :
    (v.committed staged).live =
      LiveMesh.ofPayloads v.display.device.nextHandle staged.payloads := by
  have hlive := hv.live_uploadAll_clear staged.payloads
  rwa [fitting_eq_self h] at hlive

end Frame

end Viewer

end LatticeScene.Display
