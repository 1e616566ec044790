import LatticeScene.Proofs.Display.Visibility

/-!
# A budget is for one frame

A commit disposes of the frame before it uploads the next one, so what a device can take of a frame
is decided by the budget and the frame alone.  `ExceedsAt` says where a frame exceeds a budget: at
the first payload whose bytes, together with those before it, are more than the budget.  A frame
that exceeds a budget does so at some payload, up to which it is taken and with which it is refused
(`exists_exceedsAt`), and any other frame is taken whole (`refusal?_eq_none`).

The peak of the ledger is kept over all frames.  Since every upload starts from an empty device, a
commit raises it to the bytes that were taken of its own frame, if these are more
(`Owns.peak_commit`).  By induction on a session the peak is the most that was taken of any frame
(`Owns.peak_run`).
-/

namespace LatticeScene.Display

open Staging

/-! ### Frames and budgets -/

/-- The bytes of all payloads of a frame. -/
def frameBytes (ps : List Payload) : Nat := total (ps.map Payload.byteSize)

@[simp] theorem frameBytes_nil : frameBytes [] = 0 := rfl

@[simp] theorem frameBytes_cons (p : Payload) (ps : List Payload) :
    frameBytes (p :: ps) = p.byteSize + frameBytes ps := rfl

/-- A frame exceeds a budget of `b` bytes with the payload `p` at place `k`, and not before. -/
structure ExceedsAt (b : Nat) (ps : List Payload) (k : Nat) (p : Payload) : Prop where
  /-- The payload stands at that place. -/
  getElem?_eq : ps[k]? = some p
  /-- The payloads in front of it are within the budget, however many of them are taken. -/
  before_le : ∀ j ≤ k, frameBytes (ps.take j) ≤ b
  /-- Together with the payload they are not. -/
  lt_after : b < frameBytes (ps.take (k + 1))

/-- A frame that exceeds the rest of a budget one place later, behind a payload that fits. -/
theorem ExceedsAt.cons {b k : Nat} {p q : Payload} {ps : List Payload} (hq : q.byteSize ≤ b)
    (h : ExceedsAt (b - q.byteSize) ps k p) : ExceedsAt b (q :: ps) (k + 1) p where
  getElem?_eq := by
    rw [List.getElem?_cons_succ]
    exact h.getElem?_eq
  before_le := by
    intro j hj
    cases j with
    | zero => exact Nat.zero_le b
    | succ j =>
      have hle : frameBytes (ps.take j) ≤ b - q.byteSize := h.before_le j (by omega)
      rw [List.take_succ_cons, frameBytes_cons]
      omega
  lt_after := by
    have hlt : b - q.byteSize < frameBytes (ps.take (k + 1)) := h.lt_after
    rw [List.take_succ_cons, frameBytes_cons]
    omega

/-- A frame within the budget is not refused. -/
theorem refusal?_eq_none {b : Nat} {ps : List Payload} (h : frameBytes ps ≤ b) :
    refusal? (some b) ps = none := by
  induction ps generalizing b with
  | nil => rfl
  | cons p ps ih =>
    rw [frameBytes_cons] at h
    have hspace : hasSpace (some b) p.byteSize = true := by
      simp only [hasSpace, Option.all_some, decide_eq_true_eq]
      omega
    rw [refusal?, if_pos hspace]
    exact ih (b := b - p.byteSize) (by omega)

/-- A frame beyond the budget is taken up to the payload with which it exceeds the budget, and
refused with what is left of the budget in front of that payload. -/
theorem exists_exceedsAt {b : Nat} {ps : List Payload} (h : b < frameBytes ps) :
    ∃ k p, ExceedsAt b ps k p ∧ fitting (some b) ps = ps.take k ∧
      refusal? (some b) ps = some ⟨p.byteSize, b - frameBytes (ps.take k)⟩ := by
  induction ps generalizing b with
  | nil => exact absurd h (Nat.not_lt_zero b)
  | cons q ps ih =>
    rw [frameBytes_cons] at h
    by_cases hq : q.byteSize ≤ b
    · have hspace : hasSpace (some b) q.byteSize = true := by simpa [hasSpace] using hq
      obtain ⟨k, p, hexceeds, hfitting, hrefusal⟩ := ih (b := b - q.byteSize) (by omega)
      refine ⟨k + 1, p, hexceeds.cons hq, ?_, ?_⟩
      · rw [fitting, if_pos hspace, List.take_succ_cons]
        exact congrArg (q :: ·) hfitting
      · rw [refusal?, if_pos hspace, List.take_succ_cons, frameBytes_cons, Nat.sub_add_eq]
        exact hrefusal
    · have hspace : ¬hasSpace (some b) q.byteSize = true := by simpa [hasSpace] using hq
      -- the first payload exceeds the budget by itself
      refine ⟨0, q, ⟨rfl, ?_, ?_⟩, ?_, ?_⟩
      · intro j hj
        rw [Nat.le_zero.mp hj]
        exact Nat.zero_le b
      · simp only [List.take_succ_cons, List.take_zero, frameBytes_cons, frameBytes_nil]
        omega
      · rw [fitting, if_neg hspace, List.take_zero]
      · rw [refusal?, if_neg hspace]
        rfl

/-- Without a budget no frame is refused. -/
theorem refusal?_none (ps : List Payload) : refusal? none ps = none := by
  induction ps with
  | nil => rfl
  | cons p ps ih => exact ih

/-- A frame is not refused exactly when it is within the budget, if there is one. -/
theorem refusal?_eq_none_iff {budget : Option Nat} {ps : List Payload} :
    refusal? budget ps = none ↔ ∀ b, budget = some b → frameBytes ps ≤ b := by
  constructor
  · rintro hnone b rfl
    by_contra hlt
    obtain ⟨k, p, -, -, hrefusal⟩ := exists_exceedsAt (Nat.lt_of_not_le hlt)
    rw [hrefusal] at hnone
    exact Option.some_ne_none _ hnone
  · intro hle
    cases budget with
    | none => exact refusal?_none ps
    | some b => exact refusal?_eq_none (hle b rfl)

/-- The bytes that are taken of a frame. -/
def acceptedBytes (budget : Option Nat) (ps : List Payload) : Nat := frameBytes (fitting budget ps)

/-- What is taken of a frame is within the budget. -/
theorem acceptedBytes_le (b : Nat) (ps : List Payload) : acceptedBytes (some b) ps ≤ b := by
  by_cases h : frameBytes ps ≤ b
  · rw [acceptedBytes, fitting_eq_self (refusal?_eq_none h)]
    exact h
  · obtain ⟨k, p, hexceeds, hfitting, -⟩ := exists_exceedsAt (Nat.lt_of_not_le h)
    rw [acceptedBytes, hfitting]
    exact hexceeds.before_le k (Nat.le_refl k)

/-! ### The peak of the ledger -/

namespace Device

/-- Uploads raise the peak to the bytes that are there after the last of them. -/
theorem peak_acceptAll {d : Device} (hd : d.ledger.current ≤ d.ledger.peak) (ps : List Payload) :
    (d.acceptAll ps).ledger.peak = max d.ledger.peak (d.ledger.current + frameBytes ps) := by
  induction ps generalizing d with
  | nil => exact (Nat.max_eq_left hd).symm
  | cons p ps ih =>
    have hpeak : (d.accept p).ledger.peak =
        max d.ledger.peak (d.ledger.current + p.byteSize) := rfl
    have hcurrent : (d.accept p).ledger.current = d.ledger.current + p.byteSize := rfl
    have hle : (d.accept p).ledger.current ≤ (d.accept p).ledger.peak := by
      rw [hpeak, hcurrent]
      exact Nat.le_max_right _ _
    have hrest :
        (d.acceptAll (p :: ps)).ledger.peak = ((d.accept p).acceptAll ps).ledger.peak := rfl
    rw [hrest, ih hle, hpeak, hcurrent, frameBytes_cons]
    omega

/-- After everything was disposed of, uploads raise the peak to their own bytes. -/
theorem peak_acceptAll_emptied (d : Device) (ps : List Payload) :
    (d.emptied.acceptAll ps).ledger.peak = max d.ledger.peak (frameBytes ps) := by
  have hpeak := peak_acceptAll (d := d.emptied) (Nat.zero_le _) ps
  have hzero : d.emptied.ledger.current + frameBytes ps = frameBytes ps := Nat.zero_add _
  rwa [hzero] at hpeak

/-- The meshes of payloads that were uploaded to an empty device. -/
theorem resident_acceptAll (d : Device) (ps : List Payload) :
    (d.acceptAll ps).resident.map (·.2) =
      d.resident.map (·.2) ++ ps.map ResidentMesh.ofPayload := by
  induction ps generalizing d with
  | nil => exact (List.append_nil _).symm
  | cons p ps ih =>
    have hrest : (d.acceptAll (p :: ps)).resident = ((d.accept p).acceptAll ps).resident := rfl
    rw [hrest, ih, accept, List.map_append, List.map_cons, List.append_assoc]
    rfl

end Device

namespace Viewer

/-- The most bytes that were ever on the device of a viewer. -/
def peakBytes (v : Viewer) : Nat := v.display.device.ledger.peak

/-- The frame that an action commits, if it commits one. -/
def frame? (v : Viewer) : Action → Option (List Payload)
  | .rebuild subject =>
    let staged := subject.stage v.config .empty
    match staged.error? with
    | none => some staged.state.payloads
    | some _ => none
  | .commit staged => some staged.payloads
  | .abandon _ | .clear | .setLayerVisible .. | .setDrawOptions _ => none

/-- The frames that are committed in a session, in order, whether or not a device takes them. -/
def framesOf (v : Viewer) : List Action → List (List Payload)
  | [] => []
  | action :: actions => (v.frame? action).toList ++ (v.perform action).framesOf actions

section Peak

variable {v : Viewer} {budget : Option Nat}

/-- A commit raises the peak to what is taken of its frame. -/
theorem Owns.peak_commit (hv : v.Owns budget) (staged : StagedFrame) :
    (v.commit staged).2.peakBytes = max v.peakBytes (acceptedBytes budget staged.payloads) := by
  cases h : (v.clear.uploadAll staged.payloads).error? with
  | some e =>
    rw [commit_of_refused h, peakBytes, hv.device_withdrawn]
    exact Device.peak_acceptAll_emptied _ _
  | none =>
    rw [commit_of_accepted h, peakBytes, hv.device_committed]
    exact Device.peak_acceptAll_emptied _ _

/-- Clearing a viewer leaves the peak of its device as it is. -/
theorem Owns.peak_clear (hv : v.Owns budget) : v.clear.peakBytes = v.peakBytes := by
  rw [peakBytes, hv.device_clear]
  rfl

/-- Showing or hiding a layer leaves the peak of the device as it is. -/
theorem Owns.peak_setLayerVisible (hv : v.Owns budget) (layer : Layer) (visible : Bool) :
    (v.setLayerVisible layer visible).peakBytes = v.peakBytes := by
  rw [peakBytes, hv.device_setLayerVisible]
  rfl

/-- Choosing what to draw leaves the peak of the device as it is. -/
theorem Owns.peak_setDrawOptions (hv : v.Owns budget) (options : DrawOptions) :
    (v.setDrawOptions options).peakBytes = v.peakBytes := by
  have hfold : (v.setDrawOptions options).Owns budget ∧
      (v.setDrawOptions options).peakBytes = v.peakBytes := by
    refine List.foldlRecOn
      (motive := fun w : Viewer => w.Owns budget ∧ w.peakBytes = v.peakBytes) _ _ ?_ ?_
    · exact ⟨⟨hv.transcript, hv.live_eq⟩, rfl⟩
    · intro w hw layer _
      exact ⟨hw.1.setLayerVisible layer _, (hw.1.peak_setLayerVisible layer _).trans hw.2⟩
  exact hfold.2

/-- Only a frame that is committed raises the peak. -/
theorem Owns.peak_perform (hv : v.Owns budget) (action : Action) :
    (v.perform action).peakBytes =
      ((v.frame? action).toList.map (acceptedBytes budget)).foldl max v.peakBytes := by
  cases action with
  | rebuild subject =>
    rw [Viewer.perform, showSubject_eq_rebuild]
    cases h : (subject.stage v.config .empty).error? with
    | some failure =>
      rw [rebuild_of_failed h]
      simp only [frame?, h]
      rfl
    | none =>
      rw [rebuild_of_staged h, hv.peak_commit]
      simp only [frame?, h]
      rfl
  | commit staged => exact hv.peak_commit staged
  | abandon staged => rfl
  | clear => exact hv.peak_clear
  | setLayerVisible layer visible => exact hv.peak_setLayerVisible layer visible
  | setDrawOptions options => exact hv.peak_setDrawOptions options

/-- The peak is the most that was taken of any frame. -/
theorem Owns.peak_run (hv : v.Owns budget) (actions : List Action) :
    (v.run actions).peakBytes =
      ((v.framesOf actions).map (acceptedBytes budget)).foldl max v.peakBytes := by
  induction actions generalizing v with
  | nil => rfl
  | cons action actions ih =>
    rw [run_cons, ih (hv.perform action), hv.peak_perform, framesOf, List.map_append,
      List.foldl_append]

end Peak

/-- After any session, a commit succeeds exactly when its frame is within the budget, whatever was
shown before.  A frame that is not is taken up to the payload with which it exceeds the budget; the
refusal names the bytes of that payload and what was left for it.  When the uploads of a commit end,
the meshes on the device are those that were taken of its frame, and no others.  The most bytes that
were ever there are the most that were taken of one frame, and never more than the budget. -/
theorem run_budget_counts_one_frame (budget : Option Nat) (config : Config)
    (actions : List Action) :
    let v := (start (.empty budget) config).run actions
    (∀ staged : StagedFrame,
      ((∃ summary, (v.commit staged).1 = .ok summary) ↔
          ∀ b, budget = some b → frameBytes staged.payloads ≤ b) ∧
        ((∃ summary, (v.commit staged).1 = .ok summary) →
          fitting budget staged.payloads = staged.payloads) ∧
        (∀ b, budget = some b → b < frameBytes staged.payloads →
          ∃ k p, ExceedsAt b staged.payloads k p ∧
            fitting budget staged.payloads = staged.payloads.take k ∧
            (v.commit staged).1 =
              .error (.display ⟨p.byteSize, b - frameBytes (staged.payloads.take k)⟩)) ∧
        (v.clear.uploadAll staged.payloads).state.display.device.resident.map (·.2) =
          (fitting budget staged.payloads).map ResidentMesh.ofPayload) ∧
      v.display.device.ledger.peak =
        (((start (.empty budget) config).framesOf actions).map (acceptedBytes budget)).foldl max 0 ∧
      ∀ b, budget = some b → v.display.device.ledger.peak ≤ b := by
  intro v
  have hv : v.Owns budget := owns_run_start budget config actions
  have hpeak : v.display.device.ledger.peak =
      (((start (.empty budget) config).framesOf actions).map (acceptedBytes budget)).foldl max 0 :=
    (owns_start budget config).peak_run actions
  refine ⟨fun staged => ?_, hpeak, ?_⟩
  · have herror := hv.error?_uploadAll_clear staged.payloads
    have hok : (∃ summary, (v.commit staged).1 = .ok summary) ↔
        refusal? budget staged.payloads = none := by
      -- a commit clears first, so that the budget and this frame alone decide
      cases h : refusal? budget staged.payloads with
      | some e =>
        rw [h] at herror
        rw [commit_of_refused herror]
        simp
      | none =>
        rw [h] at herror
        rw [commit_of_accepted herror]
        simp
    refine ⟨hok.trans refusal?_eq_none_iff, fun h => fitting_eq_self (hok.mp h), ?_, ?_⟩
    · rintro b rfl hlt
      obtain ⟨k, p, hexceeds, hfitting, hrefusal⟩ := exists_exceedsAt hlt
      rw [hrefusal] at herror
      rw [commit_of_refused herror]
      exact ⟨k, p, hexceeds, hfitting, rfl⟩
    · rw [hv.device_uploadAll_clear, Device.resident_acceptAll]
      rfl
  · rintro b rfl
    rw [hpeak]
    refine List.foldlRecOn (motive := (· ≤ b)) _ max (Nat.zero_le b) ?_
    intro most hmost bytes hmem
    obtain ⟨ps, -, rfl⟩ := List.mem_map.mp hmem
    exact Nat.max_le.mpr ⟨hmost, acceptedBytes_le b ps⟩

/-- On forty bytes two points are taken after any frames, the third one is refused for want of eight
bytes, and the peak stays at two points. -/
theorem run_budget_counts_one_frame_crowded :
    let v := (start (.empty (some 40)) .default).run crowdedSession
    let frame := [pointOn .boxes, pointOn .lattice, pointOn .boxes]
    (∃ summary, (v.commit ⟨frame.take 2, .empty⟩).1 = .ok summary) ∧
      40 < frameBytes frame ∧
      (∃ k p, ExceedsAt 40 frame k p ∧
        (v.commit ⟨frame, .empty⟩).1 =
          .error (.display ⟨p.byteSize, 40 - frameBytes (frame.take k)⟩)) ∧
      v.display.device.ledger.peak = 32 ∧ v.display.device.ledger.peak ≤ 40 := by
  intro v frame
  obtain ⟨hcommit, hpeak, hle⟩ := run_budget_counts_one_frame (some 40) .default crowdedSession
  have hexceeds : 40 < frameBytes frame := by decide
  refine ⟨?_, hexceeds, ?_, hpeak.trans (by decide), hle 40 rfl⟩
  · refine (hcommit ⟨frame.take 2, .empty⟩).1.mpr ?_
    rintro b ⟨⟩
    decide
  · obtain ⟨k, p, hat, -, herror⟩ := (hcommit ⟨frame, .empty⟩).2.2.1 40 rfl hexceeds
    exact ⟨k, p, hat, herror⟩

end Viewer

end LatticeScene.Display
