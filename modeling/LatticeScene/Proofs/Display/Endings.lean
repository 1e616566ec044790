import LatticeScene.Proofs.Display.Visibility

/-!
# How a rebuild ends

A rebuild ends in one of three ways.  When its frame cannot be staged, nothing has happened.  When
the frame was staged but the device refused one of its payloads, nothing is shown any more
(`Viewer.Emptied`).  Otherwise the new frame is shown in place of the one before
(`Viewer.Swapped`).  Whether an upload was refused is read off the calls that the rebuild made.

The report of a frame counts what the viewer keeps.  Because the viewer owns the meshes of its
device and attachment mirrors visibility, the counts are those of the device as well
(`summary_counts`).
-/

namespace LatticeScene.Display

open Staging

/-- A device does not find a handle that no mesh has. -/
theorem Device.get?_eq_none {d : Device} {handle : Handle} (h : handle ∉ d.handles) :
    d.get? handle = none := by
  cases hget : d.get? handle with
  | none => rfl
  | some mesh => exact absurd (get?_isSome_iff.mp (Option.isSome_of_mem hget)) h

namespace Viewer

/-- Nothing is shown after a frame that the device refused. -/
structure Emptied (v : Viewer) (outcome : Except Failure FrameSummary × Viewer) : Prop where
  /-- The error is the refusal of the device. -/
  error : ∃ e, outcome.1 = .error (.display e)
  live : outcome.2.live = []
  resident : outcome.2.display.device.resident = []
  current : outcome.2.display.device.ledger.current = 0
  bounds : outcome.2.bounds = .empty
  frames : outcome.2.frames = v.frames
  visible : outcome.2.visible = v.visible
  config : outcome.2.config = v.config

/-- A new frame is shown in place of the one before. -/
structure Swapped (v : Viewer) (staged : StagedFrame)
    (outcome : Except Failure FrameSummary × Viewer) : Prop where
  frames : outcome.2.frames = v.frames + 1
  /-- The payloads are live in the order in which they were staged. -/
  live : outcome.2.live = LiveMesh.ofPayloads v.display.device.nextHandle staged.payloads
  /-- Their handles had not been issued before. -/
  fresh : ∀ mesh ∈ outcome.2.live, mesh.handle ∉ issued v.display.calls
  /-- The meshes of the frame before are not there any more. -/
  gone : ∀ mesh ∈ v.live, outcome.2.display.device.get? mesh.handle = none
  bounds : outcome.2.bounds = staged.bounds
  visible : outcome.2.visible = v.visible
  config : outcome.2.config = v.config
  /-- The report counts what the device has. -/
  report : ∃ summary, outcome.1 = .ok summary ∧
    summary.frame = v.frames + 1 ∧
    summary.meshes = outcome.2.display.device.residentCount ∧
    summary.attached = outcome.2.display.device.attachedCount ∧
    summary.vertices = total (outcome.2.display.device.resident.map (·.2.vertexCount)) ∧
    summary.bytes = outcome.2.display.device.residentBytes ∧
    summary.bytes = outcome.2.display.device.ledger.current

variable {v : Viewer} {budget : Option Nat}

/-! ### The report of a frame -/

/-- The shown meshes of a viewer are the attached meshes of its device. -/
theorem Owns.length_shownMeshes (hv : v.Owns budget) (hm : v.Mirrors) :
    v.shownMeshes.length = v.display.device.attachedCount := by
  rw [shownMeshes, hv.live_eq, ← List.countP_eq_length_filter, List.countP_map,
    Device.attachedCount]
  refine List.countP_congr fun entry hmem => ?_
  rw [hm entry hmem]
  rfl

/-- The counts of a report are those of the device. -/
theorem Owns.summary_counts (hv : v.Owns budget) (hm : v.Mirrors) :
    v.summary.meshes = v.display.device.residentCount ∧
      v.summary.attached = v.display.device.attachedCount ∧
      v.summary.vertices = total (v.display.device.resident.map (·.2.vertexCount)) ∧
      v.summary.bytes = v.display.device.residentBytes ∧
      v.summary.bytes = v.display.device.ledger.current := by
  have hbytes : v.summary.bytes = v.display.device.residentBytes := hv.residentBytes_eq.symm
  refine ⟨hv.residentCount_eq.symm, hv.length_shownMeshes hm, ?_, hbytes, ?_⟩
  · rw [summary, hv.live_eq, List.map_map]
    rfl
  · rw [hbytes, hv.balanced.current_eq]

/-! ### The calls of a commit -/

/-- A withdrawn frame costs the calls of clearing, those of its uploads, and the disposal of each
mesh that had been accepted. -/
theorem calls_withdrawn (v : Viewer) (staged : StagedFrame) :
    (v.withdrawn staged).display.calls =
      (v.clear.uploadAll staged.payloads).state.display.calls ++
        (v.clear.uploadAll staged.payloads).state.live.map fun mesh => .dispose mesh.handle :=
  calls_clear _

/-- A committed frame costs the calls of clearing, those of its uploads, and an attachment of each
mesh on a layer that is shown. -/
theorem calls_committed (v : Viewer) (staged : StagedFrame) :
    (v.committed staged).display.calls =
      (v.clear.uploadAll staged.payloads).state.display.calls ++
        (v.clear.uploadAll staged.payloads).state.shownMeshes.map
          fun mesh => .setAttached mesh.handle true :=
  calls_attachShown _

/-- Among the calls of a commit there is a refused upload exactly when it ends in an error. -/
theorem exists_calls_commit (v : Viewer) (staged : StagedFrame) :
    ∃ made, (v.commit staged).2.display.calls = v.display.calls ++ made ∧
      ((∃ name, Call.upload name none ∈ made) ↔
        (v.clear.uploadAll staged.payloads).error?.isSome) := by
  obtain ⟨made, hcalls, hiff⟩ := v.clear.exists_calls_uploadAll staged.payloads
  rw [calls_clear, List.append_assoc] at hcalls
  cases h : (v.clear.uploadAll staged.payloads).error? with
  | some e =>
    rw [commit_of_refused h, calls_withdrawn, hcalls, List.append_assoc]
    rw [h] at hiff
    exact ⟨_, rfl, by simpa using hiff⟩
  | none =>
    rw [commit_of_accepted h, calls_committed, hcalls, List.append_assoc]
    rw [h] at hiff
    exact ⟨_, rfl, by simpa using hiff⟩

/-! ### The endings of a commit -/

/-- A frame that is withdrawn leaves the viewer empty, with the choices that had been made. -/
theorem Owns.emptied_withdrawn (hv : v.Owns budget) (staged : StagedFrame) (e : OutOfMemory) :
    Emptied v (.error (.display e), v.withdrawn staged) where
  error := ⟨e, rfl⟩
  live := rfl
  resident := by
    rw [hv.device_withdrawn]
    rfl
  current := by
    rw [hv.device_withdrawn]
    rfl
  bounds := rfl
  frames := frames_withdrawn v staged
  visible := visible_withdrawn v staged
  config := config_withdrawn v staged

/-- The handles of a committed frame are those from the next one on. -/
theorem Owns.handles_committed (hv : v.Owns budget) {staged : StagedFrame}
    (h : refusal? budget staged.payloads = none) :
    (v.committed staged).live.map (·.handle) =
      List.range' v.display.device.nextHandle staged.payloads.length := by
  rw [hv.live_committed h, LiveMesh.map_handle_ofPayloads]

/-- A frame within the budget takes the place of the frame before it. -/
theorem Owns.swapped_committed (hv : v.Owns budget) {staged : StagedFrame}
    (h : refusal? budget staged.payloads = none) :
    Swapped v staged (.ok (v.committed staged).summary, v.committed staged) where
  frames := rfl
  live := hv.live_committed h
  fresh := by
    intro mesh hmem hissued
    have hhandle : mesh.handle ∈ (v.committed staged).live.map (·.handle) :=
      List.mem_map_of_mem hmem
    rw [hv.handles_committed h, List.mem_range'_1] at hhandle
    rw [hv.transcript.issued_eq_range rfl, List.mem_range] at hissued
    exact absurd hissued (Nat.not_lt.mpr hhandle.1)
  gone := by
    intro mesh hmem
    -- the handles of the frame before are below all those issued now
    refine Device.get?_eq_none fun hhandle => ?_
    have hlt : mesh.handle < v.display.device.nextHandle := by
      refine hv.balanced.lt_next _ ?_
      rw [hv.handles_eq]
      exact List.mem_map_of_mem hmem
    rw [(hv.committed staged).handles_eq, hv.handles_committed h, List.mem_range'_1] at hhandle
    exact absurd hlt (Nat.not_lt.mpr hhandle.1)
  bounds := rfl
  visible := visible_committed v staged
  config := config_committed v staged
  report :=
    ⟨_, rfl, rfl, (hv.committed staged).summary_counts (mirrors_committed hv staged)⟩

/-- A commit swaps the frames, unless one of its uploads is refused. -/
theorem Owns.commit_endings (hv : v.Owns budget) (staged : StagedFrame) :
    ∃ made, (v.commit staged).2.display.calls = v.display.calls ++ made ∧
      ((∃ name, Call.upload name none ∈ made) → Emptied v (v.commit staged)) ∧
      ((¬∃ name, Call.upload name none ∈ made) → Swapped v staged (v.commit staged)) := by
  obtain ⟨made, hcalls, hiff⟩ := v.exists_calls_commit staged
  refine ⟨made, hcalls, fun hrefused => ?_, fun haccepted => ?_⟩
  · obtain ⟨e, he⟩ := Option.isSome_iff_exists.mp (hiff.mp hrefused)
    rw [commit_of_refused he]
    exact hv.emptied_withdrawn staged e
  · have hnone : (v.clear.uploadAll staged.payloads).error? = none := by
      rw [← Option.not_isSome_iff_eq_none]
      exact fun hsome => haccepted (hiff.mpr hsome)
    rw [commit_of_accepted hnone]
    exact hv.swapped_committed ((hv.error?_uploadAll_clear _).symm.trans hnone)

/-- A layout of a single cell. -/
def oneCell : Schedule.LatticeLayout := ⟨[⟨0, ⟨0, 0, 0⟩, "red", none, none⟩], []⟩

/-- A layout with a link between cells that are not there. -/
def looseLink : Schedule.LatticeLayout := ⟨[], [⟨0, 1, none⟩]⟩

/-- After any session, showing a subject ends in one of three ways.  When the subject cannot be
staged, its failure is reported and viewer and device are as before.  When one of the calls that
are made is a refused upload, nothing is shown.  Otherwise the staged frame is shown in place of
the one before. -/
theorem showSubject_endings (budget : Option Nat) (config : Config) (actions : List Action)
    (subject : Subject) :
    let v := (start (.empty budget) config).run actions
    let staged := subject.stage v.config .empty
    let outcome := v.showSubject subject
    (∀ failure, staged.error? = some failure → outcome = (.error failure, v)) ∧
      (staged.error? = none →
        ∃ made, outcome.2.display.calls = v.display.calls ++ made ∧
          ((∃ name, Call.upload name none ∈ made) → Emptied v outcome) ∧
          ((¬∃ name, Call.upload name none ∈ made) → Swapped v staged.state outcome)) := by
  intro v staged outcome
  have hv : v.Owns budget := owns_run_start budget config actions
  have houtcome : outcome = v.rebuild subject.stage := showSubject_eq_rebuild v subject
  refine ⟨fun failure hfailed => ?_, fun hstaged => ?_⟩
  · rw [houtcome]
    exact rebuild_of_failed hfailed
  · rw [houtcome, rebuild_of_staged hstaged]
    exact hv.commit_endings staged.state

/-- A loose link changes nothing, a cell that does not fit leaves nothing, and with room enough it
is shown. -/
theorem showSubject_endings_crowded :
    let v := (start (.empty (some 40)) .default).run crowdedSession
    let w := (start (.empty none) .default).run crowdedSession
    v.showSubject (.lattice looseLink) = (.error (.schedule (.unknownCell 0)), v) ∧
      Emptied v (v.showSubject (.lattice oneCell)) ∧
      Swapped w (stageLattice .default oneCell .empty).state
        (w.showSubject (.lattice oneCell)) := by
  have hcrowded := showSubject_endings (some 40) .default crowdedSession
  have hroomy := showSubject_endings none .default crowdedSession (.lattice oneCell)
  refine ⟨(hcrowded (.lattice looseLink)).1 _ rfl, ?_, ?_⟩
  · obtain ⟨made, hcalls, hrefused, -⟩ := (hcrowded (.lattice oneCell)).2 (by decide +kernel)
    have hmade : made = [.dispose 4, .dispose 5, .upload "lattice-red" none] := by
      refine List.append_cancel_left (hcalls.symm.trans ?_)
      decide +kernel
    exact hrefused ⟨"lattice-red", by simp [hmade]⟩
  · obtain ⟨made, hcalls, -, haccepted⟩ := hroomy.2 (by decide +kernel)
    have hmade : made = [.dispose 5, .dispose 6, .upload "lattice-red" (some 7),
        .setAttached 7 true] := by
      refine List.append_cancel_left (hcalls.symm.trans ?_)
      decide +kernel
    exact haccepted (by simp [hmade])

end Viewer

end LatticeScene.Display
