import LatticeScene.Proofs.Display.Uploads

/-!
# Attachment mirrors visibility

A viewer remembers for every layer whether it is shown, and a device remembers for every mesh
whether it is attached.  `Viewer.Mirrors` says that the second follows from the first.

Two operations of a viewer attach and detach meshes, and on a viewer that owns its meshes both do
the same to the device: they switch all meshes on chosen layers (`Device.switchLayers`).  That they
come to the same whether a layer is toggled before a frame is committed or after it is then a fact
about switching meshes that were not attached before (`switchLayers_toggle`).
-/

namespace LatticeScene.Display

open Staging

namespace Device

/-- Attach or detach all meshes on the chosen layers. -/
def switchLayers (d : Device) (chosen : Layer → Bool) (attached : Bool) : Device :=
  { d with
    resident := d.resident.map fun entry =>
      if chosen entry.2.layer then (entry.1, { entry.2 with attached }) else entry }

/-- No mesh is attached. -/
def Detached (d : Device) : Prop := ∀ entry ∈ d.resident, entry.2.attached = false

/-- Attaching or detaching several meshes changes exactly their entries. -/
theorem foldl_setAttached_eq (d : Device) (hs : List Handle) (attached : Bool) :
    hs.foldl (fun d handle => d.setAttached handle attached) d =
      { d with
        resident := d.resident.map fun entry =>
          if entry.1 ∈ hs then (entry.1, { entry.2 with attached }) else entry } := by
  induction hs generalizing d with
  | nil => simp
  | cons handle hs ih =>
    rw [List.foldl_cons, ih]
    simp only [setAttached, List.map_map, mk.injEq, and_self, and_true]
    refine List.map_congr_left fun entry _ => ?_
    simp only [Function.comp_apply, List.mem_cons]
    by_cases h : entry.1 = handle <;> by_cases h' : entry.1 ∈ hs <;> simp [h, h']

/-- Switching layers first makes no difference to what is left when all meshes are disposed of. -/
theorem emptied_switchLayers (d : Device) (chosen : Layer → Bool) (attached : Bool) :
    (d.switchLayers chosen attached).emptied = d.emptied := rfl

/-- A device that had no meshes attaches none of those that are uploaded to it. -/
theorem detached_acceptAll {d : Device} (hd : d.Detached) (ps : List Payload) :
    (d.acceptAll ps).Detached := by
  induction ps generalizing d with
  | nil => exact hd
  | cons p ps ih =>
    refine ih (d := d.accept p) fun entry hmem => ?_
    rcases List.mem_append.mp hmem with hmem | hmem
    · exact hd entry hmem
    · rw [List.mem_singleton.mp hmem]
      rfl

/-- An emptied device has no mesh that could be attached. -/
theorem detached_emptied (d : Device) : d.emptied.Detached :=
  fun _ hmem => absurd hmem List.not_mem_nil

/-- Attaching what is shown and then toggling a layer comes to attaching what is shown once the
layer has been toggled. -/
theorem switchLayers_toggle {d : Device} (hd : d.Detached) (shown : Layer → Bool) (layer : Layer)
    (visible : Bool) :
    (d.switchLayers shown true).switchLayers (· == layer) visible =
      d.switchLayers (fun l => if l = layer then visible else shown l) true := by
  simp only [switchLayers, List.map_map, mk.injEq, and_self, and_true]
  refine List.map_congr_left fun entry hmem => ?_
  have hself : { entry.2 with attached := false } = entry.2 := by rw [← hd entry hmem]
  simp only [Function.comp_apply]
  by_cases hlayer : entry.2.layer = layer
  · subst hlayer
    cases visible <;> cases hshown : shown entry.2.layer <;> simp [hself]
  · cases hshown : shown entry.2.layer <;> simp [hlayer]

end Device

/-- A report without the number of attached meshes. -/
def FrameSummary.forgetAttached (s : FrameSummary) : FrameSummary := { s with attached := 0 }

/-- The visibility that an action writes for a layer, if it writes one. -/
def Action.written? (layer : Layer) : Action → Option Bool
  | .setLayerVisible changed visible => if changed = layer then some visible else none
  | .setDrawOptions options => some (layer.visibleUnder options)
  | .rebuild _ | .commit _ | .abandon _ | .clear => none

namespace Viewer

variable {v : Viewer} {budget : Option Nat}

/-! ### Switching is by layer -/

/-- Switching the live meshes on some layers switches the meshes that are there on these layers. -/
theorem Owns.device_switch (hv : v.Owns budget) (chosen : Layer → Bool) (attached : Bool) :
    (v.switch (v.live.filter fun mesh => chosen mesh.layer) attached).display.device =
      v.display.device.switchLayers chosen attached := by
  simp only [Viewer.switch, RecordedDevice.device_foldl_setAttached, Device.foldl_setAttached_eq,
    Device.switchLayers, Device.mk.injEq, and_self, and_true]
  refine List.map_congr_left fun entry hentry => ?_
  -- handles are not shared, so an entry is switched on account of its own layer
  have hiff : entry.1 ∈ (v.live.filter fun mesh => chosen mesh.layer).map (·.handle) ↔
      chosen entry.2.layer = true := by
    rw [hv.live_eq]
    constructor
    · intro hmem
      obtain ⟨mesh, hmesh, hhandle⟩ := List.mem_map.mp hmem
      obtain ⟨hmesh, hchosen⟩ := List.mem_filter.mp hmesh
      obtain ⟨other, hother, rfl⟩ := List.mem_map.mp hmesh
      have hsame : other = entry :=
        List.inj_on_of_nodup_map hv.balanced.nodup hother hentry hhandle
      rwa [hsame] at hchosen
    · intro hchosen
      exact List.mem_map.mpr ⟨.ofEntry entry,
        List.mem_filter.mpr ⟨List.mem_map_of_mem hentry, hchosen⟩, rfl⟩
  simp only [hiff]

/-- Showing or hiding a layer switches exactly the meshes of that layer on the device. -/
theorem Owns.device_setLayerVisible (hv : v.Owns budget) (layer : Layer) (visible : Bool) :
    (v.setLayerVisible layer visible).display.device =
      v.display.device.switchLayers (· == layer) visible := by
  rw [setLayerVisible_eq]
  exact hv.device_switch (· == layer) visible

/-- Attaching what is shown switches on exactly the layers that are shown. -/
theorem Owns.device_attachShown (hv : v.Owns budget) :
    v.attachShown.display.device = v.display.device.switchLayers v.visible true := by
  rw [attachShown_eq]
  exact hv.device_switch v.visible true

/-! ### The mirror -/

/-- A mesh that is there is attached exactly when its layer is shown. -/
def Mirrors (v : Viewer) : Prop :=
  ∀ entry ∈ v.display.device.resident, entry.2.attached = v.visible entry.2.layer

/-- Without meshes there is nothing to mirror. -/
theorem mirrors_of_resident_eq_nil (h : v.display.device.resident = []) : v.Mirrors := by
  intro entry hmem
  rw [h] at hmem
  exact absurd hmem List.not_mem_nil

/-- After all shown layers of a detached device have been attached, attachment is visibility. -/
theorem attached_switchLayers {d : Device} (hd : d.Detached) (shown : Layer → Bool) :
    ∀ entry ∈ (d.switchLayers shown true).resident, entry.2.attached = shown entry.2.layer := by
  intro entry hmem
  obtain ⟨before, hbefore, rfl⟩ := List.mem_map.mp hmem
  cases hshown : shown before.2.layer with
  | true => simp [hshown]
  | false => simpa [hshown] using hd before hbefore

/-- Showing or hiding a layer keeps the mirror. -/
theorem Mirrors.setLayerVisible (hm : v.Mirrors) (hv : v.Owns budget) (layer : Layer)
    (visible : Bool) : (v.setLayerVisible layer visible).Mirrors := by
  intro entry hmem
  rw [hv.device_setLayerVisible] at hmem
  obtain ⟨before, hbefore, rfl⟩ := List.mem_map.mp hmem
  rw [visible_setLayerVisible]
  by_cases hlayer : before.2.layer = layer
  · simp [hlayer]
  · simpa [hlayer] using hm before hbefore

/-- Choosing what to draw keeps the mirror. -/
theorem Mirrors.setDrawOptions (hm : v.Mirrors) (hv : v.Owns budget) (options : DrawOptions) :
    (v.setDrawOptions options).Mirrors := by
  have hfold : (v.setDrawOptions options).Owns budget ∧ (v.setDrawOptions options).Mirrors := by
    refine List.foldlRecOn (motive := fun w : Viewer => w.Owns budget ∧ w.Mirrors) _ _ ?_ ?_
    · exact ⟨⟨hv.transcript, hv.live_eq⟩, hm⟩
    · exact fun w hw layer _ =>
        ⟨hw.1.setLayerVisible layer _, hw.2.setLayerVisible hw.1 layer _⟩
  exact hfold.2

/-- The device of a committed frame: what fits of it, attached where it is shown. -/
theorem Owns.device_committed (hv : v.Owns budget) (staged : StagedFrame) :
    (v.committed staged).display.device =
      (v.display.device.emptied.acceptAll (fitting budget staged.payloads)).switchLayers
        v.visible true := by
  have hdevice := (hv.clear.uploadAll staged.payloads).device_attachShown
  rw [hv.device_uploadAll_clear, visible_uploadAll] at hdevice
  exact hdevice

/-- The device after a withdrawn frame has taken in what fits into the budget, and has disposed of
it again. -/
theorem Owns.device_withdrawn (hv : v.Owns budget) (staged : StagedFrame) :
    (v.withdrawn staged).display.device =
      (v.display.device.emptied.acceptAll (fitting budget staged.payloads)).emptied := by
  rw [Viewer.withdrawn, (hv.clear.uploadAll staged.payloads).device_clear,
    hv.device_uploadAll_clear]

/-- After a committed frame every mesh is attached exactly when its layer is shown. -/
theorem mirrors_committed (hv : v.Owns budget) (staged : StagedFrame) :
    (v.committed staged).Mirrors := by
  intro entry hmem
  rw [hv.device_committed] at hmem
  rw [visible_committed]
  exact attached_switchLayers (Device.detached_acceptAll (Device.detached_emptied _) _) _ entry hmem

/-- After a withdrawn frame there is no mesh left. -/
theorem mirrors_withdrawn (hv : v.Owns budget) (staged : StagedFrame) :
    (v.withdrawn staged).Mirrors := by
  refine mirrors_of_resident_eq_nil ?_
  rw [hv.device_withdrawn]
  rfl

/-- After a commit the mirror holds, however the commit ends and whatever was attached before. -/
theorem mirrors_commit (hv : v.Owns budget) (staged : StagedFrame) :
    (v.commit staged).2.Mirrors := by
  cases h : (v.clear.uploadAll staged.payloads).error? with
  | some e =>
    rw [commit_of_refused h]
    exact mirrors_withdrawn hv staged
  | none =>
    rw [commit_of_accepted h]
    exact mirrors_committed hv staged

/-- Rebuilding keeps the mirror, which is not touched unless there is a frame to commit. -/
theorem Mirrors.rebuild (hm : v.Mirrors) (hv : v.Owns budget)
    (build : Config → StagedFrame → StagingAttempt) : (v.rebuild build).2.Mirrors := by
  cases h : (build v.config .empty).error? with
  | some failure =>
    rw [rebuild_of_failed h]
    exact hm
  | none =>
    rw [rebuild_of_staged h]
    exact mirrors_commit hv _

/-- Every action keeps the mirror. -/
theorem Mirrors.perform (hm : v.Mirrors) (hv : v.Owns budget) (action : Action) :
    (v.perform action).Mirrors := by
  cases action with
  | rebuild subject =>
    rw [Viewer.perform, showSubject_eq_rebuild]
    exact hm.rebuild hv subject.stage
  | commit staged => exact mirrors_commit hv staged
  | abandon staged => exact hm
  | clear =>
    refine mirrors_of_resident_eq_nil ?_
    rw [Viewer.perform, hv.device_clear]
    rfl
  | setLayerVisible layer visible => exact hm.setLayerVisible hv layer visible
  | setDrawOptions options => exact hm.setDrawOptions hv options

/-- Every session keeps the mirror. -/
theorem Mirrors.run (hm : v.Mirrors) (hv : v.Owns budget) (actions : List Action) :
    (v.run actions).Mirrors := by
  induction actions generalizing v with
  | nil => exact hm
  | cons action actions ih => exact ih (hm.perform hv action) (hv.perform action)

/-- Attachment mirrors visibility after any session. -/
theorem mirrors_run_start (budget : Option Nat) (config : Config) (actions : List Action) :
    ((start (.empty budget) config).run actions).Mirrors :=
  (mirrors_of_resident_eq_nil rfl).run (owns_start budget config) actions

/-! ### What was written last -/

/-- Draw options decide on every layer. -/
theorem visible_setDrawOptions (v : Viewer) (options : DrawOptions) (layer : Layer) :
    (v.setDrawOptions options).visible layer = layer.visibleUnder options := by
  have hfold : ∀ (layers : List Layer) (w : Viewer),
      (layer ∈ layers ∨ w.visible layer = layer.visibleUnder options) →
        (layers.foldl (fun v layer => v.setLayerVisible layer (layer.visibleUnder options))
          w).visible layer = layer.visibleUnder options := by
    intro layers
    induction layers with
    | nil => exact fun w h => h.resolve_left List.not_mem_nil
    | cons first layers ih =>
      intro w h
      refine ih _ ?_
      by_cases hfirst : layer = first
      · refine Or.inr ?_
        simp [hfirst]
      · rcases h with hmem | hw
        · exact Or.inl (List.mem_of_ne_of_mem hfirst hmem)
        · refine Or.inr ?_
          simp [hfirst, hw]
  exact hfold Layer.all _ (Or.inl layer.mem_all)

/-- A commit does not change which layers are shown. -/
@[simp] theorem visible_commit (v : Viewer) (staged : StagedFrame) :
    (v.commit staged).2.visible = v.visible := by
  cases h : (v.clear.uploadAll staged.payloads).error? with
  | some e => rw [commit_of_refused h, visible_withdrawn]
  | none => rw [commit_of_accepted h, visible_committed]

/-- Rebuilding does not change which layers are shown. -/
@[simp] theorem visible_rebuild (v : Viewer) (build : Config → StagedFrame → StagingAttempt) :
    (v.rebuild build).2.visible = v.visible := by
  cases h : (build v.config .empty).error? with
  | some failure => rw [rebuild_of_failed h]
  | none => rw [rebuild_of_staged h, visible_commit]

/-- An action leaves the visibility of a layer as it was, unless it writes it. -/
theorem visible_perform (v : Viewer) (action : Action) (layer : Layer) :
    (v.perform action).visible layer = (action.written? layer).getD (v.visible layer) := by
  cases action with
  | rebuild subject => rw [perform, showSubject_eq_rebuild, visible_rebuild]; rfl
  | commit staged => rw [perform, visible_commit]; rfl
  | abandon staged => rfl
  | clear => rfl
  | setLayerVisible changed visible =>
    by_cases h : layer = changed
    · simp [perform, Action.written?, h]
    · simp [perform, Action.written?, h, Ne.symm h]
  | setDrawOptions options => exact visible_setDrawOptions v options layer

/-- After a session, every layer has the visibility that was written last. -/
theorem visible_run (v : Viewer) (actions : List Action) (layer : Layer) :
    (v.run actions).visible layer =
      (actions.filterMap (Action.written? layer)).getLast?.getD (v.visible layer) := by
  induction actions generalizing v with
  | nil => rfl
  | cons action actions ih =>
    rw [run_cons, ih, visible_perform, List.filterMap_cons]
    cases action.written? layer with
    | none => rfl
    | some visible => simp [List.getLast?_cons]

/-! ### Toggling before and after a frame -/

/-- A viewer without the record of the calls to its device. -/
def forgetCalls (v : Viewer) : Viewer := { v with display := .ofDevice v.display.device }

/-- Two viewers that agree in everything but the calls are the same when the calls are forgotten. -/
theorem forgetCalls_congr {v w : Viewer} (device : v.display.device = w.display.device)
    (live : v.live = w.live) (bounds : v.bounds = w.bounds) (visible : v.visible = w.visible)
    (config : v.config = w.config) (frames : v.frames = w.frames) :
    v.forgetCalls = w.forgetCalls := by
  simp only [forgetCalls, device, live, bounds, visible, config, frames]

/-- Toggling a layer does not change what is left of the device when it is cleared. -/
theorem Owns.emptied_setLayerVisible (hv : v.Owns budget) (layer : Layer) (visible : Bool) :
    (v.setLayerVisible layer visible).display.device.emptied = v.display.device.emptied := by
  rw [hv.device_setLayerVisible, Device.emptied_switchLayers]

/-- A refused frame leaves nothing that could be toggled. -/
theorem Owns.withdrawn_setLayerVisible (hv : v.Owns budget) (staged : StagedFrame) (layer : Layer)
    (visible : Bool) :
    ((v.setLayerVisible layer visible).withdrawn staged).forgetCalls =
      ((v.withdrawn staged).setLayerVisible layer visible).forgetCalls := by
  refine forgetCalls_congr ?_ rfl rfl ?_ ?_ ?_
  · rw [(hv.withdrawn staged).device_setLayerVisible, hv.device_withdrawn,
      (hv.setLayerVisible layer visible).device_withdrawn, hv.emptied_setLayerVisible]
    rfl
  · simp only [visible_withdrawn, visible_setLayerVisible]
  · simp only [config_withdrawn, config_setLayerVisible]
  · simp only [frames_withdrawn, frames_setLayerVisible]

/-- Which layers are shown makes no difference to the meshes that a committed frame brings. -/
theorem Owns.live_committed_setLayerVisible (hv : v.Owns budget) {staged : StagedFrame}
    (h : refusal? budget staged.payloads = none) (layer : Layer) (visible : Bool) :
    ((v.setLayerVisible layer visible).committed staged).live = (v.committed staged).live := by
  rw [(hv.setLayerVisible layer visible).live_committed h, hv.live_committed h,
    hv.device_setLayerVisible]
  rfl

/-- A layer is toggled before a frame is uploaded or after it, with the same result. -/
theorem Owns.committed_setLayerVisible (hv : v.Owns budget) {staged : StagedFrame}
    (h : refusal? budget staged.payloads = none) (layer : Layer) (visible : Bool) :
    ((v.setLayerVisible layer visible).committed staged).forgetCalls =
      ((v.committed staged).setLayerVisible layer visible).forgetCalls := by
  refine forgetCalls_congr ?_ ?_ rfl ?_ ?_ rfl
  · rw [(hv.committed staged).device_setLayerVisible, hv.device_committed,
      (hv.setLayerVisible layer visible).device_committed, hv.emptied_setLayerVisible,
      Device.switchLayers_toggle (Device.detached_acceptAll (Device.detached_emptied _) _)]
    rfl
  · exact hv.live_committed_setLayerVisible h layer visible
  · simp only [visible_committed, visible_setLayerVisible]
  · simp only [config_committed, config_setLayerVisible]

/-- Toggling a layer before a commit or after it ends in the same viewer and device, and the two
reports differ at most in the number of attached meshes. -/
theorem Owns.commit_setLayerVisible (hv : v.Owns budget) (staged : StagedFrame) (layer : Layer)
    (visible : Bool) :
    ((v.setLayerVisible layer visible).commit staged).2.forgetCalls =
        ((v.commit staged).2.setLayerVisible layer visible).forgetCalls ∧
      ((v.setLayerVisible layer visible).commit staged).1.map FrameSummary.forgetAttached =
        (v.commit staged).1.map FrameSummary.forgetAttached := by
  have htoggled : ((v.setLayerVisible layer visible).clear.uploadAll staged.payloads).error? =
      refusal? budget staged.payloads :=
    (hv.setLayerVisible layer visible).error?_uploadAll_clear staged.payloads
  have hplain : (v.clear.uploadAll staged.payloads).error? = refusal? budget staged.payloads :=
    hv.error?_uploadAll_clear staged.payloads
  -- both commits begin by clearing, and so they end alike
  cases h : refusal? budget staged.payloads with
  | some e =>
    rw [h] at htoggled hplain
    rw [commit_of_refused htoggled, commit_of_refused hplain]
    exact ⟨hv.withdrawn_setLayerVisible staged layer visible, rfl⟩
  | none =>
    rw [h] at htoggled hplain
    rw [commit_of_accepted htoggled, commit_of_accepted hplain]
    refine ⟨hv.committed_setLayerVisible h layer visible, ?_⟩
    have hlive := hv.live_committed_setLayerVisible h layer visible
    have hconfig : ((v.setLayerVisible layer visible).committed staged).config =
        (v.committed staged).config := by
      rw [config_committed, config_committed, config_setLayerVisible]
    simp only [Except.map, FrameSummary.forgetAttached, summary, hlive, hconfig]
    rfl

/-- The same for every rebuild, also for one that fails while it is staged. -/
theorem Owns.rebuild_setLayerVisible (hv : v.Owns budget)
    (build : Config → StagedFrame → StagingAttempt) (layer : Layer) (visible : Bool) :
    ((v.setLayerVisible layer visible).rebuild build).2.forgetCalls =
        ((v.rebuild build).2.setLayerVisible layer visible).forgetCalls ∧
      ((v.setLayerVisible layer visible).rebuild build).1.map FrameSummary.forgetAttached =
        (v.rebuild build).1.map FrameSummary.forgetAttached := by
  have hconfig : (v.setLayerVisible layer visible).config = v.config := rfl
  cases h : (build v.config .empty).error? with
  | some failure =>
    rw [rebuild_of_failed h, rebuild_of_failed (hconfig ▸ h)]
    exact ⟨rfl, rfl⟩
  | none =>
    rw [rebuild_of_staged h, rebuild_of_staged (hconfig ▸ h), hconfig]
    exact hv.commit_setLayerVisible _ layer visible

/-- After any session, a mesh that is there is attached exactly when its layer is shown, and a
layer is shown as the latest action that writes its visibility says, or else as the first draw
options say.  A layer can be toggled before a rebuild or right after it: both end in the same viewer
and device, and the reports differ at most in the number of attached meshes. -/
theorem run_attachment_mirrors_visibility (budget : Option Nat) (config : Config)
    (actions : List Action) :
    let v := (start (.empty budget) config).run actions
    (∀ handle mesh, v.display.device.get? handle = some mesh →
        mesh.attached = v.visible mesh.layer) ∧
      (∀ layer, v.visible layer =
        (actions.filterMap (Action.written? layer)).getLast?.getD
          (layer.visibleUnder config.draw)) ∧
      (∀ layer visible subject,
        ((v.setLayerVisible layer visible).showSubject subject).2.forgetCalls =
            ((v.showSubject subject).2.setLayerVisible layer visible).forgetCalls ∧
          ((v.setLayerVisible layer visible).showSubject subject).1.map
              FrameSummary.forgetAttached =
            (v.showSubject subject).1.map FrameSummary.forgetAttached) ∧
      (∀ layer visible staged,
        ((v.setLayerVisible layer visible).commit staged).2.forgetCalls =
            ((v.commit staged).2.setLayerVisible layer visible).forgetCalls ∧
          ((v.setLayerVisible layer visible).commit staged).1.map FrameSummary.forgetAttached =
            (v.commit staged).1.map FrameSummary.forgetAttached) := by
  intro v
  have hv : v.Owns budget := owns_run_start budget config actions
  refine ⟨?_, ?_, ?_, ?_⟩
  · intro handle mesh hget
    exact mirrors_run_start budget config actions _ (Device.mem_resident_of_get? hget)
  · intro layer
    exact visible_run _ actions layer
  · intro layer visible subject
    simp only [showSubject_eq_rebuild]
    exact hv.rebuild_setLayerVisible subject.stage layer visible
  · intro layer visible staged
    exact hv.commit_setLayerVisible staged layer visible

/-- A layer that was hidden while a refused frame had left it empty stays hidden in the next. -/
theorem run_attachment_mirrors_visibility_crowded :
    let v := (start (.empty (some 40)) .default).run crowdedSession
    (∃ mesh, v.display.device.get? 4 = some mesh ∧ mesh.attached = false) ∧
      ∃ mesh, v.display.device.get? 5 = some mesh ∧ mesh.attached = true := by
  obtain ⟨hattached, -⟩ := run_attachment_mirrors_visibility (some 40) .default crowdedSession
  exact ⟨⟨_, rfl, hattached 4 _ rfl⟩, ⟨_, rfl, hattached 5 _ rfl⟩⟩

end Viewer

end LatticeScene.Display
