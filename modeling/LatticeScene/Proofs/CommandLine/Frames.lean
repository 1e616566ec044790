import LatticeScene.CommandLine.Run
import LatticeScene.Proofs.Display.Endings
import LatticeScene.Proofs.Display.Independence

/-!
# Every file is reported as if it were alone

The files of a command are shown by one viewer, one after the other.  Since a frame does not depend
on the frames before it, showing several files comes to showing each of them alone (`showAlone`)
and numbering the reports, up to the first file that fails.

One file at a time this is `showFiles_cons_of_ok` and `showFiles_cons_of_error`, for every viewer
that is like a new one.  By induction it follows for a list of files that all succeed
(`showFiles_of_ok`) and for one with a first that fails (`showFiles_of_error`), and every list of
files is of one of these kinds (`all_ok_or_first_error`).
-/

namespace LatticeScene.CommandLine

open Json Display Staging

/-! ### Reading and showing -/

/-- What a text describes, as the kind of its frame says. -/
def readSubject? (kind : FrameKind) (text : String) : Option Subject := do
  let tree ← Tree.read? text
  match kind with
  | .defects => return .defects (← Schedule.DefectFrame.ofTree? tree)
  | .plumbing => return .plumbing (← Schedule.PlumbingSchedule.ofTree? tree)
  | .lattice => return .lattice (← Schedule.LatticeLayout.ofTree? tree)

/-- The subject that a file describes. -/
def readSubject (files : Files) (kind : FrameKind) (name : String) : Except Chain Subject := do
  let text ← readFile files "reading " name
  match readSubject? kind text with
  | some subject => .ok subject
  | none => .error [.malformed]

/-- What becomes of a file whose frame has been shown, or could not be. -/
def reportOf (name : String) (outcome : Except Failure FrameSummary × Viewer) :
    Except Chain (FrameReport × Viewer) :=
  match outcome.1 with
  | .error failure =>
    .error [.because ("building frame from " ++ name), .because failure.message]
  | .ok summary => .ok (⟨name, summary⟩, outcome.2)

/-- A text is read before the viewer is asked to show anything. -/
theorem showText?_eq (kind : FrameKind) (v : Viewer) (text : String) :
    showText? kind v text = (readSubject? kind text).map v.showSubject := by
  unfold showText? readSubject?
  cases Tree.read? text with
  | none => rfl
  | some tree =>
    cases kind with
    | defects => cases h : Schedule.DefectFrame.ofTree? tree <;> simp [h, Viewer.showSubject]
    | plumbing => cases h : Schedule.PlumbingSchedule.ofTree? tree <;> simp [h, Viewer.showSubject]
    | lattice => cases h : Schedule.LatticeLayout.ofTree? tree <;> simp [h, Viewer.showSubject]

/-- A file is read first, and what it describes is shown. -/
theorem showFile_eq (files : Files) (kind : FrameKind) (v : Viewer) (name : String) :
    showFile files kind v name =
      (readSubject files kind name).bind fun subject => reportOf name (v.showSubject subject) := by
  unfold showFile readSubject
  cases readFile files "reading " name with
  | error causes => rfl
  | ok text =>
    simp only [bind, Except.bind, showText?_eq]
    cases readSubject? kind text with
    | none => rfl
    | some subject =>
      simp only [Option.map_some, reportOf]
      rcases v.showSubject subject with ⟨failure | summary, u⟩ <;> rfl

/-- A file that has been shown is reported under its own name, and its subject has been shown. -/
theorem exists_subject_of_showFile {files : Files} {kind : FrameKind} {v u : Viewer}
    {name : String} {report : FrameReport} (h : showFile files kind v name = .ok (report, u)) :
    report.file = name ∧ ∃ subject, (v.showSubject subject).1 = .ok report.summary ∧
      (v.showSubject subject).2 = u := by
  rw [showFile_eq] at h
  cases hread : readSubject files kind name with
  | error causes =>
    rw [hread] at h
    cases h
  | ok subject =>
    simp only [hread, Except.bind, reportOf] at h
    cases hshown : (v.showSubject subject).1 with
    | error failure =>
      rw [hshown] at h
      cases h
    | ok summary =>
      rw [hshown] at h
      cases h
      exact ⟨rfl, subject, hshown, rfl⟩

/-! ### Numbering -/

/-- A report under another frame number. -/
def FrameReport.renumber (number : Nat) (report : FrameReport) : FrameReport :=
  { report with summary := report.summary.renumber number }

/-- Number reports from `first` on. -/
def FrameReport.number (first : Nat) (reports : List FrameReport) : List FrameReport :=
  (reports.zipIdx first).map fun numbered => numbered.1.renumber numbered.2

/-- The first report gets the first number, and those after it are numbered from the next one on. -/
theorem FrameReport.number_cons (first : Nat) (report : FrameReport) (reports : List FrameReport) :
    number first (report :: reports) = report.renumber first :: number (first + 1) reports := by
  rw [number, List.zipIdx_cons, List.map_cons, number]

/-- Numbering adds no report and leaves none out. -/
theorem FrameReport.length_number (first : Nat) (reports : List FrameReport) :
    (number first reports).length = reports.length := by
  rw [number, List.length_map, List.length_zipIdx]

/-- The report in a place gets the number of that place, counted from the first one. -/
theorem FrameReport.getElem?_number (first : Nat) (reports : List FrameReport) (i : Nat) :
    (number first reports)[i]? = reports[i]?.map (renumber (first + i)) := by
  rw [number, List.getElem?_map, List.getElem?_zipIdx, Option.map_map]
  rfl

/-! ### One file -/

/-- The viewer with which the program begins. -/
def newViewer (config : Config) : Viewer := .start (.empty none) config

/-- The report of a file that is shown by a new viewer. -/
def showAlone (files : Files) (kind : FrameKind) (config : Config) (name : String) :
    Except Chain FrameReport :=
  (showFile files kind (newViewer config) name).map (·.1)

/-- The viewer with which the program begins is like itself. -/
theorem alike_newViewer (config : Config) :
    (newViewer config).Alike (newViewer config) none :=
  ⟨Viewer.owns_start none config, Viewer.owns_start none config, rfl, rfl⟩

section

variable {files : Files} {kind : FrameKind} {config : Config} {v : Viewer} {name : String}

/-- A file is reported under its own name. -/
theorem file_of_showAlone {report : FrameReport}
    (h : showAlone files kind config name = .ok report) : report.file = name := by
  rw [showAlone] at h
  cases hfile : showFile files kind (newViewer config) name with
  | error causes =>
    rw [hfile] at h
    cases h
  | ok shown =>
    rw [hfile] at h
    cases h
    exact (exists_subject_of_showFile hfile).1

/-- A viewer that is like a new one reports a file as if it were alone, but as its next frame. -/
theorem map_fst_showFile (hv : v.Alike (newViewer config) none) (files : Files) (kind : FrameKind)
    (name : String) :
    (showFile files kind v name).map (·.1) =
      (showAlone files kind config name).map (FrameReport.renumber (v.frames + 1)) := by
  rw [showAlone, showFile_eq, showFile_eq]
  cases readSubject files kind name with
  | error causes => rfl
  | ok subject =>
    simp only [Except.bind, reportOf, Viewer.showSubject_eq_rebuild, hv.rebuild_fst]
    cases ((newViewer config).rebuild subject.stage).1 <;> rfl

/-- A viewer that has shown a file is still like a new one, and counts one frame more. -/
theorem alike_of_showFile (hv : v.Alike (newViewer config) none) {report : FrameReport}
    {u : Viewer} (h : showFile files kind v name = .ok (report, u)) :
    u.Alike (newViewer config) none ∧ u.frames = v.frames + 1 := by
  obtain ⟨-, subject, hshown, rfl⟩ := exists_subject_of_showFile h
  rw [Viewer.showSubject_eq_rebuild] at hshown ⊢
  exact ⟨hv.rebuild_left subject.stage, Viewer.frames_rebuild_of_ok hshown⟩

/-- A single file is reported as it is alone. -/
theorem showFrames_singleton (files : Files) (kind : FrameKind) (config : Config) (name : String) :
    showFrames files kind config [name] = (showAlone files kind config name).map ([·]) := by
  unfold showFrames showAlone newViewer
  simp only [showFiles]
  cases showFile files kind (.start (.empty none) config) name <;> rfl

/-! ### Several files -/

/-- A file that fails alone ends the whole series, for the same causes. -/
theorem showFiles_cons_of_error (hv : v.Alike (newViewer config) none) {causes : Chain}
    (h : showAlone files kind config name = .error causes) (names : List String) :
    showFiles files kind v (name :: names) = .error causes := by
  have hfst := map_fst_showFile hv files kind name
  rw [h] at hfst
  rw [showFiles]
  cases hfile : showFile files kind v name with
  | error causes' =>
    rw [hfile] at hfst
    cases hfst
    rfl
  | ok shown =>
    rw [hfile] at hfst
    cases hfst

/-- A file that succeeds alone is reported in front of the others, which are shown by a viewer that
is still like a new one. -/
theorem showFiles_cons_of_ok (hv : v.Alike (newViewer config) none) {report : FrameReport}
    (h : showAlone files kind config name = .ok report) (names : List String) :
    ∃ u : Viewer, u.Alike (newViewer config) none ∧ u.frames = v.frames + 1 ∧
      showFiles files kind v (name :: names) =
        (showFiles files kind u names).map (report.renumber (v.frames + 1) :: ·) := by
  have hfst := map_fst_showFile hv files kind name
  rw [h] at hfst
  cases hfile : showFile files kind v name with
  | error causes =>
    rw [hfile] at hfst
    cases hfst
  | ok shown =>
    obtain ⟨first, u⟩ := shown
    obtain ⟨hu, hframes⟩ := alike_of_showFile hv hfile
    rw [hfile] at hfst
    cases hfst
    refine ⟨u, hu, hframes, ?_⟩
    rw [showFiles, hfile]
    simp only [bind, Except.bind]
    cases showFiles files kind u names <;> rfl

/-- Files that succeed alone are all reported, numbered in order. -/
theorem showFiles_of_ok (hv : v.Alike (newViewer config) none) {names : List String}
    {reports : List FrameReport}
    (h : List.Forall₂ (fun name report => showAlone files kind config name = .ok report)
      names reports) :
    showFiles files kind v names = .ok (FrameReport.number (v.frames + 1) reports) := by
  induction h generalizing v with
  | nil => rfl
  | cons hfirst _ ih =>
    obtain ⟨u, hu, hframes, hcons⟩ := showFiles_cons_of_ok hv hfirst _
    rw [hcons, ih hu, hframes, FrameReport.number_cons]
    rfl

/-- The first file that fails alone ends the series. -/
theorem showFiles_of_error (hv : v.Alike (newViewer config) none) {before : List String}
    {causes : Chain} (hbefore : ∀ earlier ∈ before, ∃ report,
      showAlone files kind config earlier = .ok report)
    (h : showAlone files kind config name = .error causes) (after : List String) :
    showFiles files kind v (before ++ name :: after) = .error causes := by
  induction before generalizing v with
  | nil => exact showFiles_cons_of_error hv h after
  | cons first before ih =>
    obtain ⟨report, hfirst⟩ := hbefore first List.mem_cons_self
    obtain ⟨u, hu, -, hcons⟩ := showFiles_cons_of_ok hv hfirst (before ++ name :: after)
    rw [List.cons_append, hcons, ih hu fun earlier hmem => hbefore earlier
      (List.mem_cons_of_mem first hmem)]
    rfl

/-- Either all files succeed alone, or there is a first one that fails. -/
theorem all_ok_or_first_error (files : Files) (kind : FrameKind) (config : Config)
    (names : List String) :
    (∃ reports, List.Forall₂ (fun name report => showAlone files kind config name = .ok report)
        names reports) ∨
      ∃ before name after causes, names = before ++ name :: after ∧
        (∀ earlier ∈ before, ∃ report, showAlone files kind config earlier = .ok report) ∧
        showAlone files kind config name = .error causes := by
  induction names with
  | nil => exact Or.inl ⟨[], .nil⟩
  | cons first names ih =>
    cases hfirst : showAlone files kind config first with
    | error causes =>
      exact Or.inr ⟨[], first, names, causes, rfl, fun _ hmem => absurd hmem List.not_mem_nil,
        hfirst⟩
    | ok report =>
      rcases ih with ⟨reports, hreports⟩ | ⟨before, name, after, causes, rfl, hbefore, hname⟩
      · exact Or.inl ⟨report :: reports, .cons hfirst hreports⟩
      · refine Or.inr ⟨first :: before, name, after, causes, rfl, ?_, hname⟩
        intro earlier hmem
        rcases List.mem_cons.mp hmem with rfl | hmem
        · exact ⟨report, hfirst⟩
        · exact hbefore earlier hmem

/-- A file gives one report exactly when it succeeds alone. -/
theorem showFrames_singleton_eq_ok {report : FrameReport} :
    showFrames files kind config [name] = .ok [report] ↔
      showAlone files kind config name = .ok report := by
  rw [showFrames_singleton]
  cases showAlone files kind config name <;> simp [Except.map]

/-- Showing one file fails as showing it alone does, for the same causes. -/
theorem showFrames_singleton_eq_error {causes : Chain} :
    showFrames files kind config [name] = .error causes ↔
      showAlone files kind config name = .error causes := by
  rw [showFrames_singleton]
  cases showAlone files kind config name <;> simp [Except.map]

/-- Showing files ends with a numbered report of each of them, or with the failure of the first
that fails alone. -/
theorem showFrames_endings (files : Files) (kind : FrameKind) (config : Config)
    (names : List String) :
    (∃ reports, List.Forall₂ (fun name report => showAlone files kind config name = .ok report)
        names reports ∧
        showFrames files kind config names = .ok (FrameReport.number 1 reports)) ∨
      ∃ before name after causes, names = before ++ name :: after ∧
        (∀ earlier ∈ before, ∃ report, showAlone files kind config earlier = .ok report) ∧
        showAlone files kind config name = .error causes ∧
        showFrames files kind config names = .error causes := by
  have hv := alike_newViewer config
  rcases all_ok_or_first_error files kind config names with
    ⟨reports, hreports⟩ | ⟨before, name, after, causes, rfl, hbefore, hname⟩
  · exact Or.inl ⟨reports, hreports, showFiles_of_ok hv hreports⟩
  · exact Or.inr ⟨before, name, after, causes, rfl, hbefore, hname,
      showFiles_of_error hv hbefore hname after⟩

end

/-- Entries of related lists at the same place are related. -/
theorem exists_getElem?_of_forall₂ {α β : Type} {R : α → β → Prop} {xs : List α} {ys : List β}
    (h : List.Forall₂ R xs ys) {i : Nat} {x : α} (hx : xs[i]? = some x) :
    ∃ y, ys[i]? = some y ∧ R x y := by
  obtain ⟨hi, rfl⟩ := List.getElem?_eq_some_iff.mp hx
  have hi' : i < ys.length := h.length_eq ▸ hi
  exact ⟨ys[i], List.getElem?_eq_getElem hi', h.get hi hi'⟩

/-- Files are all reported exactly when each of them succeeds alone. -/
theorem exists_showFrames_eq_ok_iff (files : Files) (kind : FrameKind) (config : Config)
    (names : List String) :
    (∃ reports, showFrames files kind config names = .ok reports) ↔
      ∀ name ∈ names, ∃ report, showFrames files kind config [name] = .ok [report] := by
  simp only [showFrames_singleton_eq_ok]
  rcases showFrames_endings files kind config names with
    ⟨reports, hreports, hshown⟩ | ⟨before, name, after, causes, rfl, -, hname, hshown⟩
  · refine ⟨fun _ name hmem => ?_, fun _ => ⟨_, hshown⟩⟩
    obtain ⟨i, hi⟩ := List.mem_iff_getElem?.mp hmem
    obtain ⟨report, -, hreport⟩ := exists_getElem?_of_forall₂ hreports hi
    exact ⟨report, hreport⟩
  · constructor
    · rintro ⟨reports, hok⟩
      rw [hshown] at hok
      cases hok
    · intro hall
      obtain ⟨report, hreport⟩ := hall name (List.mem_append_right before List.mem_cons_self)
      rw [hname] at hreport
      cases hreport

/-- Reports are those of the files alone, in order and numbered from one. -/
theorem reports_of_showFrames_eq_ok {files : Files} {kind : FrameKind} {config : Config}
    {names : List String} {reports : List FrameReport}
    (h : showFrames files kind config names = .ok reports) :
    reports.length = names.length ∧
      ∀ (i : Nat) (name : String), names[i]? = some name → ∃ summary,
        showFrames files kind config [name] = .ok [⟨name, summary⟩] ∧
          reports[i]? = some ⟨name, summary.renumber (i + 1)⟩ := by
  rcases showFrames_endings files kind config names with
    ⟨alone, halone, hshown⟩ | ⟨before, name, after, causes, -, -, -, hshown⟩
  · rw [hshown] at h
    cases h
    refine ⟨(FrameReport.length_number 1 alone).trans halone.length_eq.symm, ?_⟩
    intro i name hi
    obtain ⟨⟨file, summary⟩, hreport, hname⟩ := exists_getElem?_of_forall₂ halone hi
    obtain rfl : file = name := file_of_showAlone hname
    refine ⟨summary, showFrames_singleton_eq_ok.mpr hname, ?_⟩
    rw [FrameReport.getElem?_number, hreport, Nat.add_comm]
    rfl
  · rw [hshown] at h
    cases h

/-- Files fail as the first of them does that fails alone. -/
theorem showFrames_eq_error_iff (files : Files) (kind : FrameKind) (config : Config)
    (names : List String) (causes : Chain) :
    showFrames files kind config names = .error causes ↔
      ∃ before name after, names = before ++ name :: after ∧
        (∀ earlier ∈ before, ∃ report, showFrames files kind config [earlier] = .ok [report]) ∧
        showFrames files kind config [name] = .error causes := by
  simp only [showFrames_singleton_eq_ok, showFrames_singleton_eq_error]
  constructor
  · intro h
    rcases showFrames_endings files kind config names with
      ⟨reports, -, hshown⟩ | ⟨before, name, after, causes', hnames, hbefore, hname, hshown⟩
    · rw [hshown] at h
      cases h
    · rw [hshown] at h
      cases h
      exact ⟨before, name, after, hnames, hbefore, hname⟩
  · rintro ⟨before, name, after, rfl, hbefore, hname⟩
    exact showFiles_of_error (alike_newViewer config) hbefore hname after

/-- Files of which one describes an empty layout and the others cannot be read. -/
def sparseFiles : Files := fun name =>
  if name = "empty" then some "\x7b\"nodes\":[]\x7d" else none

/-- What a viewer shows does not depend on what it has shown before: after any two sessions that
end with the same configuration and visibility, a subject gives the same error or, up to the number
of the frame, the same report.  When it was staged, the two viewers show the same afterwards, and
when it could not be staged, each shows what it showed before.

Files are therefore shown as if each were alone.  They are all reported exactly when each of them
succeeds alone, and then they are reported in order, numbered from one.  Otherwise the first file
that fails alone decides on the failure. -/
theorem frames_independent_of_history :
    (∀ (budget : Option Nat) (config config' : Config) (actions actions' : List Action)
        (subject : Subject),
      let v := (Viewer.start (.empty budget) config).run actions
      let w := (Viewer.start (.empty budget) config').run actions'
      v.config = w.config → (∀ layer, v.visible layer = w.visible layer) →
        (v.showSubject subject).1.map (FrameSummary.renumber 0) =
            (w.showSubject subject).1.map (FrameSummary.renumber 0) ∧
          ((subject.stage v.config .empty).error? = none →
            (v.showSubject subject).2.SameFrame (w.showSubject subject).2) ∧
          ((subject.stage v.config .empty).error? ≠ none →
            (v.showSubject subject).2 = v ∧ (w.showSubject subject).2 = w)) ∧
      ∀ (files : Files) (kind : FrameKind) (config : Config) (names : List String),
        ((∃ reports, showFrames files kind config names = .ok reports) ↔
            ∀ name ∈ names, ∃ report, showFrames files kind config [name] = .ok [report]) ∧
          (∀ reports : List FrameReport, showFrames files kind config names = .ok reports →
            reports.length = names.length ∧
              ∀ (i : Nat) (name : String), names[i]? = some name → ∃ summary,
                showFrames files kind config [name] = .ok [⟨name, summary⟩] ∧
                  reports[i]? = some ⟨name, summary.renumber (i + 1)⟩) ∧
          ∀ causes, showFrames files kind config names = .error causes ↔
            ∃ before name after, names = before ++ name :: after ∧
              (∀ earlier ∈ before, ∃ report,
                showFrames files kind config [earlier] = .ok [report]) ∧
              showFrames files kind config [name] = .error causes := by
  constructor
  · intro budget config config' actions actions' subject v w hconfig hvisible
    have hv : v.Owns budget := Viewer.owns_run_start budget config actions
    have hw : w.Owns budget := Viewer.owns_run_start budget config' actions'
    have hlike : v.Alike w budget := ⟨hv, hw, hconfig, funext hvisible⟩
    exact hlike.showSubject subject
  · intro files kind config names
    exact ⟨exists_showFrames_eq_ok_iff files kind config names,
      fun _ => reports_of_showFrames_eq_ok, showFrames_eq_error_iff files kind config names⟩

/-- A cell is shown after a crowded session as it is at first, and a file that cannot be read fails
after one that can as it does alone. -/
theorem frames_independent_of_crowded_history :
    let v := (Viewer.start (.empty (some 4000)) .default).run
      (Viewer.crowdedSession ++ [.setLayerVisible .boxes true])
    let w := Viewer.start (.empty (some 4000)) .default
    (v.showSubject (.lattice Viewer.oneCell)).2.SameFrame
        (w.showSubject (.lattice Viewer.oneCell)).2 ∧
      showFrames sparseFiles .lattice .default ["empty", "missing", "empty"] =
        .error [.because "reading missing", .unreadable] := by
  obtain ⟨hviewers, hfiles⟩ := frames_independent_of_history
  have hvisible : ∀ layer : Layer,
      ((Viewer.start (.empty (some 4000)) .default).run
        (Viewer.crowdedSession ++ [.setLayerVisible .boxes true])).visible layer =
      (Viewer.start (.empty (some 4000)) .default).visible layer := by
    intro layer
    cases layer <;> rfl
  obtain ⟨-, hstaged, -⟩ := hviewers (some 4000) .default .default
    (Viewer.crowdedSession ++ [.setLayerVisible .boxes true]) [] (.lattice Viewer.oneCell) rfl
    hvisible
  obtain ⟨-, -, hfailed⟩ := hfiles sparseFiles .lattice .default ["empty", "missing", "empty"]
  refine ⟨hstaged (by decide +kernel), (hfailed _).mpr ?_⟩
  refine ⟨["empty"], "missing", ["empty"], rfl, ?_, rfl⟩
  intro earlier hmem
  rw [List.mem_singleton.mp hmem]
  exact ⟨⟨"empty", ⟨1, 0, 0, 0, 0, none, none⟩⟩, by decide +kernel⟩

end LatticeScene.CommandLine
