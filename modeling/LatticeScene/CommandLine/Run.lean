import LatticeScene.Display.Viewer
import LatticeScene.CommandLine.Arguments

/-!
# Running the program

The program shows the frames of files, or tells something about itself, and prints how it went.
-/

namespace LatticeScene.CommandLine

open Json Display

/-!
## Frame reports

What is printed of the frames that have been shown, in lines for people or as JSON.
-/

/-- The summary of the frame of a file. -/
structure FrameReport where
  file : String
  summary : FrameSummary
deriving DecidableEq

namespace FrameReport

/-- Write a report as JSON. -/
def toTree (r : FrameReport) : Tree := .record (("file", .ofString r.file) :: r.summary.members)

/-- The lines of a report: the counts, and below them the size in plumbing pieces if the frame is
not empty. -/
def lines (r : FrameReport) : String :=
  let s := r.summary
  let counts := s!"{r.file}: frame {s.frame}, {s.meshes} meshes ({s.attached} attached), "
    ++ s!"{s.vertices} vertices, {s.bytes} bytes\n"
  match s.pieces with
  | none => counts
  | some p => counts ++ s!"  bounding box plumbing pieces: {p.x} {p.y} {p.z}\n"

/-- What is printed of reports. -/
def print (json : Bool) (reports : List FrameReport) : String :=
  if json then (Tree.ofList toTree reports).pretty ++ "\n"
  else String.join (reports.map lines)

end FrameReport

open Staging

/-!
## Files and frames

Every file is one frame.  The files are shown one after the other by one viewer on a device
without budget, and nothing is printed unless all of them can be shown.

Files are read through a function from names to contents, so that what a run prints is a function
of the command line and the files.
-/

/-- A link in the chain of causes of a failed run. -/
inductive Cause where
  /-- What was being done, or what went wrong. -/
  | because (text : String)
  /-- A file could not be read. -/
  | unreadable
  /-- A text did not have the expected form. -/
  | malformed
deriving DecidableEq, Repr

/-- The causes of a failed run, from the outermost to the innermost. -/
abbrev Chain := List Cause

/-- The contents of files, none for a file that cannot be read. -/
abbrev Files := String → Option String

/-- How a run ends. -/
inductive Outcome where
  /-- All went well, and this is printed. -/
  | success (output : String)
  /-- Something went wrong. -/
  | failure (causes : Chain)
  /-- The command line makes no sense. -/
  | misuse
deriving DecidableEq, Repr

/-- The exit code of a run. -/
def Outcome.exitCode : Outcome → Nat
  | success _ => 0
  | failure _ => 1
  | misuse => 2

/-- The contents of a file. -/
def readFile (files : Files) (doing file : String) : Except Chain String :=
  match files file with
  | some text => .ok text
  | none => .error [.because (doing ++ file), .unreadable]

/-- The configuration that the options ask for: that of a file or the default one, with the draw
options of the query if there is one. -/
def loadConfig (files : Files) (options : Options) : Except Chain Config := do
  let config ← match options.config? with
    | none => pure Config.default
    | some file => do
      let text ← readFile files "reading config " file
      match (Tree.read? text).bind Config.ofTree? with
      | some config => pure config
      | none => .error [.because ("parsing config " ++ file), .malformed]
  return match options.query? with
    | none => config
    | some query => { config with draw := .ofQuery query }

/-- Show the frame that a text describes, if it describes one. -/
def showText? (kind : FrameKind) (viewer : Viewer) (text : String) :
    Option (Except Failure FrameSummary × Viewer) := do
  let tree ← Tree.read? text
  match kind with
  | .defects => return viewer.showDefects (← Schedule.DefectFrame.ofTree? tree)
  | .plumbing => return viewer.showPlumbing (← Schedule.PlumbingSchedule.ofTree? tree)
  | .lattice => return viewer.showLattice (← Schedule.LatticeLayout.ofTree? tree)

/-- Show the frame of a file. -/
def showFile (files : Files) (kind : FrameKind) (viewer : Viewer) (file : String) :
    Except Chain (FrameReport × Viewer) := do
  let text ← readFile files "reading " file
  match showText? kind viewer text with
  | none => .error [.malformed]
  | some (.error failure, _) =>
    .error [.because ("building frame from " ++ file), .because failure.message]
  | some (.ok summary, viewer) => .ok (⟨file, summary⟩, viewer)

/-- Show the frames of files one after the other, up to the first that fails. -/
def showFiles (files : Files) (kind : FrameKind) (viewer : Viewer) :
    List String → Except Chain (List FrameReport)
  | [] => .ok []
  | file :: rest => do
    let (report, viewer) ← showFile files kind viewer file
    return report :: (← showFiles files kind viewer rest)

/-- Show the frames of files with a new viewer. -/
def showFrames (files : Files) (kind : FrameKind) (config : Config) (names : List String) :
    Except Chain (List FrameReport) :=
  showFiles files kind (.start (.empty none) config) names

/-- What a command prints. -/
def runCommand (files : Files) (options : Options) (command : Command) : Except Chain String := do
  let config ← loadConfig files options
  match command with
  | .printConfig => return config.toTree.pretty ++ "\n"
  | .showFrames kind names =>
    return FrameReport.print options.json (← showFrames files kind config names)

/-- Do what a command line asks for. -/
def run (files : Files) : Invocation → Outcome
  | .run options command =>
    match runCommand files options command with
    | .ok output => .success output
    | .error causes => .failure causes
  | .version => .success versionText
  | .help topic => .success topic.text
  | .misuse => .misuse

end LatticeScene.CommandLine
