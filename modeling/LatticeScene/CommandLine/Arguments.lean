/-!
# Command lines

A command line consists of options, a command and the arguments of the command.  Options come
before the command, each at most once.  A value may be attached to its option or follow it, and
then it may not look like an option itself.  Short flags may be written together.

A flag or an option with an attached value is set as soon as it is read.  An option whose value
follows it is set later: when the next option is read, or after the arguments of the command.
Help that those arguments ask for is therefore given even when such an option could not be set.

`Invocation.ofArguments` tells what a command line asks for.
-/

namespace LatticeScene.CommandLine

/-- The kinds of frames that can be shown. -/
inductive FrameKind where
  | defects
  | plumbing
  | lattice
deriving DecidableEq, Repr

/-- What is to be done. -/
inductive Command where
  /-- Show the frame of every file. -/
  | showFrames (kind : FrameKind) (files : List String)
  /-- Print the configuration. -/
  | printConfig
deriving DecidableEq, Repr

/-- The options in front of a command. -/
structure Options where
  /-- The file of the configuration. -/
  config? : Option String
  /-- The draw options as a query. -/
  query? : Option String
  verbose : Bool
  /-- Whether the frames are reported as JSON. -/
  json : Bool
deriving DecidableEq, Repr

/-- What help is asked for. -/
inductive HelpTopic where
  | program
  | frames (kind : FrameKind)
  | config
  /-- The command for help. -/
  | help
deriving DecidableEq, Repr

/-- What a command line asks for. -/
inductive Invocation where
  | run (options : Options) (command : Command)
  | version
  | help (topic : HelpTopic)
  /-- The command line makes no sense. -/
  | misuse
deriving DecidableEq, Repr

/-- No options. -/
def Options.none : Options := ⟨Option.none, Option.none, false, false⟩

/-- The options that take a value. -/
inductive ValueOption where
  | config
  | query
deriving DecidableEq, Repr

namespace Options

/-- Set an option to a value.  An option is set once, and the name of a file is not empty. -/
def set? (o : Options) (option : ValueOption) (value : String) : Option Options :=
  match option with
  | .config =>
    if o.config?.isSome || value.isEmpty then Option.none else some { o with config? := some value }
  | .query => if o.query?.isSome then Option.none else some { o with query? := some value }

/-- Switch to verbose output, once. -/
def setVerbose? (o : Options) : Option Options :=
  if o.verbose then Option.none else some { o with verbose := true }

/-- Switch to JSON reports, once. -/
def setJson? (o : Options) : Option Options :=
  if o.json then Option.none else some { o with json := true }

end Options

/-- Whether an argument looks like an option: it starts with a hyphen and goes on. -/
def looksLikeOption (argument : String) : Bool :=
  match argument.toList with
  | '-' :: _ :: _ => true
  | _ => false

/-- The command that shows frames of some kind, by its name. -/
def FrameKind.ofName? (name : String) : Option FrameKind :=
  if name = "defects" then some .defects
  else if name = "plumbing" then some .plumbing
  else if name = "lattice" then some .lattice
  else none

/-- What the arguments read so far have left open. -/
inductive Pending where
  | nothing
  /-- The value of an option comes next. -/
  | value (option : ValueOption)
  /-- An option has been read together with its value, and is still to be set. -/
  | assignment (option : ValueOption) (value : String)
deriving DecidableEq, Repr

/-- Set the option that has been left open.  An option without its value cannot be set. -/
def Pending.settle? (options : Options) : Pending → Option Options
  | nothing => some options
  | value _ => none
  | assignment option text => options.set? option text

/-- What an argument in front of the command asks for. -/
inductive Reading where
  /-- Go on with these options. -/
  | proceed (options : Options) (pending : Pending)
  /-- Nothing else matters. -/
  | stop (invocation : Invocation)

namespace Reading

/-- Go on with options, if they could be set. -/
def ofOptions? : Option Options → Reading
  | some options => proceed options .nothing
  | none => stop .misuse

/-- The value that is attached to a short option, without the equals sign that may stand in front
of it. -/
def attachedValue : List Char → String
  | '=' :: value => String.ofList value
  | value => String.ofList value

/-- Set an option to the value attached to it, or wait for the next argument. -/
def valueOption (options : Options) (option : ValueOption) (attached : List Char) : Reading :=
  if attached.isEmpty then proceed options (.value option)
  else ofOptions? (options.set? option (attachedValue attached))

/-- Read short options written together. -/
def ofShort (options : Options) : List Char → Reading
  | [] => proceed options .nothing
  | 'v' :: rest =>
    match options.setVerbose? with
    | some options => ofShort options rest
    | none => stop .misuse
  | 'h' :: _ => stop (.help .program)
  | 'V' :: _ => stop .version
  | 'c' :: rest => valueOption options .config rest
  | 'q' :: rest => valueOption options .query rest
  | _ :: _ => stop .misuse

/-- Read a long option, written without its two hyphens. -/
def ofLong (options : Options) (text : List Char) : Reading :=
  let name := String.ofList (text.takeWhile (· != '='))
  let attached := text.dropWhile (· != '=')
  if name = "config" then valueOption options .config attached
  else if name = "query" then valueOption options .query attached
  else if ¬attached.isEmpty then stop .misuse
  else if name = "verbose" then ofOptions? options.setVerbose?
  else if name = "json" then ofOptions? options.setJson?
  else if name = "help" then stop (.help .program)
  else if name = "version" then stop .version
  else stop .misuse

/-- Read an argument that looks like an option. -/
def ofArgument (options : Options) (argument : String) : Reading :=
  match argument.toList with
  | '-' :: '-' :: text => ofLong options text
  | '-' :: text => ofShort options text
  | _ => stop .misuse

end Reading

namespace Invocation

/-- Run a command, if the options could be set. -/
def runWith : Option Options → Command → Invocation
  | some options, command => run options command
  | none, _ => misuse

/-- The help that arguments of a command ask for, if that is what the first option does. -/
def helpOr (topic : HelpTopic) (argument : String) : Invocation :=
  match argument.toList with
  | '-' :: 'h' :: _ => help topic
  | _ => if argument = "--help" then help topic else misuse

/-- Read the names of files up to the end.  After `literal` has become true a name may start with
a hyphen.  The names in `before` are kept in reverse. -/
def ofFiles (options? : Option Options) (kind : FrameKind) (literal : Bool)
    (before : List String) : List String → Invocation
  | [] => if before.isEmpty then misuse else runWith options? (.showFrames kind before.reverse)
  | argument :: rest =>
    if argument.isEmpty then misuse
    else if literal || !looksLikeOption argument then
      ofFiles options? kind literal (argument :: before) rest
    else if argument = "--" then ofFiles options? kind true before rest
    else helpOr (.frames kind) argument

/-- Read the arguments of the command that prints the configuration: there are none. -/
def ofConfigArguments (options? : Option Options) : List String → Invocation
  | [] => runWith options? .printConfig
  | argument :: rest =>
    if argument = "--" then (if rest.isEmpty then runWith options? .printConfig else misuse)
    else helpOr .config argument

/-- Read the arguments of the command for help. -/
def ofHelpArguments : List String → Invocation
  | [] => help .program
  | [name] =>
    if name = "config" then help .config
    else if name = "help" then help .help
    else match FrameKind.ofName? name with
      | some kind => help (.frames kind)
      | none => misuse
  | _ => misuse

/-- Read a command and its arguments, after options that could be set or not. -/
def ofCommand (options? : Option Options) (name : String) (arguments : List String) : Invocation :=
  if name = "config" then ofConfigArguments options? arguments
  else if name = "help" then ofHelpArguments arguments
  else match FrameKind.ofName? name with
    | some kind => ofFiles options? kind false [] arguments
    | none => misuse

/-- Read options and a command, after `pending` has been left open. -/
def ofArgumentsFrom (options : Options) (pending : Pending) : List String → Invocation
  | [] => misuse
  | argument :: rest =>
    if looksLikeOption argument then
      match pending.settle? options with
      | none => misuse
      | some options =>
        match Reading.ofArgument options argument with
        | .proceed options pending => ofArgumentsFrom options pending rest
        | .stop invocation => invocation
    else
      match pending with
      | .value option => ofArgumentsFrom options (.assignment option argument) rest
      | _ => ofCommand (pending.settle? options) argument rest

/-- What a command line asks for. -/
def ofArguments (arguments : List String) : Invocation := ofArgumentsFrom .none .nothing arguments

/-- The files that have to be read for an invocation. -/
def files : Invocation → List String
  | run options command =>
    options.config?.toList ++ match command with
      | .showFrames _ files => files
      | .printConfig => []
  | _ => []

end Invocation

/-!
## Help texts

What the program tells about itself and its commands.
-/

/-- The name of the program and its version. -/
def versionText : String := "surgeryvis 0.1.0\n"

/-- The name of the command that shows frames of some kind. -/
def FrameKind.name : FrameKind → String
  | defects => "defects"
  | plumbing => "plumbing"
  | lattice => "lattice"

/-- What the command for a kind of frames does. -/
def FrameKind.about : FrameKind → String
  | defects => "Show defect frames"
  | plumbing => "Show plumbing-piece schedules"
  | lattice => "Show lattice-surgery layouts"

/-- What the files of a kind of frames are. -/
def FrameKind.filesAbout : FrameKind → String
  | defects => "Defect scene files, one frame each"
  | plumbing => "Plumbing schedule files, one frame each"
  | lattice => "Layout files, one frame each"

/-- The lines of the help for the program. -/
def programHelp : List String :=
  ["Command-line front end for the surgeryvis schedule viewer",
    "",
    "Usage: surgeryvis [OPTIONS] <COMMAND>",
    "",
    "Commands:",
    "  defects   Show defect frames",
    "  plumbing  Show plumbing-piece schedules",
    "  lattice   Show lattice-surgery layouts",
    "  config    Print the effective configuration",
    "  help      Print this message or the help of the given subcommand(s)",
    "",
    "Options:",
    "  -c, --config <CONFIG>  JSON configuration file",
    "  -q, --query <QUERY>    Draw options, e.g. `noboxes&noduals`",
    "  -v, --verbose          Verbose output",
    "      --json             Print frame summaries as JSON",
    "  -h, --help             Print help",
    "  -V, --version          Print version"]

/-- The lines of the help on a topic. -/
def HelpTopic.lines : HelpTopic → List String
  | program => programHelp
  | frames kind =>
    [kind.about, "", s!"Usage: surgeryvis {kind.name} <FILES>...", "", "Arguments:",
      s!"  <FILES>...  {kind.filesAbout}", "", "Options:", "  -h, --help  Print help"]
  | config =>
    ["Print the effective configuration", "", "Usage: surgeryvis config", "", "Options:",
      "  -h, --help  Print help"]
  | help =>
    ["Print this message or the help of the given subcommand(s)", "",
      "Usage: surgeryvis help [COMMAND]...", "", "Arguments:",
      "  [COMMAND]...  Print help for the subcommand(s)"]

/-- The text of the help on a topic. -/
def HelpTopic.text (topic : HelpTopic) : String := String.join (topic.lines.map (· ++ "\n"))

end LatticeScene.CommandLine
