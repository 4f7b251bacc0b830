import Flowchart.CommandLine.Options
import Flowchart.Layout.Document
import Flowchart.Load
import Flowchart.Writer

/-!
Running a request: read the input, then the configuration, then make what is asked for and write
it out. The first thing that fails ends the run. Files are reached through a `Host`, so that a run
is the same on any file system.
-/
namespace Flowchart.CommandLine

/-- Why a file cannot be read or written. -/
inductive FileProblem where
  | notFound
  | notDirectory
  | isDirectory
  /-- The bytes are no UTF-8. -/
  | notText
  /-- Any other problem, by the words and the number that the system has for it. -/
  | other (description : Text) (code : Nat)
  deriving DecidableEq, Repr

/-- The words of the system with its number. -/
def osError (description : Text) (code : Nat) : Text :=
  description ++ " (os error ".toList ++ Text.ofNat code ++ ")".toList

/-- What the problem is called. -/
def FileProblem.message : FileProblem → Text
  | .notFound => osError "No such file or directory".toList 2
  | .notDirectory => osError "Not a directory".toList 20
  | .isDirectory => osError "Is a directory".toList 21
  | .notText => "stream did not contain valid UTF-8".toList
  | .other description code => osError description code

/-- The files and the standard input. -/
structure Host (m : Type → Type) where
  read : Text → m (Except FileProblem Text)
  input : m (Except FileProblem Text)
  write : Text → Text → m (Except FileProblem Unit)

/-- Why a run fails. -/
inductive Failure where
  | unreadable (path : Text) (problem : FileProblem)
  | unreadableInput (problem : FileProblem)
  | unwritable (path : Text) (problem : FileProblem)
  | invalidConfig (path : Text) (problem : Json.Problem)
  | invalidGraph (problem : Json.Problem)
  | invalidText (cause : ParseError)

/-- The message of a problem; a fault of the text has none. -/
def problemText (p : Json.Problem) : Text := p.message?.getD []

/-- What went wrong, with the file it went wrong at. -/
def Failure.message : Failure → Text
  | .unreadable path problem => "cannot read '".toList ++ path ++ "': ".toList ++ problem.message
  | .unreadableInput problem => "cannot read stdin: ".toList ++ problem.message
  | .unwritable path problem => "cannot write '".toList ++ path ++ "': ".toList ++ problem.message
  | .invalidConfig path problem => "invalid config '".toList ++ path ++ "': ".toList ++ problemText problem
  | .invalidGraph problem => "invalid graph JSON: ".toList ++ problemText problem
  | .invalidText cause => cause.message

/-- What a run leaves behind besides files. -/
structure Outcome where
  code : Nat
  output : Text
  /-- The lines on the error stream. -/
  errors : List Text
  deriving DecidableEq, Repr

/-- The names of log levels, in lower case. -/
def logLevels : List Text :=
  ["off".toList, "error".toList, "warn".toList, "info".toList, "debug".toList, "trace".toList]

/-- The warning about a level that there is not. -/
def levelWarning (level : Text) : List Text :=
  if logLevels.contains (level.map Char.toLower) then []
  else ["Invalid log level: ".toList ++ level ++ ". Using 'warn' instead.".toList]

section
variable {m : Type → Type} [Monad m] (host : Host m)

/-- Reads the input from a file, or from the standard input. -/
def readSource (path : Option Text) : ExceptT Failure m Text := do
  match path with
  | some path =>
    match ← host.read path with
    | .ok t => return t
    | .error problem => throw (.unreadable path problem)
  | none =>
    match ← host.input with
    | .ok t => return t
    | .error problem => throw (.unreadableInput problem)

/-- Reads the configuration from a file; without one the standard one counts. -/
def readConfig (path : Option Text) : ExceptT Failure m (Config Float) := do
  match path with
  | some path =>
    match ← host.read path with
    | .ok t =>
      match Config.ofJsonText t with
      | .ok c => return c
      | .error problem => throw (.invalidConfig path problem)
    | .error problem => throw (.unreadable path problem)
  | none => return .standard

/-- Writes to a file, or gives the text for the standard output. -/
def writeResult (path : Option Text) (t : Text) : ExceptT Failure m Text := do
  match path with
  | some path =>
    match ← host.write path t with
    | .ok () => return []
    | .error problem => throw (.unwritable path problem)
  | none => return t

/-- The text that a graph is printed as. -/
def render (c : Config Float) (g : Graph) : Emit → Text
  | .dsl => Graph.toText g
  | .graph => g.toJson.indented ++ ['\n']
  | .layout => (Flowchart.layout c g).toJson.indented ++ ['\n']
  | .sanitized => repair (Graph.toText g) ++ ['\n']

/-- Makes the text that is asked for out of the input. -/
def produce (o : Options) (c : Config Float) (source : Text) : Except Failure Text :=
  let emit := o.emit.getD .dsl
  if o.fromJson then
    match Graph.ofJsonText source with
    | .ok g => .ok (render c g emit)
    | .error problem => .error (.invalidGraph problem)
  else
    let clean := if o.extract then extractDiagram source else repair source
    if emit = .sanitized then .ok (clean ++ ['\n'])
    else
      match parse clean with
      | .ok g => .ok (render c g emit)
      | .error cause => .error (.invalidText cause)

/-- Runs with the given options: what goes to the standard output. -/
def runOptions (o : Options) : ExceptT Failure m Text := do
  let source ← readSource host o.input
  let c ← readConfig host o.config
  let t ← ExceptT.mk (pure (produce o c source))
  writeResult host o.output t

/-- The name and version of the program. -/
def versionLine : Text := "flowviz 0.1.0\n".toList

/-- A short account of the options. -/
def helpText : Text :=
  ("Reads flowchart text, repairs it and prints it again\n\n" ++
   "Usage: flowviz [OPTIONS] [INPUT]\n\n" ++
   "Options:\n" ++
   "  -o, --output <OUTPUT>        Write to this file\n" ++
   "      --emit <EMIT>            One of dsl, graph, layout, sanitized\n" ++
   "      --extract                Pull the diagram out of a whole reply\n" ++
   "      --from-json              Read a graph JSON document\n" ++
   "      --config <CONFIG>        Read the layout configuration from this file\n" ++
   "      --log-level <LOG_LEVEL>  One of off, error, warn, info, debug, trace\n" ++
   "  -h, --help                   Print help\n" ++
   "  -V, --version                Print version\n").toList

/-- Runs a request. -/
def run (r : Request) : m Outcome := do
  match r with
  | .version => return ⟨0, versionLine, []⟩
  | .help => return ⟨0, helpText, []⟩
  | .misuse => return ⟨2, [], ["error: invalid arguments".toList]⟩
  | .run o =>
    let warnings := (o.logLevel.map levelWarning).getD []
    match ← (runOptions host o).run with
    | .ok t => return ⟨0, t, warnings⟩
    | .error failure => return ⟨1, [], warnings ++ ["error: ".toList ++ failure.message]⟩

end
end Flowchart.CommandLine
