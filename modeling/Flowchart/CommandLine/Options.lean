import Flowchart.Text.Basic

/-!
The options of the command line. Arguments are read from left to right, and the first that
cannot be read, or that asks for the version or for help, ends the reading. Each option may be
given once.
-/
namespace Flowchart.CommandLine

/-- What is printed. -/
inductive Emit where
  | dsl | graph | layout | sanitized
  deriving DecidableEq, Repr

/-- The form of a name; names are in lower case. -/
def Emit.ofName? (name : Text) : Option Emit :=
  if name = "dsl".toList then some .dsl
  else if name = "graph".toList then some .graph
  else if name = "layout".toList then some .layout
  else if name = "sanitized".toList then some .sanitized
  else none

/-- The options that take no value. -/
inductive Flag where
  | extract | fromJson | version | help
  deriving DecidableEq, Repr

/-- The options that take a value. -/
inductive Setting where
  | output | emit | config | logLevel
  deriving DecidableEq, Repr

/-- What the arguments ask for; none where nothing is given. -/
structure Options where
  input : Option Text
  output : Option Text
  emit : Option Emit
  extract : Bool
  fromJson : Bool
  config : Option Text
  logLevel : Option Text
  deriving DecidableEq, Repr

/-- No option is given. -/
def Options.none : Options := ⟨.none, .none, .none, false, false, .none, .none⟩

/-- What the arguments come to. -/
inductive Request where
  | run (options : Options)
  | version
  | help
  /-- The arguments cannot be read. -/
  | misuse
  deriving DecidableEq, Repr

/-- What a name of an option stands for. -/
inductive Name where
  | flag (f : Flag)
  | setting (s : Setting)

/-- The option of a long name, without its two dashes. -/
def longName? (name : Text) : Option Name :=
  if name = "output".toList then some (.setting .output)
  else if name = "emit".toList then some (.setting .emit)
  else if name = "extract".toList then some (.flag .extract)
  else if name = "from-json".toList then some (.flag .fromJson)
  else if name = "config".toList then some (.setting .config)
  else if name = "log-level".toList then some (.setting .logLevel)
  else if name = "help".toList then some (.flag .help)
  else if name = "version".toList then some (.flag .version)
  else none

/-- The option of a letter. -/
def shortName? (c : Char) : Option Name :=
  if c = 'o' then some (.setting .output)
  else if c = 'h' then some (.flag .help)
  else if c = 'V' then some (.flag .version)
  else none

/-- Raises a flag that is not raised yet. -/
def Options.raise (o : Options) (f : Flag) : Except Request Options :=
  match f with
  | .extract => if o.extract then .error .misuse else .ok { o with extract := true }
  | .fromJson => if o.fromJson then .error .misuse else .ok { o with fromJson := true }
  | .version => .error .version
  | .help => .error .help

/-- Gives a setting that is not given yet. -/
def Options.give (o : Options) (s : Setting) (value : Text) : Except Request Options :=
  match s with
  | .output => if o.output.isSome then .error .misuse else .ok { o with output := value }
  | .config => if o.config.isSome then .error .misuse else .ok { o with config := value }
  | .logLevel => if o.logLevel.isSome then .error .misuse else .ok { o with logLevel := value }
  | .emit =>
    match o.emit, Emit.ofName? value with
    | .none, some e => .ok { o with emit := some e }
    | _, _ => .error .misuse

/-- Takes an argument that is no option; there is one at most. -/
def Options.place (o : Options) (value : Text) : Except Request Options :=
  if o.input.isSome then .error .misuse else .ok { o with input := value }

/-- What one argument is. -/
inductive Argument where
  | plain (value : Text)
  /-- Two dashes: no options follow. -/
  | escape
  | flag (f : Flag)
  /-- A setting with its value, or with its value in the next argument. -/
  | setting (s : Setting) (value : Option Text)
  | unknown

/-- A long option with what follows its name behind an equals sign. -/
def longArgument (t : Text) : Argument :=
  let (name, value) := match Text.cut ['='] t with
    | some (name, value) => (name, some value)
    | none => (t, none)
  match longName? name, value with
  | some (.flag f), none => .flag f
  | some (.setting s), value => .setting s value
  | _, _ => .unknown

/-- A short option; what is behind its letter is its value. -/
def shortArgument (c : Char) (behind : Text) : Argument :=
  match shortName? c, behind with
  | some (.flag f), _ => .flag f
  | some (.setting s), [] => .setting s none
  | some (.setting s), '=' :: value => .setting s (some value)
  | some (.setting s), value => .setting s (some value)
  | none, _ => .unknown

/-- Tells options from plain arguments by their dashes; a single dash is plain. -/
def argumentOf : Text → Argument
  | ['-', '-'] => .escape
  | '-' :: '-' :: t => longArgument t
  | '-' :: c :: behind => shortArgument c behind
  | t => .plain t

/-- Reads the arguments behind two dashes. -/
def readPlain (o : Options) (arguments : List Text) : Except Request Options :=
  arguments.foldlM Options.place o

/-- Reads the arguments one after the other. -/
def readArguments (o : Options) : List Text → Except Request Options
  | [] => .ok o
  | argument :: rest =>
    match argumentOf argument with
    | .plain value => do readArguments (← o.place value) rest
    | .escape => readPlain o rest
    | .flag f => do readArguments (← o.raise f) rest
    | .setting s (some value) => do readArguments (← o.give s value) rest
    | .setting s none =>
      match rest with
      | value :: rest =>
        match argumentOf value with
        | .plain value => do readArguments (← o.give s value) rest
        | _ => .error .misuse
      | [] => .error .misuse
    | .unknown => .error .misuse

/-- What a list of arguments asks for. A diagram cannot be pulled out of a JSON document. -/
def Request.ofArguments (arguments : List Text) : Request :=
  match readArguments .none arguments with
  | .error r => r
  | .ok o => if o.extract && o.fromJson then .misuse else .run o

end Flowchart.CommandLine
