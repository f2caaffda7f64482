/-!
# Command lines

Three commands: `process` a document, `expand` a file of expressions, and list the `prefixes`.
Options may stand before and behind the file.  A long option takes its value behind `=` or as the
next argument; short options may share one dash, and the rest of the argument behind a short option
that takes a value is its value.  Behind `--` everything is a file name.

An option that still waits for its value, and a value that is not yet checked, are settled when the
next known argument comes or the arguments end.  An unknown argument is refused before that.
-/

namespace Sigil.Command

/-- The options of the commands. -/
inductive Opt where
  | output
  | config
  | quiet
  | recursive
  | trace
  | help
deriving DecidableEq, Repr

namespace Opt

/-- The long name. -/
def long : Opt → String
  | .output => "output"
  | .config => "config"
  | .quiet => "quiet"
  | .recursive => "recursive"
  | .trace => "trace"
  | .help => "help"

/-- The short name. -/
def short? : Opt → Option Char
  | .output => some 'o'
  | .config => some 'c'
  | .quiet => some 'q'
  | .recursive => some 'r'
  | .trace => none
  | .help => some 'h'

/-- The option needs a value. -/
def takesValue : Opt → Bool
  | .output | .config => true
  | _ => false

end Opt

/-- The commands. -/
inductive Verb where
  | process
  | expand
  | prefixes
deriving DecidableEq, Repr

namespace Verb

/-- The commands, in the order in which they are listed. -/
def all : List Verb := [.process, .expand, .prefixes]

/-- The name of a command. -/
def label : Verb → String
  | .process => "process"
  | .expand => "expand"
  | .prefixes => "prefixes"

/-- The command of a given name. -/
def ofLabel? (name : String) : Option Verb := all.find? (·.label == name)

/-- The options of a command. -/
def options : Verb → List Opt
  | .process => [.output, .config, .recursive, .quiet, .help]
  | .expand => [.config, .recursive, .trace, .help]
  | .prefixes => [.config, .recursive, .help]

/-- The command works on a file. -/
def takesFile : Verb → Bool
  | .prefixes => false
  | _ => true

/-- The command needs a file. -/
def needsFile : Verb → Bool
  | .expand => true
  | _ => false

end Verb

/-- Why a command line is not carried out. -/
inductive Refusal where
  | showHelp
  | showVersion
  | noCommand
  | unknownCommand
  | unknownArgument
  | missingFile
  | badValue
  | repeated
  | needlessValue
deriving DecidableEq, Repr

/-- The exit status of a refusal: asking for help is no error. -/
def Refusal.exitStatus : Refusal → Nat
  | .showHelp | .showVersion => 0
  | _ => 2

/-! ## Settling arguments -/

/-- What a value is for. -/
inductive Slot where
  | option (o : Opt)
  | file
deriving DecidableEq, Repr

/-- The arguments of a command, as far as they are known. -/
structure Draft where
  verb : Verb
  /-- What is settled. -/
  settled : List (Slot × String) := []
  /-- What waits to be settled; an option may still lack its value. -/
  pending : Option (Slot × Option String) := none
  /-- The option whose value comes next. -/
  awaiting : Bool := false
  /-- Only file names follow. -/
  filesOnly : Bool := false
  /-- The file was named. -/
  fileNamed : Bool := false

/-- What reading an argument leads to. -/
abbrev Parsing := Except Refusal

namespace Draft

/-- The settled value of a slot. -/
def get? (d : Draft) (slot : Slot) : Option String := d.settled.lookup slot

/-- Settles what is pending.  A value must be there, once only, and must not be empty. -/
def settle (d : Draft) : Parsing Draft :=
  match d.pending with
  | none => .ok d
  | some (_, none) => .error .badValue
  | some (slot, some value) =>
    if (d.get? slot).isSome then .error .repeated
    else if value.isEmpty then .error .badValue
    else .ok { d with pending := none, settled := (slot, value) :: d.settled }

/-- Takes an option without a value. -/
def flag (d : Draft) (o : Opt) : Parsing Draft := do
  let d ← d.settle
  if o = .help then throw .showHelp
  if (d.get? (.option o)).isSome then throw .repeated
  return { d with settled := (.option o, "true") :: d.settled, awaiting := false }

/-- Takes an option that comes with its value. -/
def valued (d : Draft) (o : Opt) (value : String) : Parsing Draft := do
  let d ← d.settle
  { d with pending := some (.option o, some value), awaiting := false }.settle

/-- Takes an option whose value is the next argument. -/
def await (d : Draft) (o : Opt) : Parsing Draft := do
  let d ← d.settle
  return { d with pending := some (.option o, none), awaiting := true }

/-- Takes the value that an option waits for. -/
def fill (d : Draft) (value : String) : Draft :=
  { d with
    pending := d.pending.map fun (slot, _) => (slot, some value)
    awaiting := false }

/-- Takes a file name. -/
def file (d : Draft) (name : String) : Parsing Draft :=
  if d.verb.takesFile && !d.fileNamed then do
    let d ← d.settle
    return { d with pending := some (.file, some name), fileNamed := true, awaiting := false }
  else throw .unknownArgument

/-- Takes a long option, `value` being what stands behind `=`. -/
def long (d : Draft) (name : String) (value : Option String) : Parsing Draft :=
  match d.verb.options.find? (·.long == name), value with
  | none, _ => throw .unknownArgument
  | some o, some value => if o.takesValue then d.valued o value else throw .needlessValue
  | some o, none => if o.takesValue then d.await o else d.flag o

/-- Takes the short options behind one dash. -/
def shorts (d : Draft) : List Char → Parsing Draft
  | [] => return d
  | c :: r =>
    match d.verb.options.find? (·.short? == some c) with
    | none => throw .unknownArgument
    | some o =>
      if o.takesValue then
        match r with
        | [] => d.await o
        | '=' :: value => d.valued o (String.ofList value)
        | value => d.valued o (String.ofList value)
      else do
        let d ← d.flag o
        d.shorts r

end Draft

/-! ## Reading arguments -/

/-- The shapes of an argument. -/
inductive Shape where
  | dashes
  | long (name : String) (value : Option String)
  | shorts (names : List Char)
  | word

/-- The shape of an argument. -/
def Shape.ofText (arg : String) : Shape :=
  match arg.toList with
  | ['-', '-'] => .dashes
  | '-' :: '-' :: r =>
    match r.dropWhile (· != '=') with
    | [] => .long (String.ofList r) none
    | _ :: value =>
      .long (String.ofList (r.takeWhile (· != '='))) (some (String.ofList value))
  | '-' :: c :: r => .shorts (c :: r)
  | _ => .word

namespace Draft

/-- Takes one argument. -/
def argument (d : Draft) (arg : String) : Parsing Draft :=
  if d.filesOnly then d.file arg
  else
    match Shape.ofText arg with
    | .dashes => return { d with filesOnly := true }
    | .long name value => d.long name value
    | .shorts names => d.shorts names
    | .word => if d.awaiting then return d.fill arg else d.file arg

/-- Takes all arguments and settles them. -/
def arguments (d : Draft) : List String → Parsing Draft
  | [] => do
    let d ← d.settle
    if d.verb.needsFile && (d.get? .file).isNone then throw .missingFile
    return d
  | arg :: args => do
    let d ← d.argument arg
    d.arguments args

end Draft

/-- A command with its arguments. -/
structure Invocation where
  verb : Verb
  file : Option String := none
  output : Option String := none
  config : Option String := none
  quiet : Bool := false
  recursive : Bool := false
  trace : Bool := false
deriving DecidableEq, Repr

/-- The arguments of a command. -/
def invocation (verb : Verb) (args : List String) : Parsing Invocation := do
  let d ← { verb : Draft }.arguments args
  return {
    verb
    file := d.get? .file
    output := d.get? (.option .output)
    config := d.get? (.option .config)
    quiet := (d.get? (.option .quiet)).isSome
    recursive := (d.get? (.option .recursive)).isSome
    trace := (d.get? (.option .trace)).isSome }

/-- The help on a command, if there is one of that name. -/
def helpOn (names : List String) : Refusal :=
  match names with
  | [] => .showHelp
  | [name] => if name == "help" || (Verb.ofLabel? name).isSome then .showHelp else .unknownCommand
  | _ => .unknownCommand

/-- Reads a command line. -/
def parse (args : List String) : Parsing Invocation :=
  match args with
  | [] => throw .noCommand
  | first :: more =>
    match Verb.ofLabel? first with
    | some verb => invocation verb more
    | none =>
      if first == "help" then throw (helpOn more)
      else
        match Shape.ofText first with
        | .dashes =>
          match more with
          | [] => throw .noCommand
          | next :: _ =>
            if next == "help" || (Verb.ofLabel? next).isSome then throw .unknownArgument
            else throw .unknownCommand
        | .long name value =>
          if name == "help" || name == "version" then
            if value.isSome then throw .needlessValue
            else if name == "help" then throw .showHelp
            else throw .showVersion
          else throw .unknownArgument
        | .shorts names =>
          match names with
          | 'h' :: _ => throw .showHelp
          | 'V' :: _ => throw .showVersion
          | _ => throw .unknownArgument
        | .word => throw .unknownCommand

end Sigil.Command
