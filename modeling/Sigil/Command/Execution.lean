import Sigil.Command.Help
import Sigil.Configuration
import Sigil.Trace

/-!
# Carrying out commands

What the commands do is stated over the few things they can do outside: find a file, read the
standard input, create a file, write.  These are a record of operations in some monad, so the same
commands run on a real system and on a directory that is only a value.
-/

namespace Sigil.Command

/-- What is found under a path. -/
inductive Found where
  | absent
  /-- Something that can be opened and cannot be read, and why. -/
  | closed (reason : String)
  | file (bytes : ByteArray)

/-- What a command can do outside. -/
structure Effects (m : Type → Type) where
  /-- Looks a path up. -/
  find : String → m Found
  /-- Everything on the standard input. -/
  standardInput : m ByteArray
  /-- Makes an empty file, and says whether that is possible. -/
  create : String → m Bool
  /-- Writes to a file that was made before. -/
  write : String → ByteArray → m Unit
  /-- Writes to the standard output. -/
  print : ByteArray → m Unit

/-! ## What the commands compute -/

/-- The input that was found under a path. -/
def inputOf (name : String) : Found → Input
  | .absent => Input.ofText name ""
  | .closed reason => { name, lines := [.unreadable reason] }
  | .file bytes => Input.ofBytes name bytes

/-- The form is a definition, which is evaluated and not printed. -/
def isDefinition (e : Expr) : Bool :=
  e.head? == some "define-macro" || e.head? == some "define-symbol-macro"

/-- How traces are shown; not at all without a colour choice. -/
abbrev TraceMode := Option Bool

/-- Expands forms in turn, and appends what is printed to `printed`. -/
def expandForms (s : Settings) (mode : TraceMode) (r : Registry) (printed : String) :
    List Expr → Except Failure Unit × String
  | [] => (.ok (), printed)
  | form :: forms =>
    if isDefinition form then
      match Host.definitions s form r with
      | (.error f, _) => (.error f, printed)
      | (.ok _, r) => expandForms s mode r printed forms
    else
      match r.expandTraced s form with
      | (.error f, _) => (.error f, printed)
      | (.ok expanded, steps) =>
        let trace := match mode with
          | none => ""
          | some colour => Trace.text colour steps
        expandForms s mode r (printed ++ trace ++ expanded.printed ++ "\n") forms

/-- Expands every expression of an input. -/
def expandInput (s : Settings) (mode : TraceMode) (input : Input) : Except Failure Unit × String :=
  match Datum.readAll (.fold s.fold) input with
  | (.error f, _) => (.error f, "")
  | (.ok forms, _) => expandForms s mode .empty "" forms

/-- A text with spaces behind it, up to a width. -/
def padded (width : Nat) (text : String) : String :=
  text ++ String.ofList (List.replicate (width - text.length) ' ')

/-- The listing of a table. -/
def listing (table : List Entry) : String :=
  String.join (table.map fun e => padded 8 e.sigil ++ " " ++ e.directive.name ++ "\n")

/-! ## Commands -/

section

variable {m : Type → Type} [Monad m] (fx : Effects m)

/-- A step that can fail. -/
def attempt {α : Type} (r : Except Failure α) : ExceptT Failure m α := ExceptT.mk (pure r)

/-- The configuration that a command names, or the defaults. -/
def configuration (inv : Invocation) : ExceptT Failure m Configuration := do
  let c ← match inv.config with
    | none => pure {}
    | some path => do
      let found ← fx.find path
      match found with
      | .file bytes =>
        match String.fromUTF8? bytes with
        | some text => attempt (Configuration.ofText text)
        | none => throw (.plain (.cannotReadConfiguration path))
      | _ => throw (.plain (.cannotReadConfiguration path))
  pure (if inv.recursive then { c with recursive := true } else c)

/-- Checks that a path can be opened. -/
def requireFile (path : String) : ExceptT Failure m Unit := do
  match ← fx.find path with
  | .absent => throw (.plain (.cannotOpen path))
  | _ => pure ()

/-- The name of the standard input. -/
def standardInputName : String := "<stdin>"

/-- Processes a document.  The output is made after the input was opened and before it is read. -/
def process (inv : Invocation) : ExceptT Failure m Unit := do
  let c ← configuration fx inv
  let p ← attempt c.processor
  match inv.file with
  | some path => requireFile fx path
  | none => pure ()
  let output := if inv.quiet then none else inv.output
  match output with
  | some path =>
    if !(← fx.create path) then throw (.plain (.cannotCreate path))
  | none => pure ()
  let input ← match inv.file with
    | some path => do
      let found ← fx.find path
      pure (inputOf path found)
    | none => do
      let bytes ← fx.standardInput
      pure (Input.ofBytes standardInputName bytes)
  let (result, s) := p.process input (if inv.quiet then .discard else .device {})
  match output with
  | some path => fx.write path s.sink.bytes
  | none => fx.print s.sink.bytes
  attempt result

/-- Prints the expansions of the expressions of a file. -/
def expand (inv : Invocation) (colour : Bool) : ExceptT Failure m Unit := do
  let c ← configuration fx inv
  let path := inv.file.getD ""
  requireFile fx path
  let found ← fx.find path
  let mode := if inv.trace then some colour else none
  let (result, printed) := expandInput c.settings mode (inputOf path found)
  fx.print printed.toUTF8
  attempt result

/-- Prints the table of sigils. -/
def prefixes (inv : Invocation) : ExceptT Failure m Unit := do
  let c ← configuration fx inv
  let table ← attempt c.table
  fx.print (listing table).toUTF8

/-- Carries out a command; `colour` says that traces are coloured. -/
def execute (inv : Invocation) (colour : Bool) : m (Except Failure Unit) :=
  match inv.verb with
  | .process => (process fx inv).run
  | .expand => (expand fx inv colour).run
  | .prefixes => (prefixes fx inv).run

end

/-- What a command line comes to. -/
inductive Verdict where
  | done
  | failed (f : Failure)
  | refused (r : Refusal)

/-- The exit status of a command line. -/
def Verdict.exitStatus : Verdict → Nat
  | .done => 0
  | .failed _ => 1
  | .refused r => r.exitStatus

/-- Carries out a command line. -/
def run {m : Type → Type} [Monad m] (fx : Effects m) (args : List String) (colour : Bool) :
    m Verdict := do
  match parse args with
  | .error .showVersion =>
    fx.print versionText.toUTF8
    pure (.refused .showVersion)
  | .error .showHelp =>
    fx.print helpText.toUTF8
    pure (.refused .showHelp)
  | .error r => pure (.refused r)
  | .ok inv =>
    match ← execute fx inv colour with
    | .ok () => pure .done
    | .error f => pure (.failed f)

end Sigil.Command
