import Sigil.Expr
import Sigil.Text.Lines

/-!
# Faults

Everything that can go wrong, as causes.  A fault belongs to one of six kinds; its message and its
hint are worded here and nowhere else.
-/

namespace Sigil

/-- The numbers of arguments that a template accepts. -/
inductive Arity where
  | exactly (count : Nat)
  | atLeast (count : Nat)
deriving DecidableEq, Repr

namespace Arity

/-- The number `n` of arguments is accepted. -/
def admits : Arity → Nat → Bool
  | .exactly count, n => n == count
  | .atLeast count, n => decide (count ≤ n)

/-- The arity in words. -/
def text : Arity → String
  | .exactly count => s!"exactly {count}"
  | .atLeast count => s!"at least {count}"

end Arity

/-- The six kinds of faults. -/
inductive Kind where
  | malformed
  | endOfInput
  | expansion
  | evaluation
  | configuration
  | io
deriving DecidableEq, Repr

namespace Kind

/-- The code that a report carries. -/
def code : Kind → String
  | .malformed => "macropp::reader::malformed"
  | .endOfInput => "macropp::reader::eof"
  | .expansion => "macropp::expand"
  | .evaluation => "macropp::host"
  | .configuration => "macropp::config"
  | .io => "macropp::io"

/-- The words in front of a message. -/
def heading : Kind → String
  | .malformed => "Malformed expression"
  | .endOfInput => "Unexpected end of input"
  | .expansion => "Macro expansion failed"
  | .evaluation => "Host evaluation failed"
  | .configuration => "Configuration error"
  | .io => "I/O error"

end Kind

/-- What went wrong. -/
inductive Fault where
  -- reading
  | notADatum (text : String)
  | unreadDatum
  | unbalancedList
  | strayClose
  | unterminatedString (afterBackslash : Bool)
  | danglingQuote
  | missingExpression
  | sigilCutShort (sigil : String)
  -- expanding and rendering
  | wrongArity (name : String) (arity : Arity) (given : Nat)
  | expansionTooDeep (head : String) (limit : Nat)
  | renderingTooDeep (expr : Expr) (limit : Nat)
  -- evaluating
  | evaluationTooDeep (expr : Expr) (limit : Nat)
  | headIsNoAtom (form head : Expr)
  | argumentCount (operator : String) (wanted given : Nat)
  | nameExpected (operator : String) (given : Expr)
  | bindingsExpected (operator : String)
  | bindingIsNoList (operator : String) (binding : Expr)
  | parametersAreNoList (operator name : String)
  | signatureExpected (operator : String) (given : Expr)
  | parameterIsNoName (name : String) (parameter : Expr)
  | parameterUnnamed (name : String)
  | parameterRepeated (name parameter : String)
  | restNotLast (name parameter : String)
  | unknownOperator (operator : String)
  -- configuring
  | emptySigil
  | emptyTable
  | zeroDepth
  | emptySigilAt (position : Nat)
  | badConfiguration (detail : Option String)
  -- input and output
  | unreadable (name reason : String)
  | cannotOpen (path : String)
  | cannotCreate (path : String)
  | cannotReadConfiguration (path : String)
  | device (reason : String)
  -- anything that an embedding program reports
  | custom (kind : Kind) (message : String)
deriving DecidableEq

namespace Fault

/-- The kind of a fault. -/
def kind : Fault → Kind
  | .notADatum _ | .unreadDatum | .unbalancedList | .strayClose | .unterminatedString _
  | .danglingQuote => .malformed
  | .missingExpression | .sigilCutShort _ => .endOfInput
  | .wrongArity .. | .expansionTooDeep .. | .renderingTooDeep .. => .expansion
  | .evaluationTooDeep .. | .headIsNoAtom .. | .argumentCount .. | .nameExpected ..
  | .bindingsExpected _ | .bindingIsNoList .. | .parametersAreNoList .. | .signatureExpected ..
  | .parameterIsNoName .. | .parameterUnnamed _ | .parameterRepeated .. | .restNotLast ..
  | .unknownOperator _ => .evaluation
  | .emptySigil | .emptyTable | .zeroDepth | .emptySigilAt _ | .badConfiguration _ =>
    .configuration
  | .unreadable .. | .cannotOpen _ | .cannotCreate _ | .cannotReadConfiguration _ | .device _ =>
    .io
  | .custom kind _ => kind

/-- The message of a fault, without the heading of its kind. -/
def message : Fault → String
  | .notADatum text => "could not parse '" ++ Text.trim text ++ "'"
  | .unreadDatum => "could not parse expression"
  | .unbalancedList => "unbalanced list"
  | .strayClose => "unexpected ')'"
  | .unterminatedString _ => "unterminated string"
  | .danglingQuote => "quote is not followed by an expression"
  | .missingExpression => "input ended where an expression was expected"
  | .sigilCutShort sigil => s!"input ended while matching prefix '{sigil}'"
  | .wrongArity name arity given =>
    "macro '" ++ name ++ "' expects " ++ arity.text ++ s!" argument(s), got {given}"
  | .expansionTooDeep head limit =>
    s!"expansion of '{head}' exceeded the depth limit of {limit}"
  | .renderingTooDeep expr limit => s!"rendering '{expr}' exceeded the depth limit of {limit}"
  | .evaluationTooDeep expr limit =>
    s!"evaluation of '{expr}' exceeded the depth limit of {limit}"
  | .headIsNoAtom form head =>
    s!"cannot evaluate '{form}': a form must start with an atom, not a " ++ head.shape
  | .argumentCount operator wanted given =>
    s!"{operator} expects {wanted} argument(s), got {given}"
  | .nameExpected operator given =>
    s!"{operator} expects a name, got " ++ given.shape ++ s!" '{given}'"
  | .bindingsExpected operator =>
    s!"{operator} expects a list of bindings followed by body forms"
  | .bindingIsNoList operator binding =>
    s!"{operator}: each binding must be a list, got '{binding}'"
  | .parametersAreNoList operator name => s!"{operator}: parameters of '{name}' must be a list"
  | .signatureExpected operator given =>
    s!"{operator} expects a signature list like (name params...), got '{given}'"
  | .parameterIsNoName name parameter => s!"macro '{name}': parameter '{parameter}' is not a name"
  | .parameterUnnamed name => s!"macro '{name}': rest parameter needs a name"
  | .parameterRepeated name parameter => s!"macro '{name}': duplicate parameter '{parameter}'"
  | .restNotLast name parameter =>
    s!"macro '{name}': rest parameter '{parameter}' must come last"
  | .unknownOperator operator => s!"no operator named '{operator}'"
  | .emptySigil => "prefixes must not be empty"
  | .emptyTable => "the prefix table is empty"
  | .zeroDepth => "max_expansion_depth must be at least 1"
  | .emptySigilAt position => s!"prefix #{position} is empty"
  | .badConfiguration none => "invalid configuration"
  | .badConfiguration (some detail) => s!"invalid configuration: {detail}"
  | .unreadable name reason => s!"failed to read from '{name}': {reason}"
  | .cannotOpen path => s!"cannot open '{path}'"
  | .cannotCreate path => s!"cannot create '{path}'"
  | .cannotReadConfiguration path => s!"cannot read configuration '{path}'"
  | .device reason => reason
  | .custom _ message => message

/-- The message of a fault behind the heading of its kind. -/
def fullMessage (f : Fault) : String := f.kind.heading ++ ": " ++ f.message

/-- The advice that goes with a fault. -/
def hint? : Fault → Option String
  | .unbalancedList => some "add the missing ')'"
  | .unterminatedString false => some "add the missing '\"'"
  | .expansionTooDeep .. => some "a macro probably expands into a call to itself"
  | .unknownOperator _ => some "define it with (define-macro (name params...) body)"
  | .emptyTable => some "list at least one entry under 'prefixes'"
  | _ => none

/-- The three faults that a depth limit raises. -/
def isDepthLimit : Fault → Bool
  | .expansionTooDeep .. | .renderingTooDeep .. | .evaluationTooDeep .. => true
  | _ => false

end Fault

end Sigil
