import Sigil.Run

/-!
# Directives

What happens behind a sigil.  Four handlers are built in; each reads exactly one expression.
Handlers that print or only evaluate fold the case of names, handlers that render keep it.
-/

namespace Sigil

/-- What a directive may consult. -/
structure Context where
  settings : Settings
  host : Host

/-- Something that runs when its sigil has been read. -/
structure Directive where
  /-- The name in listings. -/
  name : String := "custom"
  /-- What is done behind the given sigil. -/
  run : Context → String → Run Unit

/-- The built-in handlers. -/
inductive Handler where
  /-- Print the expansion of the expression. -/
  | printExpanded
  /-- Evaluate the expression and print nothing. -/
  | evaluateSilently
  /-- Render the value of the expression. -/
  | renderEvaluated
  /-- Render the expansion of the expression. -/
  | renderExpanded
deriving DecidableEq, Repr

namespace Handler

/-- The built-in handlers, in the order in which they are listed. -/
def all : List Handler := [.printExpanded, .evaluateSilently, .renderEvaluated, .renderExpanded]

/-- The name of a handler. -/
def label : Handler → String
  | .printExpanded => "print_expanded"
  | .evaluateSilently => "evaluate_silently"
  | .renderEvaluated => "render_evaluated"
  | .renderExpanded => "render_expanded"

/-- The handler of a given name. -/
def ofLabel? (name : String) : Option Handler := all.find? (·.label == name)

theorem ofLabel?_label (h : Handler) : ofLabel? h.label = some h := by cases h <;> rfl

/-- How a handler treats the case of names. -/
def casing (h : Handler) (s : Settings) : Text.Casing :=
  match h with
  | .printExpanded | .evaluateSilently => .fold s.fold
  | .renderEvaluated | .renderExpanded => .keep

/-- What a handler does with the expression that it has read. -/
def perform (h : Handler) (cx : Context) (e : Expr) : Run Unit :=
  match h with
  | .printExpanded => do
    let expanded ← Run.expand cx.settings e
    Run.emit expanded.printed
  | .evaluateSilently => do
    let _ ← Run.evaluate (cx.host e)
    pure ()
  | .renderEvaluated => do
    let value ← Run.evaluate (cx.host e)
    let text ← Run.render cx.settings value
    Run.emit text
  | .renderExpanded => do
    let expanded ← Run.expand cx.settings e
    let text ← Run.render cx.settings expanded
    Run.emit text

/-- The directive of a handler. -/
def directive (h : Handler) : Directive where
  name := h.label
  run cx _ := do
    let e ← Run.read (h.casing cx.settings)
    h.perform cx e

end Handler

end Sigil
