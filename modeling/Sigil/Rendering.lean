import Sigil.Expansion

/-!
# Rendering

An expression as output text.  Atoms appear as their names, strings in quotes, and the elements of a
list one space apart and without parentheses, so nested lists flatten.  Macros are applied on the
way: an atom with a replacement appears as the rendering of that, a call as the rendering of what
the macro makes of its expanded arguments.

What was written before a failure stays written.
-/

namespace Sigil

/-- Rendering may fail and appends to a text. -/
abbrev Rendering := ExceptT Failure (StateM String)

namespace Rendering

/-- Appends a text. -/
def write (text : String) : Rendering Unit := modify (· ++ text)

mutual

/-- Renders an expression; `again` renders what a macro produced. -/
def renderWith (r : Registry) (s : Settings) (again : Expr → Rendering Unit) :
    Expr → Rendering Unit
  | .str text => write (Text.Quoted.literal text)
  | .atom name =>
    match r.symbols.get? name with
    | none => write name
    | some e => again e
  | .list [] => pure ()
  | .list (.atom head :: args) =>
    match r.macros.get? head with
    | none => do
      renderWith r s again (.atom head)
      renderRest r s again args
    | some m => do
      let expanded ← ExceptT.mk (pure (r.expandAll s args))
      let produced ← ExceptT.mk (pure (m.transform expanded))
      again produced
  | .list (e :: es) => do
    renderWith r s again e
    renderRest r s again es

/-- Renders the elements of a list behind its first one, a space before each. -/
def renderRest (r : Registry) (s : Settings) (again : Expr → Rendering Unit) :
    List Expr → Rendering Unit
  | [] => pure ()
  | e :: es => do
    write " "
    renderWith r s again e
    renderRest r s again es

end

/-- Renders an expression when `n - 1` applications may be chained, and fails for `n = 0`. -/
def renderWithin (r : Registry) (s : Settings) : Nat → Expr → Rendering Unit
  | 0, e => throw (.plain (.renderingTooDeep e s.maxDepth))
  | n + 1, e => renderWith r s (renderWithin r s n) e

/-- Renders an expression. -/
def render (r : Registry) (s : Settings) (e : Expr) : Rendering Unit :=
  renderWithin r s (s.maxDepth + 1) e

end Rendering

/-- Appends the rendering of an expression to a text; after a failure, the part before it. -/
def Registry.renderInto (r : Registry) (s : Settings) (text : String) (e : Expr) :
    Except Failure Unit × String :=
  Rendering.render r s e text

/-- The rendering of an expression. -/
def Registry.render (r : Registry) (s : Settings) (e : Expr) : Except Failure String :=
  match r.renderInto s "" e with
  | (.ok (), text) => .ok text
  | (.error f, _) => .error f

end Sigil
