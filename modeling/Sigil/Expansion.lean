import Sigil.Registry
import Sigil.Text.Casing

/-!
# Expansion

One pass over an expression.  A call of a macro has its arguments expanded from left to right and is
replaced by what the macro makes of them; if the settings say so, that is expanded again.  An atom
with a replacement is replaced, once.  Any other list is rebuilt from its expanded elements, its
head included.

Expanding again is bounded: `expandWith` is handed the way to expand what a macro produced, and has
none left when the depth limit is reached.  Every application can be recorded as a step, and the
steps before a failure are kept.
-/

namespace Sigil

/-- The switches of a run. -/
structure Settings where
  /-- What a macro produces is itself expanded. -/
  recursive : Bool := false
  /-- Where names are folded to, in directives that fold. -/
  fold : Text.Fold := .lower
  /-- How many macro applications may be chained. -/
  maxDepth : Nat := 128
deriving DecidableEq, Repr, Inhabited

/-- The two tables that an application can come from. -/
inductive Step.Kind where
  | function
  | symbol
deriving DecidableEq, Repr

/-- One application of a macro. -/
structure Step where
  name : String
  kind : Step.Kind
  before : Expr
  after : Expr
deriving DecidableEq, Repr

/-- The word for a table. -/
def Step.Kind.label : Step.Kind → String
  | .function => "function"
  | .symbol => "symbol"

/-- Expansion may fail and may record steps; without a record, steps are forgotten. -/
abbrev Expanding := ExceptT Failure (StateM (Option (Array Step)))

namespace Expansion

/-- Adds a step to the record, if there is one. -/
def record (step : Step) : Expanding Unit := modify (Option.map (·.push step))

mutual

/-- Expands an expression.  `again?` expands what a macro produced; without it a call fails. -/
def expandWith (r : Registry) (s : Settings) (again? : Option (Expr → Expanding Expr)) :
    Expr → Expanding Expr
  | .str text => pure (.str text)
  | .atom name =>
    match r.symbols.get? name with
    | none => pure (.atom name)
    | some e => do
      record ⟨name, .symbol, .atom name, e⟩
      pure e
  | .list [] => pure (.list [])
  | .list (.atom head :: args) =>
    match r.macros.get? head with
    | none => do
      let head ← expandWith r s again? (.atom head)
      let args ← expandEach r s again? args
      pure (.list (head :: args))
    | some m =>
      match again? with
      | none => throw (.plain (.expansionTooDeep head s.maxDepth))
      | some again => do
        let expanded ← expandEach r s again? args
        let produced ← ExceptT.mk (pure (m.transform expanded))
        record ⟨head, .function, .list (.atom head :: args), produced⟩
        if s.recursive then again produced else pure produced
  | .list (e :: es) => do
    let e ← expandWith r s again? e
    let es ← expandEach r s again? es
    pure (.list (e :: es))

/-- Expands expressions from left to right. -/
def expandEach (r : Registry) (s : Settings) (again? : Option (Expr → Expanding Expr)) :
    List Expr → Expanding (List Expr)
  | [] => pure []
  | e :: es => do
    let e ← expandWith r s again? e
    let es ← expandEach r s again? es
    pure (e :: es)

end

/-- The way to expand what a macro produced, when `n` more applications may be chained. -/
def again? (r : Registry) (s : Settings) : Nat → Option (Expr → Expanding Expr)
  | 0 => none
  | n + 1 => some fun e => expandWith r s (again? r s n) e

/-- Expands an expression. -/
def expand (r : Registry) (s : Settings) (e : Expr) : Expanding Expr :=
  expandWith r s (again? r s s.maxDepth) e

/-- Expands expressions from left to right. -/
def expandAll (r : Registry) (s : Settings) (es : List Expr) : Expanding (List Expr) :=
  expandEach r s (again? r s s.maxDepth) es

end Expansion

/-- The result of an expansion without a record. -/
def Expanding.result {α : Type} (x : Expanding α) : Except Failure α := (x none).1

/-- The result of an expansion and the steps it took. -/
def Expanding.traced {α : Type} (x : Expanding α) : Except Failure α × List Step :=
  let (result, steps) := x (some #[])
  (result, (steps.getD #[]).toList)

/-- The expansion of an expression. -/
def Registry.expand (r : Registry) (s : Settings) (e : Expr) : Except Failure Expr :=
  (Expansion.expand r s e).result

/-- The expansions of expressions, from left to right. -/
def Registry.expandAll (r : Registry) (s : Settings) (es : List Expr) :
    Except Failure (List Expr) :=
  (Expansion.expandAll r s es).result

/-- The expansion of an expression and the steps it took. -/
def Registry.expandTraced (r : Registry) (s : Settings) (e : Expr) :
    Except Failure Expr × List Step :=
  (Expansion.expand r s e).traced

end Sigil
