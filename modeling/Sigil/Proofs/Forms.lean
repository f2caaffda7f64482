import Sigil.Evaluation
import Sigil.Rendering

/-!
# Forms, case by case

What expansion, rendering and evaluation do at one node of an expression.  A list is either a call
of a macro or it is rebuilt from its elements (`Registry.called?`); the evaluator looks for an
operator first.  Everything about the three is proved by these equations and not by unfolding.
-/

namespace Sigil

/-- Sequencing: a failure ends the computation with the state that it left. -/
theorem bind_apply {σ α β : Type} (x : ExceptT Failure (StateM σ) α)
    (f : α → ExceptT Failure (StateM σ) β) (s : σ) :
    (x >>= f) s =
      match x s with
      | (.error e, t) => (.error e, t)
      | (.ok a, t) => f a t := by
  show (ExceptT.bindCont f (x s).1) (x s).2 = _
  rcases x s with ⟨e | a, t⟩ <;> rfl

/-- The macro that an expression calls. -/
def Registry.called? (r : Registry) (e : Expr) : Option Macro := e.head?.bind r.macros.get?

theorem Registry.exists_of_called? {r : Registry} {e : Expr} {es : List Expr} {m : Macro}
    (h : r.called? (.list (e :: es)) = some m) :
    ∃ head, e = .atom head ∧ r.macros.get? head = some m := by
  cases e with
  | atom head => exact ⟨head, rfl, h⟩
  | str text => cases h
  | list items => cases h

/-! ## Expansion -/

namespace Expansion

variable {r : Registry} {again : Option (Expr → Expanding Expr)}

theorem expandWith_str (s : Settings) (text : String) :
    expandWith r s again (.str text) = pure (.str text) := rfl

theorem expandWith_atom (s : Settings) (name : String) :
    expandWith r s again (.atom name) =
      match r.symbols.get? name with
      | none => pure (.atom name)
      | some e => (do
        record ⟨name, .symbol, .atom name, e⟩
        pure e) := rfl

theorem expandWith_nil (s : Settings) :
    expandWith r s again (.list []) = pure (.list []) := rfl

/-- A call. -/
theorem expandWith_call (s : Settings) {head : String} {m : Macro} (args : List Expr)
    (h : r.macros.get? head = some m) :
    expandWith r s again (.list (.atom head :: args)) =
      match again with
      | none => throw (.plain (.expansionTooDeep head s.maxDepth))
      | some expandAgain => (do
        let expanded ← expandEach r s again args
        let produced ← ExceptT.mk (pure (m.transform expanded))
        record ⟨head, .function, .list (.atom head :: args), produced⟩
        if s.recursive then expandAgain produced else pure produced) := by
  unfold expandWith
  split
  · next hm => cases h.symm.trans hm
  · next hm =>
    cases h.symm.trans hm
    cases again <;> rfl

/-- A list that is no call. -/
theorem expandWith_rebuild (s : Settings) {e : Expr} {es : List Expr}
    (h : r.called? (.list (e :: es)) = none) :
    expandWith r s again (.list (e :: es)) = (do
      let e ← expandWith r s again e
      let es ← expandEach r s again es
      pure (.list (e :: es))) := by
  cases e with
  | atom head =>
    have hm : r.macros.get? head = none := h
    conv => lhs; rw [expandWith, hm]
  | str text => conv => lhs; unfold expandWith
  | list items => conv => lhs; unfold expandWith

theorem expandEach_nil (s : Settings) : expandEach r s again [] = pure [] := rfl

theorem expandEach_cons (s : Settings) (e : Expr) (es : List Expr) :
    expandEach r s again (e :: es) = (do
      let e ← expandWith r s again e
      let es ← expandEach r s again es
      pure (e :: es)) := rfl

end Expansion

/-! ## Rendering -/

namespace Rendering

variable {r : Registry} {again : Expr → Rendering Unit}

theorem renderWith_str (s : Settings) (text : String) :
    renderWith r s again (.str text) = write (Text.Quoted.literal text) := rfl

theorem renderWith_atom (s : Settings) (name : String) :
    renderWith r s again (.atom name) =
      match r.symbols.get? name with
      | none => write name
      | some e => again e := rfl

theorem renderWith_nil (s : Settings) : renderWith r s again (.list []) = pure () := rfl

/-- A call. -/
theorem renderWith_call (s : Settings) {head : String} {m : Macro} (args : List Expr)
    (h : r.macros.get? head = some m) :
    renderWith r s again (.list (.atom head :: args)) = (do
      let expanded ← ExceptT.mk (pure (r.expandAll s args))
      let produced ← ExceptT.mk (pure (m.transform expanded))
      again produced) := by
  rw [renderWith, h]

/-- A list that is no call. -/
theorem renderWith_rebuild (s : Settings) {e : Expr} {es : List Expr}
    (h : r.called? (.list (e :: es)) = none) :
    renderWith r s again (.list (e :: es)) = (do
      renderWith r s again e
      renderRest r s again es) := by
  cases e with
  | atom head =>
    have hm : r.macros.get? head = none := h
    conv => lhs; rw [renderWith, hm]
  | str text => conv => lhs; unfold renderWith
  | list items => conv => lhs; unfold renderWith

theorem renderRest_nil (s : Settings) : renderRest r s again [] = pure () := rfl

theorem renderRest_cons (s : Settings) (e : Expr) (es : List Expr) :
    renderRest r s again (e :: es) = (do
      write " "
      renderWith r s again e
      renderRest r s again es) := rfl

end Rendering

/-! ## Evaluation -/

namespace Evaluation

theorem evalWithin_zero (s : Settings) (e : Expr) :
    evalWithin s 0 e = lift (fail (.evaluationTooDeep e s.maxDepth)) := rfl

theorem evalWithin_str (s : Settings) (n : Nat) (text : String) :
    evalWithin s (n + 1) (.str text) = pure (.str text) := rfl

theorem evalWithin_atom (s : Settings) (n : Nat) (name : String) (r : Registry) :
    evalWithin s (n + 1) (.atom name) r =
      match r.symbols.get? name with
      | some e => evalWithin s n e r
      | none => (.ok (.atom name), r) := by
  rw [evalWithin, bind_apply]
  show (match r.symbols.get? name with
    | some e => evalWithin s n e
    | none => pure (.atom name) : Evaluating Expr) r = _
  cases r.symbols.get? name <;> rfl

theorem evalWithin_nil (s : Settings) (n : Nat) :
    evalWithin s (n + 1) (.list []) = pure (.list []) := rfl

/-- A form with an operator. -/
theorem evalWithin_operator (s : Settings) (n : Nat) {head : String} {op : Operator}
    (args : List Expr) (h : Operator.ofName? head = some op) :
    evalWithin s (n + 1) (.list (.atom head :: args)) = apply s (evalWithin s n) op head args := by
  rw [evalWithin, h]

/-- Any other form that starts with an atom. -/
theorem evalWithin_call (s : Settings) (n : Nat) {head : String} (args : List Expr)
    (h : Operator.ofName? head = none) (r : Registry) :
    evalWithin s (n + 1) (.list (.atom head :: args)) r =
      match r.macros.get? head with
      | none => (fail (.unknownOperator head), r)
      | some _ =>
        match r.expand s (.list (.atom head :: args)) with
        | .error f => (.error f, r)
        | .ok e => evalWithin s n e r := by
  rw [evalWithin, h]
  dsimp only
  rw [bind_apply]
  show (match r.macros.get? head with
    | none => lift (fail (.unknownOperator head))
    | some _ => do
      let e ← expandNow s (.list (.atom head :: args))
      evalWithin s n e : Evaluating Expr) r = _
  cases r.macros.get? head with
  | none => rfl
  | some m =>
    dsimp only
    rw [bind_apply]
    rw [show expandNow s (.list (.atom head :: args)) r =
      (r.expand s (.list (.atom head :: args)), r) from rfl]
    cases r.expand s (.list (.atom head :: args)) <;> rfl

/-- A form that starts with anything else. -/
theorem evalWithin_headless (s : Settings) (n : Nat) {e : Expr} (es : List Expr)
    (h : e.name? = none) :
    evalWithin s (n + 1) (.list (e :: es)) = lift (fail (.headIsNoAtom (.list (e :: es)) e)) := by
  cases e with
  | atom head => cases h
  | str text => rw [evalWithin]; exact nofun
  | list items => rw [evalWithin]; exact nofun

theorem evalBody_nil (eval : Expr → Evaluating Expr) (last : Expr) :
    evalBody eval last [] = pure last := rfl

theorem evalBody_cons (eval : Expr → Evaluating Expr) (last form : Expr) (forms : List Expr) :
    evalBody eval last (form :: forms) = (do
      let value ← eval form
      evalBody eval value forms) := rfl

theorem evalEach_nil (eval : Expr → Evaluating Expr) : evalEach eval [] = pure [] := rfl

theorem evalEach_cons (eval : Expr → Evaluating Expr) (form : Expr) (forms : List Expr) :
    evalEach eval (form :: forms) = (do
      let value ← eval form
      let values ← evalEach eval forms
      pure (value :: values)) := rfl

end Evaluation

end Sigil
