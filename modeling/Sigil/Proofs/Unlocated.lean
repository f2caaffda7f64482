import Sigil.Proofs.Output
import Sigil.Proofs.Preservation

/-!
# Failures that point nowhere

Expanding, rendering and evaluating never see the text that an expression was read from, so their
failures point nowhere.  A macro that an embedding program has installed may report what it likes;
such a report is handed on as it is (`Registry.Reports`).  `Handler.unlocated_yield`: these are all
the failures behind the reading of an expression.
-/

namespace Sigil

/-! ## Rendering -/

section

variable {F : Failure → Prop} {r : Registry}

namespace Rendering

variable {s : Settings} {again : Expr → Rendering Unit}

theorem settlesBy_write (text : String) : SettlesBy (fun _ => True) F (write text) :=
  .of_ok fun _ => ⟨_, _, rfl⟩

mutual

theorem settlesBy_renderWith (hr : r.Settled (fun _ => True) F)
    (ha : ∀ e, SettlesBy (fun _ => True) F (again e)) : (e : Expr) →
    SettlesBy (fun _ => True) F (renderWith r s again e)
  | .str text => by
    rw [renderWith_str]
    exact settlesBy_write _
  | .atom name => by
    rw [renderWith_atom]
    split
    · exact settlesBy_write _
    · next e _ => exact ha e
  | .list [] => by
    rw [renderWith_nil]
    exact .pure trivial
  | .list (e :: es) => by
    cases hm : r.called? (.list (e :: es)) with
    | none =>
      rw [renderWith_rebuild s hm]
      exact (settlesBy_renderWith hr ha e).bind fun _ _ => settlesBy_renderRest hr ha es
    | some m =>
      obtain ⟨head, rfl, hm⟩ := Registry.exists_of_called? hm
      rw [renderWith_call s es hm]
      refine (SettlesBy.mk (hr.expandAll s fun _ _ _ _ => trivial)).bind fun xs hxs => ?_
      exact (SettlesBy.mk (hr.macros head m hm xs hxs)).bind fun x _ => ha x

theorem settlesBy_renderRest (hr : r.Settled (fun _ => True) F)
    (ha : ∀ e, SettlesBy (fun _ => True) F (again e)) : (es : List Expr) →
    SettlesBy (fun _ => True) F (renderRest r s again es)
  | [] => by
    rw [renderRest_nil]
    exact .pure trivial
  | e :: es => by
    rw [renderRest_cons]
    exact (settlesBy_write " ").bind fun _ _ => (settlesBy_renderWith hr ha e).bind fun _ _ =>
      settlesBy_renderRest hr ha es

end

theorem settlesBy_renderWithin (hr : r.Settled (fun _ => True) F) (n : Nat) (e : Expr) :
    SettlesBy (fun _ => True) F (renderWithin r s n e) := by
  induction n generalizing e with
  | zero => exact fun _ => hr.plain _
  | succ n ih => exact settlesBy_renderWith hr ih e

end Rendering

theorem Registry.Settled.render (hr : r.Settled (fun _ => True) F) (s : Settings) (e : Expr) :
    Settles (fun _ => True) F (r.render s e) := by
  have hx := Rendering.settlesBy_renderWithin (s := s) hr (s.maxDepth + 1) e ""
  unfold Registry.render Registry.renderInto Rendering.render
  generalize Rendering.renderWithin r s (s.maxDepth + 1) e "" = x at hx
  rcases x with ⟨f | _, text⟩
  · exact hx
  · trivial

end

/-! ## Reports -/

/-- A macro of the registry fails with `f` on some arguments. -/
def Registry.Reports (r : Registry) (f : Failure) : Prop :=
  ∃ name m args, r.macros.get? name = some m ∧ m.transform args = .error f

/-- The failure points nowhere, or a macro of the registry has reported it. -/
def Failure.Unlocated (r : Registry) (f : Failure) : Prop := f.source = none ∨ r.Reports f

theorem Registry.settled_of_macros {r registry : Registry}
    (h : ∀ name m, registry.macros.get? name = some m →
      ∀ args f, m.transform args = .error f → f.Unlocated r) :
    registry.Settled (fun _ => True) (Failure.Unlocated r) :=
  ⟨fun name m hm args _ => .of_gives (fun _ _ _ _ => trivial) (h name m hm args),
    fun _ _ _ _ _ => trivial, fun _ => .inl rfl⟩

namespace Evaluation

/-- Evaluation that starts with the macros of `r` fails without a place, or as one of them does. -/
def unlocated (s : Settings) (r : Registry) : Invariant s where
  Name _ := True
  Bound _ m := ∀ args f, m.transform args = .error f → f.Unlocated r
  Failing f := f.Unlocated r
  nil := trivial
  plain _ := .inl rfl
  stamp _ := id
  ofTemplate {_ _ _ t} _ _ _ _ args f hf := by
    simp only [Macro.ofTemplate, Template.instantiate] at hf
    split at hf
    · cases hf
    · cases hf
      exact .inl rfl
  expand hr he := (Registry.settled_of_macros hr.macros).expand s he

theorem holds_unlocated (s : Settings) (r : Registry) : (unlocated s r).Holds r :=
  ⟨fun name m hm args _ hf => .inr ⟨name, m, args, hm, hf⟩,
    fun _ _ _ => ⟨trivial, fun _ _ => trivial⟩⟩

end Evaluation

/-- **Handlers.** What a handler does with an expression fails without a place, or as a macro of the
registry `r` does; and it leaves macros of which the same is true. -/
theorem Handler.unlocated_yield (h : Handler) (settings : Settings) {r registry : Registry}
    (hr : (Evaluation.unlocated settings r).Holds registry) (e : Expr) :
    let y := h.yield ⟨settings, .definitions settings⟩ e registry
    (Evaluation.unlocated settings r).Holds y.2 ∧
      Settles (fun _ => True) (Failure.Unlocated r) y.1 := by
  have hsettled := Registry.settled_of_macros hr.macros
  have hexpand : Settles (Expr.Only fun _ => True) (Failure.Unlocated r)
      (registry.expand settings e) := hsettled.expand settings fun _ _ => trivial
  obtain ⟨hafter, heval⟩ := Evaluation.Invariant.keeps_evalWithin
    (Evaluation.unlocated settings r) (settings.maxDepth + 1) (e := e) (fun _ _ => trivial)
    registry hr
  cases h with
  | printExpanded => exact ⟨hr, hexpand.map fun _ _ => trivial⟩
  | evaluateSilently => exact ⟨hafter, Settles.map heval fun _ _ => trivial⟩
  | renderEvaluated =>
    simp only [yield, Host.definitions]
    generalize Evaluation.evalWithin settings (settings.maxDepth + 1) e registry = x at heval hafter
    obtain ⟨f | value, registry'⟩ := x
    · exact ⟨hafter, heval⟩
    · exact ⟨hafter, (Registry.settled_of_macros hafter.macros).render settings value⟩
  | renderExpanded => exact ⟨hr, hexpand.bind fun value _ => hsettled.render settings value⟩

end Sigil
