import Sigil.Proofs.RenderedExpansion

/-!
# Chains of macros and the depth limits

Expansion refuses a call when no application is left.  Rendering and evaluation refuse whatever they
meet when no level is left, and they start with one level more than the limit; the evaluator expands
each call on its own, from the start.  `Registry.depth_limits_agree`: all the same, each of them
gets to the end of a chain of macros just if the chain is no longer than the limit.

1. What uses up one application for each step, and cannot make one without, goes through chains of
   at most as many steps as applications are left (`CountsDown.goes_through_iff`).
2. Expansion, rendering and evaluation count down in this way along calls (`countsDown_expand`,
   `countsDown_render`, `countsDown_eval_calls`), and the last two along replacements of atoms
   (`countsDown_eval_symbols`).
-/

namespace Sigil

/-! ## Counting down -/

/-- With at most `limit` applications left, `run` uses up one of them for each step from an
expression to the next, and makes none if none is left. -/
structure CountsDown {β : Type} (limit : Nat) (step : Expr → Expr → Prop)
    (run : Nat → Expr → Except Failure β) : Prop where
  spent : ∀ e e', step e e' → ∀ b, run 0 e ≠ .ok b
  once : ∀ e e', step e e' → ∀ k < limit, run (k + 1) e = run k e'

/-- **Counting.**  Where the last expression of a chain goes through at once, the first one does
just if as many applications are left as the chain has steps. -/
theorem CountsDown.goes_through_iff {β : Type} {limit : Nat} {step : Expr → Expr → Prop}
    {run : Nat → Expr → Except Failure β} (h : CountsDown limit step run) {last : Expr} {b : β}
    (hlast : ∀ k, run k last = .ok b) {e : Expr} {es : List Expr} {k : Nat} (hk : k ≤ limit)
    (hchain : (e :: es).IsChain step) (hend : (e :: es).getLast? = some last) :
    (∃ b, run k e = .ok b) ↔ es.length ≤ k := by
  induction es generalizing e k with
  | nil =>
    obtain rfl : e = last := Option.some.inj hend
    exact iff_of_true ⟨b, hlast k⟩ (Nat.zero_le k)
  | cons e' es ih =>
    obtain ⟨hstep, hchain⟩ := List.isChain_cons_cons.1 hchain
    cases k with
    | zero => exact iff_of_false (fun ⟨b, hb⟩ => h.spent e e' hstep b hb) (Nat.not_succ_le_zero _)
    | succ k =>
      rw [List.getLast?_cons_cons] at hend
      rw [h.once e e' hstep k hk, ih (Nat.le_of_succ_le hk) hchain hend, List.length_cons,
        Nat.add_le_add_iff_right]

/-! ## Macros without parameters -/

namespace Template

section

variable {lookup : String → Option Argument}

mutual

theorem substitute_of_none (h : ∀ name, lookup name = none) : (e : Expr) →
    substitute lookup e = e
  | .atom name => by rw [substitute, h]
  | .str text => by rw [substitute]
  | .list items => by rw [substitute, substituteItems_of_none h items, ite_self]

theorem substituteItems_of_none (h : ∀ name, lookup name = none) : (es : List Expr) →
    substituteItems lookup es = es
  | [] => by rw [substituteItems]
  | e :: es => by
    have hnone : e.name?.bind lookup = none := Option.bind_eq_none_iff.2 fun name _ => h name
    rw [substituteItems, hnone, substitute_of_none h e, substituteItems_of_none h es]

end

end

/-- Without parameters and arguments, a template stands for its body. -/
theorem instantiate_nil {t : Template} (h : t.params = {}) : t.instantiate [] = .ok t.body := by
  have hbound : ∀ name, bound? {} [] name = none := fun _ => rfl
  have hargument : ∀ name, argument? {} [] name = none := by
    intro name
    unfold argument?
    rw [hbound, Option.none_or]
    cases undotted? name <;> rfl
  have hadmits : (Params.arity {}).admits ([] : List Expr).length = true := rfl
  rw [instantiate, h, if_pos hadmits, substitute_of_none hargument]

end Template

/-- The call of a macro without arguments. -/
def Expr.call (name : String) : Expr := .list [.atom name]

namespace Registry

/-- The expression calls a template without parameters that has the given body; its name is none of
the evaluator's operators. -/
def Calls (r : Registry) (e body : Expr) : Prop :=
  ∃ (name : String) (t : Template), e = .call name ∧ Evaluation.Operator.ofName? name = none ∧
    (r.macros.get? name).map Macro.transform = some t.instantiate ∧ t.params = {} ∧ t.body = body

/-- The expression is an atom with the given replacement. -/
def Substitutes (r : Registry) (e replacement : Expr) : Prop :=
  ∃ name, e = .atom name ∧ r.symbols.get? name = some replacement

theorem Calls.exists_macro {r : Registry} {e body : Expr} (h : r.Calls e body) :
    ∃ name m, e = .list [.atom name] ∧ Evaluation.Operator.ofName? name = none ∧
      r.macros.get? name = some m ∧ m.transform [] = .ok body := by
  obtain ⟨name, t, rfl, hop, hm, hparams, rfl⟩ := h
  obtain ⟨m, hm, ht⟩ := Option.map_eq_some_iff.1 hm
  exact ⟨name, m, rfl, hop, hm, by rw [ht, Template.instantiate_nil hparams]⟩

end Registry

/-! ## Expansion -/

namespace Expansion

variable {r : Registry} {s : Settings}

theorem result_call {name : String} {m : Macro} {body : Expr} (f : Expr → Expanding Expr)
    (hm : r.macros.get? name = some m) (hbody : m.transform [] = .ok body) :
    (expandWith r s (some f) (.list [.atom name])).result =
      if s.recursive then (f body).result else .ok body := by
  rw [expandWith_call s [] hm]
  dsimp only
  rw [expandEach_nil, pure_bind, hbody]
  cases s.recursive <;> rfl

theorem countsDown_expand (hs : s.recursive = true) (limit : Nat) :
    CountsDown limit r.Calls fun k e => (expandWith r s (again? r s k) e).result where
  spent e body h b := by
    obtain ⟨name, m, rfl, -, hm, -⟩ := h.exists_macro
    rw [expandWith_call s [] hm]
    intro hb
    cases hb
  once e body h k _ := by
    obtain ⟨name, m, rfl, -, hm, hbody⟩ := h.exists_macro
    exact (result_call _ hm hbody).trans (by rw [hs, if_pos rfl])

end Expansion

/-- A call is replaced once, if an application is allowed. -/
theorem Registry.Calls.expand {r : Registry} {s : Settings} {e body : Expr} (h : r.Calls e body)
    (hs : s.recursive = false) (hdepth : 0 < s.maxDepth) : r.expand s e = .ok body := by
  obtain ⟨name, m, rfl, -, hm, hbody⟩ := h.exists_macro
  obtain ⟨k, hk⟩ := Nat.exists_eq_add_of_lt hdepth
  rw [Registry.expand, Expansion.expand, hk, Nat.zero_add]
  exact (Expansion.result_call _ hm hbody).trans (by rw [hs]; rfl)

/-! ## Rendering -/

namespace Rendering

variable {r : Registry} {s : Settings} {step : Expr → Expr → Prop}

theorem renderWith_of_calls {e body : Expr} (h : r.Calls e body) (again : Expr → Rendering Unit) :
    renderWith r s again e = again body := by
  obtain ⟨name, m, rfl, -, hm, hbody⟩ := h.exists_macro
  rw [renderWith_call s [] hm]
  show (do
    let produced ← ExceptT.mk (pure (m.transform []))
    again produced) = again body
  rw [hbody]
  rfl

theorem renderWith_of_substitutes {e replacement : Expr} (h : r.Substitutes e replacement)
    (again : Expr → Rendering Unit) : renderWith r s again e = again replacement := by
  obtain ⟨name, rfl, hname⟩ := h
  rw [renderWith_atom, hname]

/-- Rendering counts down along any steps that it makes one level deeper. -/
theorem countsDown_render
    (h : ∀ e e', step e e' → ∀ again, renderWith r s again e = again e') (limit : Nat) :
    CountsDown limit step fun k e => (renderWithin r s (k + 1) e "").1 where
  spent e e' hstep b := by
    rw [renderWithin, h e e' hstep]
    intro hb
    cases hb
  once e e' hstep k _ := by rw [renderWithin, h e e' hstep]

end Rendering

theorem Registry.exists_render_iff {r : Registry} {s : Settings} {e : Expr} :
    (∃ text, r.render s e = .ok text) ↔
      ∃ u, (Rendering.renderWithin r s (s.maxDepth + 1) e "").1 = .ok u := by
  simp only [render_eq_ok_iff]
  constructor
  · rintro ⟨text, h⟩
    exact ⟨(), congrArg Prod.fst h⟩
  · rintro ⟨u, h⟩
    exact ⟨_, Prod.ext h rfl⟩

/-! ## Evaluation -/

namespace Evaluation

variable {r : Registry} {s : Settings}

theorem countsDown_eval_symbols (limit : Nat) :
    CountsDown limit r.Substitutes fun k e => (evalWithin s (k + 1) e r).1 where
  spent e e' h b := by
    obtain ⟨name, rfl, hname⟩ := h
    rw [evalWithin_atom, hname]
    intro hb
    cases hb
  once e e' h k _ := by
    obtain ⟨name, rfl, hname⟩ := h
    rw [evalWithin_atom, hname]

theorem evalWithin_of_calls {e body : Expr} (h : r.Calls e body) (k : Nat) :
    evalWithin s (k + 1) e r =
      match r.expand s e with
      | .error f => (.error f, r)
      | .ok e => evalWithin s k e r := by
  obtain ⟨name, m, rfl, hop, hm, -⟩ := h.exists_macro
  have hcall := evalWithin_call s k [] hop r
  rw [hm] at hcall
  exact hcall

/-- Evaluation expands each call from the start, where an application is allowed if one is left. -/
theorem countsDown_eval_calls (hs : s.recursive = false) :
    CountsDown s.maxDepth r.Calls fun k e => (evalWithin s (k + 1) e r).1 where
  spent e body h b := by
    rw [evalWithin_of_calls h]
    intro hb
    cases hx : r.expand s e <;> rw [hx] at hb <;> cases hb
  once e body h k hk := by
    rw [evalWithin_of_calls h, h.expand hs (Nat.zero_lt_of_lt hk)]

end Evaluation

namespace Registry

/-- **Depth limits.**  Take macros without parameters, none of them named as an operator of the
evaluator, each with the call of the next one for its body and the last with an atom that has no
replacement.  Expanding a call of the first one to the end, rendering it in either mode and
evaluating it step by step go through just if there are no more macros than the limit.  So do
rendering and evaluating the first of several atoms, each with the next one for its replacement. -/
theorem depth_limits_agree (r : Registry) (s : Settings) (first : String) (rest : List String)
    (last : String) (hlast : r.symbols.get? last = none) :
    (((first :: rest).map Expr.call ++ [Expr.atom last]).IsChain r.Calls →
      ((∃ e, r.expand { s with recursive := true } (.call first) = .ok e) ↔
        (first :: rest).length ≤ s.maxDepth) ∧
      ((∃ text, r.render s (.call first) = .ok text) ↔ (first :: rest).length ≤ s.maxDepth) ∧
      ((∃ e, (Host.definitions { s with recursive := false } (.call first) r).1 = .ok e) ↔
        (first :: rest).length ≤ s.maxDepth)) ∧
    (((first :: rest).map Expr.atom ++ [Expr.atom last]).IsChain r.Substitutes →
      ((∃ text, r.render s (.atom first) = .ok text) ↔ (first :: rest).length ≤ s.maxDepth) ∧
      ((∃ e, (Host.definitions s (.atom first) r).1 = .ok e) ↔
        (first :: rest).length ≤ s.maxDepth)) := by
  -- what each of the three makes of the atom at the end
  have hexpand : ∀ t k,
      (Expansion.expandWith r t (Expansion.again? r t k) (.atom last)).result =
        .ok (.atom last) := by
    intro t k
    rw [Expansion.expandWith_atom, hlast]
    rfl
  have hrender : ∀ k, (Rendering.renderWithin r s (k + 1) (.atom last) "").1 = .ok () := by
    intro k
    rw [Rendering.renderWithin, Rendering.renderWith_atom, hlast]
    rfl
  have heval : ∀ t k, (Evaluation.evalWithin t (k + 1) (.atom last) r).1 = .ok (.atom last) := by
    intro t k
    rw [Evaluation.evalWithin_atom, hlast]
  have hlength : ∀ form : String → Expr,
      (rest.map form ++ [Expr.atom last]).length = (first :: rest).length := by
    intro form
    rw [List.length_append, List.length_map, List.length_singleton, List.length_cons]
  have hend : ∀ form : String → Expr,
      (form first :: (rest.map form ++ [Expr.atom last])).getLast? = some (.atom last) := by
    intro form
    rw [← List.cons_append, List.getLast?_concat]
  constructor
  · intro hchain
    rw [exists_render_iff, ← hlength Expr.call]
    exact ⟨(Expansion.countsDown_expand rfl _).goes_through_iff (hexpand _) le_rfl hchain
        (hend _),
      (Rendering.countsDown_render (fun _ _ => Rendering.renderWith_of_calls) _).goes_through_iff
        hrender le_rfl hchain (hend _),
      (Evaluation.countsDown_eval_calls rfl).goes_through_iff (heval _) le_rfl hchain (hend _)⟩
  · intro hchain
    rw [exists_render_iff, ← hlength Expr.atom]
    exact ⟨(Rendering.countsDown_render (fun _ _ => Rendering.renderWith_of_substitutes)
        _).goes_through_iff hrender le_rfl hchain (hend _),
      (Evaluation.countsDown_eval_symbols _).goes_through_iff (heval _) le_rfl hchain (hend _)⟩

/-- Two macros and two atoms in a row, with a limit that is just enough and one that is not. -/
theorem depth_limits_agree_two :
    let r := (((empty.defineMacro "f" (.ofTemplate ⟨"f", {}, .call "g"⟩)).defineMacro "g"
      (.ofTemplate ⟨"g", {}, .atom "z"⟩)).defineSymbol "x" (.atom "y")).defineSymbol "y" (.atom "z")
    (r.symbols.get? "z" = none ∧ [Expr.call "f", .call "g", .atom "z"].IsChain r.Calls ∧
      [Expr.atom "x", .atom "y", .atom "z"].IsChain r.Substitutes) ∧
    ((∃ e, r.expand { recursive := true, maxDepth := 2 } (.call "f") = .ok e) ∧
      ¬ ∃ e, r.expand { recursive := true, maxDepth := 1 } (.call "f") = .ok e) ∧
    ((∃ text, r.render { maxDepth := 2 } (.atom "x") = .ok text) ∧
      ¬ ∃ e, (Host.definitions { maxDepth := 1 } (.atom "x") r).1 = .ok e) := by
  intro r
  have hlast : r.symbols.get? "z" = none := rfl
  have hcalls : [Expr.call "f", .call "g", .atom "z"].IsChain r.Calls := by
    have hf : r.Calls (.call "f") (.call "g") :=
      ⟨"f", ⟨"f", {}, .call "g"⟩, rfl, rfl, rfl, rfl, rfl⟩
    have hg : r.Calls (.call "g") (.atom "z") :=
      ⟨"g", ⟨"g", {}, .atom "z"⟩, rfl, rfl, rfl, rfl, rfl⟩
    exact .cons_cons hf (.cons_cons hg (.singleton _))
  have hatoms : [Expr.atom "x", .atom "y", .atom "z"].IsChain r.Substitutes :=
    .cons_cons ⟨"x", rfl, rfl⟩ (.cons_cons ⟨"y", rfl, rfl⟩ (.singleton _))
  have enough := depth_limits_agree r { maxDepth := 2 } "f" ["g"] "z" hlast
  have less := depth_limits_agree r { maxDepth := 1 } "f" ["g"] "z" hlast
  have enough' := depth_limits_agree r { maxDepth := 2 } "x" ["y"] "z" hlast
  have less' := depth_limits_agree r { maxDepth := 1 } "x" ["y"] "z" hlast
  refine ⟨⟨hlast, hcalls, hatoms⟩, ⟨(enough.1 hcalls).1.2 (by decide), fun h => ?_⟩,
    (enough'.2 hatoms).1.2 (by decide), fun h => ?_⟩
  · exact absurd ((less.1 hcalls).1.1 h) (by decide)
  · exact absurd ((less'.2 hatoms).2.1 h) (by decide)

end Registry

end Sigil
