import Sigil.Proofs.Forms
import Sigil.Proofs.Reaching

/-!
# Raising the depth limit

`Processor.processText_raise_limit`: a document that was processed without running into a depth
limit is processed in the same way under any higher limit, and a failure that is no depth limit
stays the same failure.

1. An outcome is kept by another if the two are equal or the first is a depth limit (`Kept`); a
   computation is kept if its outcomes are, from every state (`KeptBy`).  Sequencing keeps
   (`KeptBy.bind`), since nothing catches a failure.
2. The limit enters the recursions only through the way to expand, render or evaluate once more.
   Each recursion keeps if that way does (`keptBy_expandWith`, `keptBy_renderWith`, `keptBy_apply`),
   and the limits then follow by induction on the number of levels.
3. A built-in handler keeps (`Handler.kept_effect`), so do the table and the rounds of a document
   (`kept_processFrom`).
-/

namespace Sigil

/-! ## Kept outcomes -/

/-- Failed at a depth limit. -/
def Limited {α : Type} (x : Except Failure α) : Prop :=
  ∃ f, x = .error f ∧ f.fault.isDepthLimit = true

/-- The outcome `y` is the outcome `x`, unless `x` failed at a depth limit. -/
def Kept {α σ : Type} (x y : Except Failure α × σ) : Prop := Limited x.1 ∨ x = y

/-- The computation `y` does what `x` does, from every state from which `x` does not fail at a
depth limit. -/
def KeptBy {α σ : Type} (x y : ExceptT Failure (StateM σ) α) : Prop := ∀ s, Kept (x s) (y s)

section

variable {α β σ : Type}

theorem KeptBy.refl (x : ExceptT Failure (StateM σ) α) : KeptBy x x := fun _ => .inr rfl

/-- A computation that fails at a depth limit is kept by every other. -/
theorem keptBy_of_limited {x y : ExceptT Failure (StateM σ) α} (h : ∀ s, Limited (x s).1) :
    KeptBy x y := fun s => .inl (h s)

theorem KeptBy.bind {x y : ExceptT Failure (StateM σ) α} {f g : α → ExceptT Failure (StateM σ) β}
    (h : KeptBy x y) (hf : ∀ a, KeptBy (f a) (g a)) : KeptBy (x >>= f) (y >>= g) := by
  intro s
  rw [bind_apply, bind_apply]
  rcases h s with ⟨e, he, hl⟩ | he
  · rcases hx : x s with ⟨e' | a, t⟩
    · rw [hx] at he
      cases he
      exact .inl ⟨e, rfl, hl⟩
    · rw [hx] at he
      cases he
  · rw [he]
    rcases y s with ⟨e | a, t⟩
    · exact .inr rfl
    · exact hf a t

/-- A result that is computed without the state. -/
theorem keptBy_mk {x y : Except Failure α} (h : Limited x ∨ x = y) :
    KeptBy (ExceptT.mk (pure x) : ExceptT Failure (StateM σ) α) (ExceptT.mk (pure y)) := by
  intro s
  rcases h with h | rfl
  · exact .inl h
  · exact .inr rfl

theorem Kept.map_fst {x y : Except Failure α × σ} (h : Kept x y) : Limited x.1 ∨ x.1 = y.1 :=
  h.imp_right fun he => congrArg Prod.fst he

theorem Limited.map {x : Except Failure α} (h : Limited x) (f : α → β) : Limited (x.map f) := by
  obtain ⟨e, rfl, hl⟩ := h
  exact ⟨e, rfl, hl⟩

end

/-! ## Expansion -/

namespace Expansion

/-- One way to expand once more is kept by another; having none is kept by any. -/
inductive AgainKept : Option (Expr → Expanding Expr) → Option (Expr → Expanding Expr) → Prop
  | none (g : Option (Expr → Expanding Expr)) : AgainKept none g
  | some {f g : Expr → Expanding Expr} (h : ∀ e, KeptBy (f e) (g e)) : AgainKept (some f) (some g)

section

variable {r : Registry} {s s' : Settings} {f g : Option (Expr → Expanding Expr)}

mutual

theorem keptBy_expandWith (hs : s.recursive = s'.recursive) (h : AgainKept f g) : (e : Expr) →
    KeptBy (expandWith r s f e) (expandWith r s' g e)
  | .str text => by
    rw [expandWith_str, expandWith_str]
    exact .refl _
  | .atom name => by
    rw [expandWith_atom, expandWith_atom]
    exact .refl _
  | .list [] => by
    rw [expandWith_nil, expandWith_nil]
    exact .refl _
  | .list (e :: es) => by
    have heach := keptBy_expandEach hs h es
    cases hm : r.called? (.list (e :: es)) with
    | none =>
      rw [expandWith_rebuild s hm, expandWith_rebuild s' hm]
      exact (keptBy_expandWith hs h e).bind fun _ => heach.bind fun _ => .refl _
    | some m =>
      obtain ⟨head, rfl, hm⟩ := Registry.exists_of_called? hm
      rw [expandWith_call s es hm, expandWith_call s' es hm]
      cases h with
      | none g => exact keptBy_of_limited fun _ => ⟨_, rfl, rfl⟩
      | some hfg =>
        refine heach.bind fun _ => (KeptBy.refl _).bind fun produced =>
          (KeptBy.refl _).bind fun _ => ?_
        rw [hs]
        split
        · exact hfg produced
        · exact .refl _

theorem keptBy_expandEach (hs : s.recursive = s'.recursive) (h : AgainKept f g) :
    (es : List Expr) → KeptBy (expandEach r s f es) (expandEach r s' g es)
  | [] => by
    rw [expandEach_nil, expandEach_nil]
    exact .refl _
  | e :: es => by
    rw [expandEach_cons, expandEach_cons]
    exact (keptBy_expandWith hs h e).bind fun _ =>
      (keptBy_expandEach hs h es).bind fun _ => .refl _

end

theorem againKept_again? (hs : s.recursive = s'.recursive) {m n : Nat} (hmn : m ≤ n) :
    AgainKept (again? r s m) (again? r s' n) := by
  induction m generalizing n with
  | zero => exact .none _
  | succ m ih =>
    obtain ⟨n, rfl⟩ : ∃ k, n = k + 1 := ⟨n - 1, by omega⟩
    exact .some fun e => keptBy_expandWith hs (ih (Nat.le_of_succ_le_succ hmn)) e

end

end Expansion

/-- Settings that differ in the depth limit only, the second with the higher one. -/
structure Settings.Raised (s s' : Settings) : Prop where
  recursive : s.recursive = s'.recursive
  fold : s.fold = s'.fold
  maxDepth : s.maxDepth ≤ s'.maxDepth

variable {s s' : Settings}

/-- **Expanding.** -/
theorem Settings.Raised.expand (h : s.Raised s') (r : Registry) (e : Expr) :
    Limited (r.expand s e) ∨ r.expand s e = r.expand s' e :=
  (Expansion.keptBy_expandWith h.recursive
    (Expansion.againKept_again? h.recursive h.maxDepth) e none).map_fst

theorem Settings.Raised.expandAll (h : s.Raised s') (r : Registry) (es : List Expr) :
    Limited (r.expandAll s es) ∨ r.expandAll s es = r.expandAll s' es :=
  (Expansion.keptBy_expandEach h.recursive
    (Expansion.againKept_again? h.recursive h.maxDepth) es none).map_fst

/-! ## Rendering -/

namespace Rendering

variable {r : Registry} {f g : Expr → Rendering Unit}

mutual

theorem keptBy_renderWith (hs : s.Raised s') (h : ∀ e, KeptBy (f e) (g e)) : (e : Expr) →
    KeptBy (renderWith r s f e) (renderWith r s' g e)
  | .str text => by
    rw [renderWith_str, renderWith_str]
    exact .refl _
  | .atom name => by
    rw [renderWith_atom, renderWith_atom]
    cases r.symbols.get? name with
    | none => exact .refl _
    | some e => exact h e
  | .list [] => by
    rw [renderWith_nil, renderWith_nil]
    exact .refl _
  | .list (e :: es) => by
    cases hm : r.called? (.list (e :: es)) with
    | none =>
      rw [renderWith_rebuild s hm, renderWith_rebuild s' hm]
      exact (keptBy_renderWith hs h e).bind fun _ => keptBy_renderRest hs h es
    | some m =>
      obtain ⟨head, rfl, hm⟩ := Registry.exists_of_called? hm
      rw [renderWith_call s es hm, renderWith_call s' es hm]
      exact (keptBy_mk (hs.expandAll r es)).bind fun _ => (KeptBy.refl _).bind fun produced =>
        h produced

theorem keptBy_renderRest (hs : s.Raised s') (h : ∀ e, KeptBy (f e) (g e)) : (es : List Expr) →
    KeptBy (renderRest r s f es) (renderRest r s' g es)
  | [] => by
    rw [renderRest_nil, renderRest_nil]
    exact .refl _
  | e :: es => by
    rw [renderRest_cons, renderRest_cons]
    exact (KeptBy.refl _).bind fun _ => (keptBy_renderWith hs h e).bind fun _ =>
      keptBy_renderRest hs h es

end

theorem keptBy_renderWithin (hs : s.Raised s') {m n : Nat} (hmn : m ≤ n) (e : Expr) :
    KeptBy (renderWithin r s m e) (renderWithin r s' n e) := by
  induction m generalizing n e with
  | zero => exact keptBy_of_limited fun _ => ⟨_, rfl, rfl⟩
  | succ m ih =>
    obtain ⟨n, rfl⟩ : ∃ k, n = k + 1 := ⟨n - 1, by omega⟩
    rw [renderWithin, renderWithin]
    exact keptBy_renderWith hs (fun e => ih (Nat.le_of_succ_le_succ hmn) e) e

end Rendering

/-- **Rendering.** -/
theorem Settings.Raised.render (h : s.Raised s') (r : Registry) (e : Expr) :
    Limited (r.render s e) ∨ r.render s e = r.render s' e := by
  have hk := Rendering.keptBy_renderWithin (r := r) h (Nat.succ_le_succ h.maxDepth) e ""
  unfold Registry.render Registry.renderInto Rendering.render
  rcases hk with ⟨f, hf, hl⟩ | he
  · left
    generalize Rendering.renderWithin r s (s.maxDepth + 1) e "" = x at hf
    obtain ⟨y, text⟩ := x
    cases hf
    exact ⟨f, rfl, hl⟩
  · right
    rw [he]

/-! ## Evaluation -/

namespace Evaluation

variable {f g : Expr → Evaluating Expr}

theorem keptBy_evalBody (h : ∀ e, KeptBy (f e) (g e)) (last : Expr) (forms : List Expr) :
    KeptBy (evalBody f last forms) (evalBody g last forms) := by
  induction forms generalizing last with
  | nil =>
    rw [evalBody_nil, evalBody_nil]
    exact .refl _
  | cons form forms ih =>
    rw [evalBody_cons, evalBody_cons]
    exact (h form).bind fun value => ih value

theorem keptBy_evalEach (h : ∀ e, KeptBy (f e) (g e)) (forms : List Expr) :
    KeptBy (evalEach f forms) (evalEach g forms) := by
  induction forms with
  | nil =>
    rw [evalEach_nil, evalEach_nil]
    exact .refl _
  | cons form forms ih =>
    rw [evalEach_cons, evalEach_cons]
    exact (h form).bind fun _ => ih.bind fun _ => .refl _

theorem keptBy_expandNow (hs : s.Raised s') (e : Expr) :
    KeptBy (expandNow s e) (expandNow s' e) := by
  intro r
  rcases hs.expand r e with h | h
  · exact .inl h
  · exact .inr (by rw [expandNow, expandNow, h])

/-- Leaving a scope does not hide that its body was limited. -/
theorem kept_withSymbols {x y : Evaluating Expr} (h : KeptBy x y) (r : Registry)
    (bound : List (String × Expr)) : Kept (r.withSymbols bound x) (r.withSymbols bound y) := by
  unfold Registry.withSymbols
  dsimp only
  rcases h { r with symbols := (r.symbols.shadow bound).2 } with hl | he
  · exact .inl hl
  · exact .inr (by rw [he])

theorem kept_withMacros {x y : Evaluating Expr} (h : KeptBy x y) (r : Registry)
    (bound : List (String × Macro)) : Kept (r.withMacros bound x) (r.withMacros bound y) := by
  unfold Registry.withMacros
  dsimp only
  rcases h { r with
    macros := (r.macros.shadow (r.stamped bound)).2
    installed := r.installed + bound.length } with hl | he
  · exact .inl hl
  · exact .inr (by rw [he])

theorem keptBy_apply (hs : s.Raised s') (h : ∀ e, KeptBy (f e) (g e)) (op : Operator)
    (name : String) (args : List Expr) : KeptBy (apply s f op name args) (apply s' g op name args) := by
  cases op with
  | quote => exact .refl _
  | progn => exact keptBy_evalBody h .nil args
  | list => exact (keptBy_evalEach h args).bind fun _ => .refl _
  | defineSymbol => exact .refl _
  | defineMacro => exact .refl _
  | symbolLet =>
    exact (KeptBy.refl _).bind fun (_, body) => (KeptBy.refl _).bind fun bound r =>
      kept_withSymbols (keptBy_evalBody h .nil body) r bound
  | macroLet =>
    exact (KeptBy.refl _).bind fun (_, body) => (KeptBy.refl _).bind fun bound r =>
      kept_withMacros (keptBy_evalBody h .nil body) r bound
  | expand =>
    unfold apply
    dsimp only
    split
    · next form => exact (h form).bind fun value => keptBy_expandNow hs value
    · exact .refl _

theorem keptBy_evalWithin (hs : s.Raised s') {m n : Nat} (hmn : m ≤ n) (e : Expr) :
    KeptBy (evalWithin s m e) (evalWithin s' n e) := by
  induction m generalizing n e with
  | zero => exact keptBy_of_limited fun _ => ⟨_, rfl, rfl⟩
  | succ m ih =>
    obtain ⟨n, rfl⟩ : ∃ k, n = k + 1 := ⟨n - 1, by omega⟩
    have ih := fun e => ih (Nat.le_of_succ_le_succ hmn) e
    match e with
    | .str text =>
      rw [evalWithin_str, evalWithin_str]
      exact .refl _
    | .atom name =>
      intro r
      rw [evalWithin_atom, evalWithin_atom]
      cases r.symbols.get? name with
      | none => exact .inr rfl
      | some e => exact ih e r
    | .list [] =>
      rw [evalWithin_nil, evalWithin_nil]
      exact .refl _
    | .list (.atom head :: args) =>
      cases hop : Operator.ofName? head with
      | some op =>
        rw [evalWithin_operator s m args hop, evalWithin_operator s' n args hop]
        exact keptBy_apply hs ih op head args
      | none =>
        intro r
        rw [evalWithin_call s m args hop, evalWithin_call s' n args hop]
        cases r.macros.get? head with
        | none => exact .inr rfl
        | some _ =>
          rcases hs.expand r (.list (.atom head :: args)) with ⟨f, hf, hl⟩ | he
          · rw [hf]
            exact .inl ⟨f, rfl, hl⟩
          · rw [he]
            cases r.expand s' (.list (.atom head :: args)) with
            | error f => exact .inr rfl
            | ok e => exact ih e r
    | .list (.str text :: es) =>
      rw [evalWithin_headless s m es rfl, evalWithin_headless s' n es rfl]
      exact .refl _
    | .list (.list items :: es) =>
      rw [evalWithin_headless s m es rfl, evalWithin_headless s' n es rfl]
      exact .refl _

end Evaluation

/-- **Evaluating.** -/
theorem Settings.Raised.definitions (h : s.Raised s') (e : Expr) :
    KeptBy (Host.definitions s e) (Host.definitions s' e) :=
  Evaluation.keptBy_evalWithin h (Nat.succ_le_succ h.maxDepth) e

/-! ## Documents -/

/-- The second context does all that the first does below its limit. -/
structure Context.Raised (cx cx' : Context) : Prop where
  settings : cx.settings.Raised cx'.settings
  host : ∀ e, KeptBy (cx.host e) (cx'.host e)

variable {cx cx' : Context}

theorem Sink.kept_emitted (sink : Sink) (registry : Registry) {x y : Except Failure String}
    (h : Limited x ∨ x = y) : Kept (sink.emitted registry x) (sink.emitted registry y) := by
  rcases h with ⟨f, rfl, hl⟩ | rfl
  · exact .inl ⟨f, rfl, hl⟩
  · exact .inr rfl

/-- **Performing.** A built-in handler does the same under a higher limit. -/
theorem Handler.kept_effect (h : Handler) (hc : cx.Raised cx') (e : Expr) (registry : Registry)
    (sink : Sink) : Kept (h.effect cx e registry sink) (h.effect cx' e registry sink) := by
  cases h with
  | printExpanded =>
    refine sink.kept_emitted registry ?_
    rcases hc.settings.expand registry e with hl | he
    · exact .inl (hl.map _)
    · exact .inr (by rw [he])
  | evaluateSilently =>
    rcases hc.host e registry with hl | he
    · exact .inl (hl.map _)
    · exact .inr (by rw [effect, effect, he])
  | renderEvaluated =>
    unfold effect
    dsimp only
    rcases hc.host e registry with ⟨f, hf, hl⟩ | he
    · generalize cx.host e registry = x at hf
      obtain ⟨y, registry'⟩ := x
      cases hf
      exact .inl ⟨f, rfl, hl⟩
    · rw [he]
      rcases cx'.host e registry with ⟨f | value, registry'⟩
      · exact .inr rfl
      · exact sink.kept_emitted registry' (hc.settings.render registry' value)
  | renderExpanded =>
    refine sink.kept_emitted registry ?_
    rcases hc.settings.expand registry e with ⟨f, hf, hl⟩ | he
    · exact .inl ⟨f, by rw [hf]; rfl, hl⟩
    · rw [he]
      cases registry.expand cx'.settings e with
      | error f => exact .inr rfl
      | ok x => exact hc.settings.render registry x

theorem Handler.kept_directive (h : Handler) (hc : cx.Raised cx') (sigil : String) (s : RunState) :
    Kept (h.directive.run cx sigil s) (h.directive.run cx' sigil s) := by
  have hcase : h.casing cx.settings = h.casing cx'.settings := by
    cases h <;> simp only [casing, hc.settings.fold]
  rw [h.directive_apply, h.directive_apply, hcase]
  rcases Datum.read (h.casing cx'.settings) s.input with ⟨f | e, i⟩
  · exact .inr rfl
  · dsimp only
    rcases h.kept_effect hc e s.registry s.sink with hl | he
    · exact .inl hl
    · exact .inr (by rw [he])

theorem kept_dispatchFrom (hc : cx.Raised cx') {table : List Entry} (hb : ∀ e ∈ table, e.BuiltIn)
    (start : Nat) (c : Char) (cut : CutShort) (s : RunState) :
    Kept (dispatchFrom cx start c cut table s) (dispatchFrom cx' start c cut table s) := by
  induction table generalizing cut s with
  | nil => exact .inr rfl
  | cons e es ih =>
    have ih := fun cut s => ih (fun e he => hb e (List.mem_cons_of_mem _ he)) cut s
    obtain ⟨h, hd⟩ := hb e (List.mem_cons_self ..)
    rw [dispatchFrom_cons, dispatchFrom_cons]
    split
    · rcases matchRest e.rest s.input with ⟨f | m, i⟩
      · exact .inr rfl
      · cases m with
        | full =>
          dsimp only
          rw [hd]
          rcases h.kept_directive hc e.sigil { s with input := i } with hl | he
          · exact .inl (hl.map _)
          · exact .inr (by rw [he])
        | differs => exact ih cut _
        | cutShort stop => exact ih _ _
    · exact ih cut s

theorem kept_dispatch (hc : cx.Raised cx') {table : List Entry} (hb : ∀ e ∈ table, e.BuiltIn)
    (c : Char) (s : RunState) : Kept (dispatch cx table c s) (dispatch cx' table c s) := by
  rw [dispatch, dispatch, Run.bind_apply, Run.bind_apply]
  exact kept_dispatchFrom hc hb (s.input.behind c) c none s

/-- **One round** is the same under a higher limit, unless it runs into the lower one. -/
theorem advance_raised (hc : cx.Raised cx') {table : List Entry} (hb : ∀ e ∈ table, e.BuiltIn)
    (s : RunState) :
    (∃ x, advance cx table s = .inl x ∧ Limited x.1) ∨
      advance cx table s = advance cx' table s := by
  rw [advance, advance]
  rcases s.input.setMark.next with ⟨f | _ | c, i⟩
  · exact .inr rfl
  · exact .inr rfl
  · have hk := kept_dispatch hc hb c { s with input := i }
    dsimp only
    generalize dispatch cx table c { s with input := i } = x at hk
    rcases hk with ⟨f, hf, hl⟩ | he
    · obtain ⟨_, t⟩ := x
      cases hf
      exact .inl ⟨(.error f, t), rfl, f, rfl, hl⟩
    · exact .inr (congrArg (settled c) he)

/-- **Rounds.** A document is processed in the same way under a higher limit. -/
theorem kept_processFrom (hc : cx.Raised cx') {table : List Entry} (hb : ∀ e ∈ table, e.BuiltIn)
    (s : RunState) : Kept (processFrom cx table s) (processFrom cx' table s) := by
  induction s using advance_induct cx hb with
  | round s ih =>
    rw [processFrom_advance]
    rcases advance_raised hc hb s with ⟨x, hx, hl⟩ | he
    · rw [hx]
      exact .inl hl
    · rw [processFrom_advance cx' table s, ← he]
      cases ht : advance cx table s with
      | inl x => exact .inr rfl
      | inr t => exact ih t ht

namespace Processor

/-- The processor with built-in evaluation under the given depth limit. -/
def limitedTo (settings : Settings) (table : List Entry) (registry : Registry) (limit : Nat) :
    Processor :=
  { make { settings with maxDepth := limit } table with registry }

theorem raised_limitedTo (settings : Settings) (table : List Entry) (registry : Registry)
    {m n : Nat} (h : m ≤ n) :
    (limitedTo settings table registry m).context.Raised
      (limitedTo settings table registry n).context := by
  have hs : Settings.Raised { settings with maxDepth := m } { settings with maxDepth := n } :=
    ⟨rfl, rfl, h⟩
  exact ⟨hs, hs.definitions⟩

theorem kept_outcome {x y : Except Failure Unit × RunState} (h : Kept x y) :
    Kept (outcome x) (outcome y) := by
  rcases h with ⟨f, hf, hl⟩ | rfl
  · obtain ⟨z, s⟩ := x
    cases hf
    exact .inl ⟨f, rfl, hl⟩
  · exact .inr rfl

/-- **The limit is only a limit.**  What a document comes to under a depth limit, other than to
running into it, it comes to under every higher one. -/
theorem processText_raise_limit (settings : Settings) {table : List Entry}
    (hb : ∀ e ∈ table, e.BuiltIn) (registry : Registry) (text : String) {m n : Nat} (h : m ≤ n) :
    let low := (limitedTo settings table registry m).processText text
    let high := (limitedTo settings table registry n).processText text
    (∀ output, low.1 = .ok output →
      high.1 = .ok output ∧ high.2.registry = low.2.registry) ∧
    (∀ f, low.1 = .error f → f.fault.isDepthLimit = false →
      high.1 = .error f ∧ high.2.registry = low.2.registry) := by
  have hk : Kept
      (outcome ((limitedTo settings table registry m).process (.ofText textName text) (.text "")))
      (outcome ((limitedTo settings table registry n).process (.ofText textName text) (.text ""))) :=
    kept_outcome (kept_processFrom (raised_limitedTo settings table registry h) hb _)
  dsimp only
  rw [processText_eq, processText_eq]
  dsimp only
  rcases hk with ⟨f, hf, hl⟩ | he
  · rw [hf]
    refine ⟨nofun, fun f' hf' hn => ?_⟩
    cases hf'
    rw [hl] at hn
    cases hn
  · rw [he]
    exact ⟨fun output ho => ⟨ho, rfl⟩, fun f hf _ => ⟨hf, rfl⟩⟩

/-- Two levels of evaluation are enough for a definition that a later directive uses, and a call
without its argument fails the same under any limit. -/
theorem processText_raise_limit_standard :
    ((limitedTo {} standardTable .empty 1).processText
        "#.(define-macro (m x) (x x))#c:(m b)\n").1 = .ok "b b\n" ∧
      ((limitedTo {} standardTable .empty 9).processText
        "#.(define-macro (m x) (x x))#c:(m b)\n").1 = .ok "b b\n" ∧
      ((limitedTo {} standardTable .empty 9).processText
        "#.(define-macro (m x) (x x))#:(m)").1 =
        .error (.plain (.wrongArity "m" (.exactly 1) 0)) := by
  have hb : ∀ e ∈ standardTable, e.BuiltIn := fun _ => builtIn_of_mem_standardTable
  have hok : ((limitedTo {} standardTable .empty 1).processText
      "#.(define-macro (m x) (x x))#c:(m b)\n").1 = .ok "b b\n" :=
    processText_eq_of_within Prod.fst 4 (by decide +kernel)
  have herr : ((limitedTo {} standardTable .empty 1).processText
      "#.(define-macro (m x) (x x))#:(m)").1 =
      .error (.plain (.wrongArity "m" (.exactly 1) 0)) :=
    processText_eq_of_within Prod.fst 2 (by decide +kernel)
  exact ⟨hok, ((processText_raise_limit {} hb .empty _ (by decide : 1 ≤ 9)).1 _ hok).1,
    ((processText_raise_limit {} hb .empty _ (by decide : 1 ≤ 9)).2 _ herr (by decide)).1⟩

end Processor

end Sigil
