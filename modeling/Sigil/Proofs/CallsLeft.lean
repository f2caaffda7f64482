import Sigil.Proofs.Names
import Sigil.Proofs.RenderedExpansion

/-!
# Calls that are left

Where no atom has a replacement and what macros produce is expanded again, an expansion is meant to
leave no call of a macro.  `Registry.expand_callFree_iff` says exactly when it does, and that an
expression without calls is expanded no further.

A list that is no call is rebuilt from its expanded elements and not looked at again.  An atom or a
string at its head stays as it is.  But a list there may be expanded to the name of a macro
(`Expansion.Exposes`), and then the rebuilt list is a call that is left
(`Registry.expand_leaves_call`).

1. The elements of a list are expanded one by one (`result_expandEach_iff`), so a rebuilt list
   (`expandsTo_rebuilt_iff`) and a call (`expandsTo_call_iff`) have their results from those of
   their parts.
2. By induction on the applications that are left and on the expression, the result is without calls
   just if none is exposed on the way (`callFree_iff`).
-/

namespace Sigil

/-! ## Expressions without calls -/

/-- No list in the expression starts with the name of a macro. -/
def Expr.CallFree (r : Registry) (e : Expr) : Prop :=
  ∀ items ∈ e.lists, r.called? (.list items) = none

instance (r : Registry) (e : Expr) : Decidable (e.CallFree r) :=
  inferInstanceAs (Decidable (∀ _ ∈ _, _))

namespace Expr

variable {r : Registry}

theorem callFree_atom (name : String) : (atom name).CallFree r := nofun

theorem callFree_str (text : String) : (str text).CallFree r := nofun

theorem callFree_list {es : List Expr} :
    (list es).CallFree r ↔ r.called? (.list es) = none ∧ ∀ e ∈ es, e.CallFree r := by
  simp only [CallFree, lists, List.forall_mem_cons, mem_listsOfItems, forall_exists_index, and_imp]
  refine and_congr_right fun _ => ⟨fun h e he items hi => h items e he hi, ?_⟩
  exact fun h items e he hi => h e he items hi

end Expr

/-! ## Results -/

namespace Expanding

variable {α β : Type}

theorem Logs.result_bind {x : Expanding α} (hx : Logs x) (f : α → Expanding β) :
    (x >>= f).result = x.result.bind fun a => (f a).result := by
  have hnone : x none = (x.result, none) := by rw [hx.result, hx none]; rfl
  unfold Expanding.result at hnone ⊢
  rw [Sigil.bind_apply, hnone]
  cases (x none).1 <;> rfl

theorem Logs.result_bind_iff {x : Expanding α} (hx : Logs x) {f : α → Expanding β} {b : β} :
    (x >>= f).result = .ok b ↔ ∃ a, x.result = .ok a ∧ (f a).result = .ok b := by
  rw [hx.result_bind]
  cases x.result with
  | error e => exact ⟨nofun, fun ⟨_, h, _⟩ => nomatch h⟩
  | ok a =>
    constructor
    · exact fun h => ⟨a, rfl, h⟩
    · rintro ⟨_, ⟨⟩, h⟩
      exact h

end Expanding

namespace Expansion

open Expanding

section

variable {r : Registry} {s : Settings} {n : Nat} {e e' : Expr} {es es' : List Expr}

/-- The expansion of `e` is `e'` when `n` more applications may be chained. -/
def ExpandsTo (r : Registry) (s : Settings) (n : Nat) (e e' : Expr) : Prop :=
  (expandWith r s (again? r s n) e).result = .ok e'

/-- Elements are expanded one by one. -/
theorem result_expandEach_iff : (expandEach r s (again? r s n) es).result = .ok es' ↔
    List.Forall₂ (ExpandsTo r s n) es es' := by
  induction es generalizing es' with
  | nil =>
    rw [expandEach_nil, List.forall₂_nil_left_iff]
    exact ⟨fun h => (Except.ok.inj h).symm, fun h => h ▸ rfl⟩
  | cons e es ih =>
    rw [expandEach_cons, (logs_expandWith n e).result_bind_iff, List.forall₂_cons_left_iff]
    simp only [(logs_expandEach n es).result_bind_iff, ih]
    constructor
    · rintro ⟨a, ha, as, has, ⟨⟩⟩
      exact ⟨a, as, ha, has, rfl⟩
    · rintro ⟨a, as, ha, has, rfl⟩
      exact ⟨a, ha, as, has, rfl⟩

/-- A list that is no call, as a whole. -/
theorem expandWith_of_not_called {again : Option (Expr → Expanding Expr)}
    (h : r.called? (.list es) = none) :
    expandWith r s again (.list es) = (do
      let es ← expandEach r s again es
      pure (.list es)) := by
  cases es with
  | nil => rfl
  | cons e es => simp only [expandWith_rebuild s h, expandEach_cons, bind_assoc, pure_bind]

/-- **Rebuilding.** -/
theorem expandsTo_rebuilt_iff (h : r.called? (.list es) = none) :
    ExpandsTo r s n (.list es) e' ↔
      ∃ es', e' = .list es' ∧ List.Forall₂ (ExpandsTo r s n) es es' := by
  unfold ExpandsTo
  rw [expandWith_of_not_called h, (logs_expandEach n es).result_bind_iff]
  simp only [result_expandEach_iff]
  constructor
  · rintro ⟨es', hes, ⟨⟩⟩
    exact ⟨es', rfl, hes⟩
  · rintro ⟨es', rfl, hes⟩
    exact ⟨es', hes, rfl⟩

/-- **Calling.** -/
theorem expandsTo_call_iff (hs : s.recursive = true) {head : String} {m : Macro}
    (hm : r.macros.get? head = some m) :
    ExpandsTo r s n (.list (.atom head :: es)) e' ↔
      ∃ k expanded produced, n = k + 1 ∧ List.Forall₂ (ExpandsTo r s n) es expanded ∧
        m.transform expanded = .ok produced ∧ ExpandsTo r s k produced e' := by
  unfold ExpandsTo
  rw [expandWith_call s es hm]
  cases n with
  | zero => exact ⟨nofun, fun ⟨_, _, _, hk, _⟩ => nomatch hk⟩
  | succ k =>
    show (expandEach r s (again? r s (k + 1)) es >>= _).result = .ok e' ↔ _
    simp only [(logs_expandEach (k + 1) es).result_bind_iff, (logs_mk _).result_bind_iff,
      (logs_record _).result_bind_iff, result_expandEach_iff, hs, if_true]
    constructor
    · rintro ⟨expanded, hexpanded, produced, hproduced, -, -, hresult⟩
      exact ⟨k, expanded, produced, rfl, hexpanded, hproduced, hresult⟩
    · rintro ⟨_, expanded, produced, ⟨⟩, hexpanded, hproduced, hresult⟩
      exact ⟨expanded, hexpanded, produced, hproduced, (), rfl, hresult⟩

theorem expandsTo_atom_iff (h : ∀ name, r.symbols.get? name = none) {name : String} :
    ExpandsTo r s n (.atom name) e' ↔ e' = .atom name := by
  unfold ExpandsTo
  rw [expandWith_atom, h name]
  exact ⟨fun h => (Except.ok.inj h).symm, fun h => h ▸ rfl⟩

theorem expandsTo_str_iff {text : String} : ExpandsTo r s n (.str text) e' ↔ e' = .str text := by
  unfold ExpandsTo
  rw [expandWith_str]
  exact ⟨fun h => (Except.ok.inj h).symm, fun h => h ▸ rfl⟩

end

/-! ## Exposed calls -/

/-- With `n` applications left, the expansion of an expression exposes a call: somewhere in what
becomes the result, the head of a list that is no call is itself a list and is expanded to the name
of a macro. -/
inductive Exposes (r : Registry) (s : Settings) : Nat → Expr → Prop
  | head {n : Nat} {inner es : List Expr} {name : String} {m : Macro}
    (hhead : ExpandsTo r s n (.list inner) (.atom name)) (hm : r.macros.get? name = some m) :
    Exposes r s n (.list (.list inner :: es))
  | item {n : Nat} {es : List Expr} {e : Expr} (hm : r.called? (.list es) = none) (he : e ∈ es)
    (h : Exposes r s n e) : Exposes r s n (.list es)
  | product {n : Nat} {head : String} {m : Macro} {args expanded : List Expr} {produced : Expr}
    (hm : r.macros.get? head = some m)
    (hargs : List.Forall₂ (ExpandsTo r s (n + 1)) args expanded)
    (hproduced : m.transform expanded = .ok produced) (h : Exposes r s n produced) :
    Exposes r s (n + 1) (.list (.atom head :: args))

section

variable {r : Registry} {s : Settings} {n : Nat} {e e' : Expr} {es es' : List Expr}

/-- **The head of a rebuilt list.**  It names a macro just if it was a list that came to that. -/
theorem called?_rebuilt_iff (hsym : ∀ name, r.symbols.get? name = none)
    (hm : r.called? (.list es) = none) (h : List.Forall₂ (ExpandsTo r s n) es es') :
    r.called? (.list es') ≠ none ↔ ∃ inner rest name m, es = .list inner :: rest ∧
      ExpandsTo r s n (.list inner) (.atom name) ∧ r.macros.get? name = some m := by
  cases h with
  | nil => exact ⟨fun h => absurd rfl h, fun ⟨_, _, _, _, h, _⟩ => nomatch h⟩
  | @cons e e' es es' he hes =>
    cases e with
    | atom name =>
      -- the head is the same, so this is no call either
      rw [expandsTo_atom_iff hsym] at he
      subst he
      exact ⟨fun h => absurd hm h, fun ⟨_, _, _, _, h, _⟩ => nomatch h⟩
    | str text =>
      rw [expandsTo_str_iff] at he
      subst he
      exact ⟨fun h => absurd rfl h, fun ⟨_, _, _, _, h, _⟩ => nomatch h⟩
    | list inner =>
      constructor
      · intro hcall
        obtain ⟨m, hm'⟩ := Option.ne_none_iff_exists'.1 hcall
        obtain ⟨name, rfl, hname⟩ := Registry.exists_of_called? hm'
        exact ⟨inner, es, name, m, rfl, he, hname⟩
      · rintro ⟨_, _, name, m, ⟨⟩, hhead, hname⟩
        -- the head has one expansion
        cases he.symm.trans hhead
        show r.macros.get? name ≠ none
        rw [hname]
        exact Option.some_ne_none m

/-- A list that is no call exposes one at its head or in an element. -/
theorem exposes_rebuilt_iff (hm : r.called? (.list es) = none) :
    Exposes r s n (.list es) ↔
      (∃ inner rest name m, es = .list inner :: rest ∧
        ExpandsTo r s n (.list inner) (.atom name) ∧ r.macros.get? name = some m) ∨
      ∃ e ∈ es, Exposes r s n e := by
  constructor
  · intro h
    cases h with
    | head hhead hname => exact .inl ⟨_, _, _, _, rfl, hhead, hname⟩
    | item _ he h => exact .inr ⟨_, he, h⟩
    | product hcall => cases hm.symm.trans hcall
  · rintro (⟨inner, rest, name, m, rfl, hhead, hname⟩ | ⟨e, he, h⟩)
    · exact .head hhead hname
    · exact .item hm he h

/-- A call exposes what its product exposes. -/
theorem exposes_call_iff {head : String} {m : Macro} {expanded : List Expr} {produced : Expr}
    (hm : r.macros.get? head = some m) (hargs : List.Forall₂ (ExpandsTo r s (n + 1)) es expanded)
    (hproduced : m.transform expanded = .ok produced) :
    Exposes r s (n + 1) (.list (.atom head :: es)) ↔ Exposes r s n produced := by
  constructor
  · intro h
    cases h with
    | item hcall => cases hcall.symm.trans (show r.called? (.list (.atom head :: es)) = _ from hm)
    | product hm' hargs' hproduced' h =>
      -- macro, arguments and product are the same
      cases hm.symm.trans hm'
      cases (result_expandEach_iff.2 hargs).symm.trans (result_expandEach_iff.2 hargs')
      cases hproduced.symm.trans hproduced'
      exact h
  · exact .product hm hargs hproduced

/-- The elements of a rebuilt list, one by one. -/
theorem forall_callFree_iff (hes : List.Forall₂ (ExpandsTo r s n) es es')
    (ih : ∀ e ∈ es, ∀ e', ExpandsTo r s n e e' → (e'.CallFree r ↔ ¬ Exposes r s n e)) :
    (∀ e' ∈ es', e'.CallFree r) ↔ ¬ ∃ e ∈ es, Exposes r s n e := by
  induction hes with
  | nil => simp only [List.not_mem_nil, false_and, exists_false, not_false_iff, false_implies,
      implies_true]
  | cons he _ ihes =>
    obtain ⟨hfirst, hrest⟩ := List.forall_mem_cons.1 ih
    rw [List.forall_mem_cons, List.exists_mem_cons_iff, not_or, hfirst _ he, ihes hrest]

/-- One level: products are expanded with one application less. -/
theorem callFree_iff_of_again (hsym : ∀ name, r.symbols.get? name = none)
    (hs : s.recursive = true)
    (ha : ∀ k, n = k + 1 → ∀ e e', ExpandsTo r s k e e' → (e'.CallFree r ↔ ¬ Exposes r s k e))
    (h : ExpandsTo r s n e e') : e'.CallFree r ↔ ¬ Exposes r s n e := by
  induction e using Expr.induct generalizing e' with
  | atom name =>
    obtain rfl := (expandsTo_atom_iff hsym).1 h
    exact iff_of_true (Expr.callFree_atom name) nofun
  | str text =>
    obtain rfl := expandsTo_str_iff.1 h
    exact iff_of_true (Expr.callFree_str text) nofun
  | list es ih =>
    cases hm : r.called? (.list es) with
    | none =>
      obtain ⟨es', rfl, hes⟩ := (expandsTo_rebuilt_iff hm).1 h
      rw [Expr.callFree_list, exposes_rebuilt_iff hm, not_or, ← called?_rebuilt_iff hsym hm hes,
        not_not, forall_callFree_iff hes fun e he e' => ih e he]
    | some m =>
      cases es with
      | nil => cases hm
      | cons e es =>
        obtain ⟨head, rfl, hm⟩ := Registry.exists_of_called? hm
        obtain ⟨k, expanded, produced, rfl, hargs, hproduced, hto⟩ := (expandsTo_call_iff hs hm).1 h
        rw [ha k rfl produced e' hto, exposes_call_iff hm hargs hproduced]

/-- **Calls that are left** are those that were exposed. -/
theorem callFree_iff (hsym : ∀ name, r.symbols.get? name = none) (hs : s.recursive = true)
    (h : ExpandsTo r s n e e') : e'.CallFree r ↔ ¬ Exposes r s n e := by
  induction n generalizing e e' with
  | zero => exact callFree_iff_of_again hsym hs nofun h
  | succ n ih =>
    refine callFree_iff_of_again hsym hs (fun k hk e e' hto => ?_) h
    cases hk
    exact ih hto

/-! ## Expressions that are expanded no further -/

section

variable {again : Option (Expr → Expanding Expr)}

theorem expandEach_of_forall (h : ∀ e ∈ es, expandWith r s again e = pure e) :
    expandEach r s again es = pure es := by
  induction es with
  | nil => rfl
  | cons e es ih =>
    obtain ⟨he, hes⟩ := List.forall_mem_cons.1 h
    rw [expandEach_cons, he, ih hes, pure_bind, pure_bind]

/-- Where there is nothing to replace and no call, nothing is done. -/
theorem expandWith_of_callFree (hsym : ∀ name ∈ e.names, r.symbols.get? name = none)
    (he : e.CallFree r) : expandWith r s again e = pure e := by
  induction e using Expr.induct with
  | atom name => rw [expandWith_atom, hsym name (List.mem_singleton_self name)]
  | str text => rw [expandWith_str]
  | list es ih =>
    obtain ⟨hm, hes⟩ := Expr.callFree_list.1 he
    have heach : ∀ e ∈ es, expandWith r s again e = pure e := fun e h =>
      ih e h (fun name hn => hsym name (Expr.mem_namesOfItems.2 ⟨e, h, hn⟩)) (hes e h)
    rw [expandWith_of_not_called hm, expandEach_of_forall heach, pure_bind]

end

end

end Expansion

namespace Registry

/-- **Expanding until no calls are left.**  Where no atom has a replacement and products are
expanded again, the expansion is without calls just if it exposes none on the way; and an expression
without calls is its own expansion, in no steps and under any settings. -/
theorem expand_callFree_iff (r : Registry) (hsym : ∀ name, r.symbols.get? name = none)
    (s : Settings) (hs : s.recursive = true) (e e' : Expr) (h : r.expand s e = .ok e') :
    (e'.CallFree r ↔ ¬ Expansion.Exposes r s s.maxDepth e) ∧
      (e'.CallFree r → ∀ t : Settings, r.expandTraced t e' = (.ok e', [])) := by
  refine ⟨Expansion.callFree_iff hsym hs h, fun he' t => ?_⟩
  rw [expandTraced, Expansion.expand,
    Expansion.expandWith_of_callFree (fun name _ => hsym name) he', Expanding.traced_pure]

/-- A macro whose product has calls in its argument, down to the last of them. -/
theorem expand_callFree_iff_nested :
    let double : Template := ⟨"double", { required := ["x"] }, .list [.atom "x", .atom "x"]⟩
    let quad : Template := ⟨"quad", { required := ["x"] },
      .list [.atom "double", .list [.atom "double", .atom "x"]]⟩
    let r := (empty.defineMacro "double" (.ofTemplate double)).defineMacro "quad" (.ofTemplate quad)
    let s : Settings := { recursive := true }
    let e : Expr := .list [.atom "quad", .atom "1"]
    let e' : Expr := .list [.list [.atom "1", .atom "1"], .list [.atom "1", .atom "1"]]
    r.expand s e = .ok e' ∧ ¬ Expansion.Exposes r s s.maxDepth e ∧
      r.expandTraced s e' = (.ok e', []) := by
  intro double quad r s e e'
  have h : r.expand s e = .ok e' := by decide +kernel
  have hfree : e'.CallFree r := by decide +kernel
  obtain ⟨hiff, hagain⟩ := expand_callFree_iff r (fun _ => rfl) s rfl e e' h
  exact ⟨h, hiff.1 hfree, hagain hfree s⟩

/-- **A call is left.**  What `open` produces has a list at its head that is expanded to the name
`same`; the list is rebuilt as a call of `same`, which another expansion would replace. -/
theorem expand_leaves_call :
    let same : Template := ⟨"same", { required := ["x"] }, .atom "x"⟩
    let opening : Template :=
      ⟨"open", {}, .list [.list [.atom "same", .atom "same"], .atom "a"]⟩
    let r := (empty.defineMacro "same" (.ofTemplate same)).defineMacro "open" (.ofTemplate opening)
    let s : Settings := { recursive := true }
    let left : Expr := .list [.atom "same", .atom "a"]
    (∀ name, r.symbols.get? name = none) ∧ r.expand s (.list [.atom "open"]) = .ok left ∧
      ¬ left.CallFree r ∧ r.expand s left = .ok (.atom "a") ∧
      r.expandTraced s left ≠ (.ok left, []) := by
  intro same opening r s left
  have hleft : ¬ left.CallFree r := by decide +kernel
  exact ⟨fun _ => rfl, by decide +kernel, hleft, by decide +kernel, by decide +kernel⟩

end Registry

end Sigil
