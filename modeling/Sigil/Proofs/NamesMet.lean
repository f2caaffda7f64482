import Sigil.Proofs.CallsLeft

/-!
# Names that an expansion meets

An expansion looks for replacements of the atoms in an expression, and for macros of the names at
the heads of its lists.  `Registry.expand_by_names_met`: where nothing that a macro produced is
expanded again, that is all that its result and its steps depend on; and where nothing is found, in
either mode, the expression stays as it is.

1. Registries that agree on an expression agree on its parts, and on what it calls
   (`AgreesOn.items`, `AgreesOn.called?`).
2. So they expand it in the same way, by induction on the expression (`expandWith_congr`).  Of the
   way to expand what a macro produced, only whether there is one matters.
-/

namespace Sigil

/-! ## Heads of lists -/

namespace Expr

/-- The names at the heads of the lists in an expression. -/
def heads (e : Expr) : List String := e.lists.filterMap fun items => (list items).head?

theorem mem_heads_list {head : String} {es : List Expr} :
    head ∈ (list es).heads ↔ (list es).head? = some head ∨ ∃ e ∈ es, head ∈ e.heads := by
  simp only [heads, lists, List.mem_filterMap, List.mem_cons, mem_listsOfItems]
  constructor
  · rintro ⟨items, rfl | ⟨e, he, hitems⟩, hhead⟩
    · exact .inl hhead
    · exact .inr ⟨e, he, items, hitems, hhead⟩
  · rintro (hhead | ⟨e, he, items, hitems, hhead⟩)
    · exact ⟨es, .inl rfl, hhead⟩
    · exact ⟨items, .inr ⟨e, he, hitems⟩, hhead⟩

/-- Without macros for its heads, an expression has no calls. -/
theorem callFree_of_heads {r : Registry} {e : Expr}
    (h : ∀ head ∈ e.heads, r.macros.get? head = none) : e.CallFree r := by
  intro items hitems
  rw [Registry.called?, Option.bind_eq_none_iff]
  exact fun head hhead => h head (List.mem_filterMap.2 ⟨items, hitems, hhead⟩)

end Expr

/-! ## Agreement -/

/-- On the names in an expression two registries agree: its atoms have the same replacements, and
the heads of its lists the same macros, whenever these were installed. -/
structure Registry.AgreesOn (r₁ r₂ : Registry) (e : Expr) : Prop where
  symbols : ∀ name ∈ e.names, r₁.symbols.get? name = r₂.symbols.get? name
  macros : ∀ head ∈ e.heads,
    (r₁.macros.get? head).map Macro.transform = (r₂.macros.get? head).map Macro.transform

namespace Registry.AgreesOn

variable {r₁ r₂ : Registry} {es : List Expr}

theorem items (h : r₁.AgreesOn r₂ (.list es)) : ∀ e ∈ es, r₁.AgreesOn r₂ e := by
  intro e he
  constructor
  · exact fun name hname => h.symbols name (Expr.mem_namesOfItems.2 ⟨e, he, hname⟩)
  · exact fun head hhead => h.macros head (Expr.mem_heads_list.2 (.inr ⟨e, he, hhead⟩))

theorem called? (h : r₁.AgreesOn r₂ (.list es)) :
    (r₁.called? (.list es)).map Macro.transform = (r₂.called? (.list es)).map Macro.transform := by
  unfold Registry.called?
  cases hhead : (Expr.list es).head? with
  | none => rfl
  | some head => exact h.macros head (Expr.mem_heads_list.2 (.inl hhead))

end Registry.AgreesOn

/-! ## Expansion -/

namespace Expansion

section

variable {r₁ r₂ : Registry} {s : Settings} {again₁ again₂ : Option (Expr → Expanding Expr)}
  {e : Expr} {es : List Expr}

theorem expandEach_congr
    (h : ∀ e ∈ es, expandWith r₁ s again₁ e = expandWith r₂ s again₂ e) :
    expandEach r₁ s again₁ es = expandEach r₂ s again₂ es := by
  induction es with
  | nil => rfl
  | cons e es ih =>
    obtain ⟨he, hes⟩ := List.forall_mem_cons.1 h
    rw [expandEach_cons, expandEach_cons, he, ih hes]

/-- **Calling.**  Macros that do the same make the same of a call, if their product is not expanded
again. -/
theorem expandWith_call_congr (hs : s.recursive = false) (hagain : again₁.isSome = again₂.isSome)
    {head : String} {m₁ m₂ : Macro} (hm₁ : r₁.macros.get? head = some m₁)
    (hm₂ : r₂.macros.get? head = some m₂) (hm : m₁.transform = m₂.transform)
    (hes : expandEach r₁ s again₁ es = expandEach r₂ s again₂ es) :
    expandWith r₁ s again₁ (.list (.atom head :: es)) =
      expandWith r₂ s again₂ (.list (.atom head :: es)) := by
  rw [expandWith_call s es hm₁, expandWith_call s es hm₂]
  cases again₁ with
  | none =>
    cases again₂ with
    | none => rfl
    | some again => cases hagain
  | some again =>
    cases again₂ with
    | none => cases hagain
    | some again' => simp only [hes, hm, hs, Bool.false_eq_true, if_false]

/-- **Expanding.**  Registries that agree on an expression expand it in the same way, if nothing is
expanded again. -/
theorem expandWith_congr (hs : s.recursive = false) (hagain : again₁.isSome = again₂.isSome)
    (h : r₁.AgreesOn r₂ e) : expandWith r₁ s again₁ e = expandWith r₂ s again₂ e := by
  induction e using Expr.induct with
  | atom name =>
    rw [expandWith_atom, expandWith_atom, h.symbols name (List.mem_singleton_self name)]
  | str text => rfl
  | list es ih =>
    have hitems : ∀ e ∈ es, expandWith r₁ s again₁ e = expandWith r₂ s again₂ e :=
      fun e he => ih e he (h.items e he)
    have hcalled := h.called?
    cases hm₁ : r₁.called? (.list es) with
    | none =>
      rw [hm₁, Option.map_none, eq_comm, Option.map_eq_none_iff] at hcalled
      rw [expandWith_of_not_called hm₁, expandWith_of_not_called hcalled,
        expandEach_congr hitems]
    | some m₁ =>
      rw [hm₁, Option.map_some, eq_comm] at hcalled
      obtain ⟨m₂, hm₂, hm⟩ := Option.map_eq_some_iff.1 hcalled
      cases es with
      | nil => cases hm₁
      | cons e es =>
        obtain ⟨head, rfl, hm₁⟩ := Registry.exists_of_called? hm₁
        have hargs := expandEach_congr fun e he => hitems e (List.mem_cons_of_mem _ he)
        exact expandWith_call_congr hs hagain hm₁ hm₂ hm.symm hargs

theorem isSome_again? (r : Registry) (n : Nat) : (again? r s n).isSome = decide (0 < n) := by
  cases n <;> rfl

theorem expand_congr (hs : s.recursive = false) (h : r₁.AgreesOn r₂ e) :
    expand r₁ s e = expand r₂ s e := by
  refine expandWith_congr hs ?_ h
  rw [isSome_again?, isSome_again?]

end

end Expansion

namespace Registry

/-- **Expansion by the names met.**  Where nothing is expanded again, registries that agree on the
replacements of the atoms in an expression and on the macros of the heads of its lists give it the
same result, a failure included, in the same steps.  And where no atom has a replacement and no head
a macro, the expression is its own expansion, in no steps and under any settings. -/
theorem expand_by_names_met :
    (∀ (r₁ r₂ : Registry) (s : Settings) (e : Expr), s.recursive = false → r₁.AgreesOn r₂ e →
      r₁.expand s e = r₂.expand s e ∧ r₁.expandTraced s e = r₂.expandTraced s e) ∧
    (∀ (r : Registry) (s : Settings) (e : Expr),
      (∀ name ∈ e.names, r.symbols.get? name = none) →
      (∀ head ∈ e.heads, r.macros.get? head = none) →
      r.expand s e = .ok e ∧ r.expandTraced s e = (.ok e, [])) := by
  constructor
  · intro r₁ r₂ s e hs h
    have hexpand := Expansion.expand_congr hs h
    unfold expand expandTraced
    rw [hexpand]
    exact ⟨rfl, rfl⟩
  · intro r s e hsymbols hheads
    have hexpand : Expansion.expand r s e = pure e :=
      Expansion.expandWith_of_callFree hsymbols (Expr.callFree_of_heads hheads)
    unfold expand expandTraced
    rw [hexpand]
    exact ⟨rfl, Expanding.traced_pure e⟩

/-- The macro of a call was installed at another time and under other names too, one of them an
argument of the call, and `tau` is replaced elsewhere; an expression without bindings stays as it is
where no application is allowed. -/
theorem expand_by_names_met_call :
    let twice : Template := ⟨"twice", { required := ["x"] }, .list [.atom "x", .atom "tau"]⟩
    let r₁ := (empty.defineMacro "twice" (.ofTemplate twice)).defineSymbol "pi" (.str "3.14")
    let r₂ := (((empty.defineMacro "x" (.ofTemplate twice)).defineMacro "twice"
      (.ofTemplate twice)).defineSymbol "pi" (.str "3.14")).defineSymbol "tau" (.str "6.28")
    let e : Expr := .list [.atom "f", .list [.atom "twice", .atom "x"], .atom "pi"]
    let e' : Expr := .list [.atom "f", .list [.atom "x", .atom "tau"], .str "3.14"]
    (r₁.AgreesOn r₂ e ∧ r₁.expandTraced {} e = r₂.expandTraced {} e ∧ r₁.expand {} e = .ok e') ∧
    (r₁.expandTraced { recursive := true, maxDepth := 0 } e'.quoted = (.ok e'.quoted, [])) := by
  intro twice r₁ r₂ e e'
  have hagree : r₁.AgreesOn r₂ e := by
    refine ⟨by decide +kernel, fun head hhead => ?_⟩
    have hheads : e.heads = ["f", "twice"] := by decide +kernel
    rw [hheads] at hhead
    rcases List.mem_pair.1 hhead with rfl | rfl <;> rfl
  have hexpand : r₁.expand {} e = .ok e' := by decide +kernel
  have hheads : ∀ head ∈ e'.quoted.heads, (r₁.macros.get? head).isNone := by decide +kernel
  refine ⟨⟨hagree, (expand_by_names_met.1 r₁ r₂ {} e rfl hagree).2, hexpand⟩, ?_⟩
  exact (expand_by_names_met.2 r₁ _ e'.quoted (by decide +kernel) fun head hhead =>
    Option.isNone_iff_eq_none.1 (hheads head hhead)).2

end Registry

end Sigil
