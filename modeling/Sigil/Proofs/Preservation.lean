import Sigil.Proofs.DefinitionFree

/-!
# What evaluation preserves

A property of registries that is told name by name survives evaluation if it holds of what
definitions make and if expansion respects it.  `Evaluation.keeps_evalWithin` says this once, for
the values and for the failures of evaluation too; what a property needs is the structure
`Evaluation.Invariant`.

1. The parts of forms only hand on names of the form (`settles_definition`,
   `settles_symbolBinding`, `settles_macroBinding`).
2. A scope binds such names for a while and restores the registry that the body left outside of them
   (`Keeps.withSymbols`, `Keeps.withMacros`).
3. Evaluation is built from these by levels.
-/

namespace Sigil

/-! ## Registries, name by name -/

/-- All macros and all replacements have a property, which may depend on their names. -/
structure Registry.All (M : String → Macro → Prop) (S : String → Expr → Prop) (r : Registry) :
    Prop where
  macros : ∀ name m, r.macros.get? name = some m → M name m
  symbols : ∀ name e, r.symbols.get? name = some e → S name e

namespace Registry.All

variable {M : String → Macro → Prop} {S : String → Expr → Prop} {r : Registry}

theorem empty : Registry.empty.All M S := ⟨nofun, nofun⟩

theorem defineMacro (hr : r.All M S) {name : String} {m : Macro}
    (hm : M name { m with stamp := r.installed }) : (r.defineMacro name m).All M S := by
  refine ⟨fun k x h => ?_, hr.symbols⟩
  simp only [Registry.defineMacro, Table.get?_insert] at h
  split at h
  · next hk =>
    cases h
    exact hk ▸ hm
  · exact hr.macros k x h

theorem defineSymbol (hr : r.All M S) {name : String} {e : Expr} (he : S name e) :
    (r.defineSymbol name e).All M S := by
  refine ⟨hr.macros, fun k x h => ?_⟩
  simp only [Registry.defineSymbol, Table.get?_insert] at h
  split at h
  · next hk =>
    cases h
    exact hk ▸ he
  · exact hr.symbols k x h

end Registry.All

/-- What is bound after a scope was bound before it, or was left by the body. -/
theorem Table.get?_unshadow_cases {α : Type} {t left : Table α} {bindings : List (String × α)}
    {name : String} {value : α}
    (h : (left.unshadow (t.shadow bindings).1).get? name = some value) :
    t.get? name = some value ∨ left.get? name = some value := by
  rw [get?_unshadow] at h
  split at h
  · exact .inl h
  · exact .inr h

namespace Evaluation

/-! ## Invariants -/

/-- A property of registries that evaluation with the settings `s` preserves. -/
structure Invariant (s : Settings) where
  /-- The names in expressions. -/
  Name : String → Prop
  /-- The macros under their names. -/
  Bound : String → Macro → Prop
  /-- The failures of evaluation. -/
  Failing : Failure → Prop
  nil : Name "nil"
  plain : ∀ fault, Failing (.plain fault)
  stamp : ∀ {name m} n, Bound name m → Bound name { m with stamp := n }
  ofTemplate : ∀ {name written body t}, template name written body = .ok t → Name name →
    (∀ e ∈ written, e.Only Name) → body.Only Name → Bound name (.ofTemplate t)
  expand : ∀ {r : Registry} {e : Expr},
    r.All Bound (fun name x => Name name ∧ x.Only Name) → e.Only Name →
    Settles (Expr.Only Name) Failing (r.expand s e)

namespace Invariant

variable {s : Settings} (I : Invariant s)

/-- The invariant holds of a registry. -/
def Holds (r : Registry) : Prop := r.All I.Bound fun name x => I.Name name ∧ x.Only I.Name

/-- From a registry with the invariant the computation comes to another one, and to a value with the
property `P` or a failure of the invariant. -/
def Keeps {α : Type} (P : α → Prop) (x : Evaluating α) : Prop :=
  ∀ r, I.Holds r → I.Holds (x r).2 ∧ Settles P I.Failing (x r).1

variable {I}

namespace Keeps

variable {α β : Type} {P : α → Prop} {Q : β → Prop}

theorem pure {a : α} (h : P a) : I.Keeps P (pure a : Evaluating α) := fun _ hr => ⟨hr, h⟩

theorem lift {x : Except Failure α} (h : Settles P I.Failing x) : I.Keeps P (Evaluation.lift x) :=
  fun _ hr => ⟨hr, h⟩

theorem fail (fault : Fault) : I.Keeps P (Evaluation.lift (Evaluation.fail fault)) :=
  lift (I.plain fault)

theorem bind {x : Evaluating α} {f : α → Evaluating β} (hx : I.Keeps P x)
    (hf : ∀ a, P a → I.Keeps Q (f a)) : I.Keeps Q (x >>= f) := by
  intro r hr
  have h := hx r hr
  rw [bind_apply]
  generalize x r = y at h ⊢
  obtain ⟨e | a, t⟩ := y
  · exact h
  · exact hf a h.2 t h.1

/-- A change of the registry that respects the invariant. -/
theorem modify {f : Registry → Registry} (h : ∀ r, I.Holds r → I.Holds (f r)) :
    I.Keeps (fun _ : Unit => True) (modify f) := fun r hr => ⟨h r hr, trivial⟩

theorem withSymbols {x : Evaluating α} (hx : I.Keeps P x) {bindings : List (String × Expr)}
    (hb : ∀ b ∈ bindings, I.Name b.1 ∧ b.2.Only I.Name) :
    I.Keeps P (fun r => r.withSymbols bindings x : Evaluating α) := by
  intro r hr
  have henter : I.Holds (r.enterSymbols bindings) := by
    refine ⟨hr.macros, fun name e h => ?_⟩
    rcases Table.get?_shadow_cases h with h | h
    · exact hb _ h
    · exact hr.symbols name e h
  obtain ⟨hbody, hvalue⟩ := hx _ henter
  refine ⟨⟨hbody.macros, fun name e h => ?_⟩, hvalue⟩
  rcases Table.get?_unshadow_cases h with h | h
  · exact hr.symbols name e h
  · exact hbody.symbols name e h

theorem withMacros {x : Evaluating α} (hx : I.Keeps P x) {bindings : List (String × Macro)}
    (hb : ∀ b ∈ bindings, I.Bound b.1 b.2) :
    I.Keeps P (fun r => r.withMacros bindings x : Evaluating α) := by
  intro r hr
  have henter : I.Holds (r.enterMacros bindings) := by
    refine ⟨fun name m h => ?_, hr.symbols⟩
    rcases Table.get?_shadow_cases h with h | h
    · obtain ⟨m', hm', htemplate, htransform⟩ := Registry.exists_of_mem_stamped h
      obtain ⟨transform, template, stamp⟩ := m
      cases htemplate
      cases htransform
      exact I.stamp stamp (hb _ hm')
    · exact hr.macros name m h
  obtain ⟨hbody, hvalue⟩ := hx _ henter
  refine ⟨⟨fun name m h => ?_, hbody.symbols⟩, hvalue⟩
  rcases Table.get?_unshadow_cases h with h | h
  · exact hr.macros name m h
  · exact hbody.macros name m h

end Keeps

/-! ## Parts of forms -/

section

variable (op : String)

theorem settles_name {e : Expr} (he : e.Only I.Name) : Settles I.Name I.Failing (name op e) := by
  cases e with
  | atom k => exact Expr.only_atom.1 he
  | str text => exact I.plain _
  | list items => exact I.plain _

theorem settles_params (k : String) (seen : List String) (written : List Expr) :
    Settles (fun _ => True) I.Failing (params k seen written) := by
  fun_induction params k seen written with
  | case1 => trivial
  | case2 => exact I.plain _
  | case3 => exact I.plain _
  | case4 => trivial
  | case5 => exact I.plain _
  | case6 _ _ _ _ _ _ _ _ ih => exact ih.bind fun _ _ => trivial
  | case7 => exact I.plain _

theorem settles_template {k : String} (hk : I.Name k) {written : List Expr}
    (hw : ∀ e ∈ written, e.Only I.Name) {body : Expr} (hb : body.Only I.Name) :
    Settles (fun t => t.name = k ∧ I.Bound k (.ofTemplate t)) I.Failing
      (template k written body) := by
  cases hp : params k [] written with
  | error f =>
    have h := settles_params (I := I) k [] written
    rw [hp] at h
    simp only [template, hp]
    exact h
  | ok q =>
    have ht : template k written body = .ok ⟨k, q, body⟩ := by
      simp only [template, hp]
      rfl
    rw [ht]
    exact ⟨rfl, I.ofTemplate ht hk hw hb⟩

theorem settles_definition {args : List Expr} (h : ∀ e ∈ args, e.Only I.Name) :
    Settles (fun t => I.Name t.name ∧ I.Bound t.name (.ofTemplate t)) I.Failing
      (definition op args) := by
  unfold definition
  split
  · next head written body =>
    obtain ⟨hhead, hwritten⟩ := Expr.only_list_cons.1 (h _ (List.mem_cons_self ..))
    have hbody := h body (by simp)
    refine (settles_name op hhead).bind fun k hk => ?_
    have ht := settles_template hk (Expr.only_list.1 hwritten) hbody
    generalize template k written body = x at ht
    cases x with
    | error f => exact ht
    | ok t =>
      obtain ⟨rfl, hbound⟩ := ht
      exact ⟨hk, hbound⟩
  · exact I.plain _
  · exact I.plain _

theorem settles_bindings {args : List Expr} (h : ∀ e ∈ args, e.Only I.Name) :
    Settles (fun x : List Expr × List Expr => (∀ e ∈ x.1, e.Only I.Name) ∧
      ∀ e ∈ x.2, e.Only I.Name) I.Failing (bindings op args) := by
  refine .of_gives (gives_bindings op h) fun f hf => ?_
  unfold bindings at hf
  split at hf
  · cases hf
  · cases hf
    exact I.plain _

theorem settles_bindingItems {e : Expr} (he : e.Only I.Name) :
    Settles (fun items : List Expr => ∀ x ∈ items, x.Only I.Name) I.Failing
      (bindingItems op e) := by
  refine .of_gives (gives_bindingItems op he) fun f hf => ?_
  unfold bindingItems at hf
  split at hf
  · cases hf
  · cases hf
    exact I.plain _

theorem settles_symbolBinding {e : Expr} (he : e.Only I.Name) :
    Settles (fun b : String × Expr => I.Name b.1 ∧ b.2.Only I.Name) I.Failing
      (symbolBinding op e) := by
  refine (settles_bindingItems op he).bind fun items hitems => ?_
  split
  · next head x =>
    refine (settles_name op (hitems head (by simp))).bind fun k hk => ?_
    exact ⟨hk, hitems x (by simp)⟩
  · exact I.plain _

theorem settles_macroBinding {e : Expr} (he : e.Only I.Name) :
    Settles (fun b : String × Macro => I.Bound b.1 b.2) I.Failing (macroBinding op e) := by
  refine (settles_bindingItems op he).bind fun items hitems => ?_
  split
  · next head params body =>
    refine (settles_name op (hitems head (by simp))).bind fun k hk => ?_
    split
    · next written =>
      have hwritten := Expr.only_list.1 (hitems (.list written) (by simp))
      exact (settles_template hk hwritten (hitems body (by simp))).bind fun _ ht => ht.2
    · exact I.plain _
  · exact I.plain _

end

/-! ## Evaluation -/

section

variable {eval : Expr → Evaluating Expr}
  (h : ∀ e, e.Only I.Name → I.Keeps (Expr.Only I.Name) (eval e))

include h

theorem keeps_evalBody {last : Expr} (hlast : last.Only I.Name) {forms : List Expr}
    (hforms : ∀ e ∈ forms, e.Only I.Name) :
    I.Keeps (Expr.Only I.Name) (evalBody eval last forms) := by
  induction forms generalizing last with
  | nil =>
    rw [evalBody_nil]
    exact .pure hlast
  | cons form forms ih =>
    obtain ⟨hform, hforms⟩ := List.forall_mem_cons.1 hforms
    rw [evalBody_cons]
    exact (h form hform).bind fun _ hvalue => ih hvalue hforms

theorem keeps_evalEach {forms : List Expr} (hforms : ∀ e ∈ forms, e.Only I.Name) :
    I.Keeps (fun xs : List Expr => ∀ x ∈ xs, x.Only I.Name) (evalEach eval forms) := by
  induction forms with
  | nil =>
    rw [evalEach_nil]
    exact .pure (List.forall_mem_nil _)
  | cons form forms ih =>
    obtain ⟨hform, hforms⟩ := List.forall_mem_cons.1 hforms
    rw [evalEach_cons]
    exact (h form hform).bind fun _ hx => (ih hforms).bind fun _ hxs =>
      .pure (List.forall_mem_cons.2 ⟨hx, hxs⟩)

/-- **Operators.** -/
theorem keeps_apply (op : Operator) (k : String) {args : List Expr}
    (hargs : ∀ e ∈ args, e.Only I.Name) :
    I.Keeps (Expr.Only I.Name) (apply s eval op k args) := by
  have hnil : Expr.nil.Only I.Name := Expr.only_atom.2 I.nil
  cases op with
  | quote =>
    unfold apply
    dsimp only
    split
    · next e => exact .pure (hargs e (List.mem_singleton_self e))
    · exact .fail _
  | progn => exact keeps_evalBody h hnil hargs
  | list => exact (keeps_evalEach h hargs).bind fun _ hxs => .pure (Expr.only_list.2 hxs)
  | defineSymbol =>
    unfold apply
    dsimp only
    split
    · next head e =>
      refine (Keeps.lift (settles_name k (hargs head (by simp)))).bind fun name hname => ?_
      have hdefine : ∀ r, I.Holds r → I.Holds (r.defineSymbol name e) := fun r hr =>
        Registry.All.defineSymbol hr ⟨hname, hargs e (by simp)⟩
      exact (Keeps.modify hdefine).bind fun _ _ => .pure (Expr.only_atom.2 hname)
    · exact .fail _
  | defineMacro =>
    refine (Keeps.lift (settles_definition k hargs)).bind fun t ⟨hname, hbound⟩ => ?_
    have hdefine : ∀ r, I.Holds r → I.Holds (r.defineMacro t.name (.ofTemplate t)) := fun r hr =>
      Registry.All.defineMacro hr (I.stamp r.installed hbound)
    exact (Keeps.modify hdefine).bind fun _ _ => .pure (Expr.only_atom.2 hname)
  | symbolLet =>
    refine (Keeps.lift (settles_bindings k hargs)).bind fun (written, body) ⟨hwritten, hbody⟩ => ?_
    refine (Keeps.lift (Settles.mapM fun e he =>
      settles_symbolBinding k (hwritten e he))).bind fun bound hbound => ?_
    exact (keeps_evalBody h hnil hbody).withSymbols hbound
  | macroLet =>
    refine (Keeps.lift (settles_bindings k hargs)).bind fun (written, body) ⟨hwritten, hbody⟩ => ?_
    refine (Keeps.lift (Settles.mapM fun e he =>
      settles_macroBinding k (hwritten e he))).bind fun bound hbound => ?_
    exact (keeps_evalBody h hnil hbody).withMacros hbound
  | expand =>
    unfold apply
    dsimp only
    split
    · next form =>
      exact (h form (hargs form (List.mem_singleton_self form))).bind fun _ hx r hr =>
        ⟨hr, I.expand hr hx⟩
    · exact .fail _

end

/-- **Levels.** Evaluation preserves the invariant. -/
theorem keeps_evalWithin (I : Invariant s) (n : Nat) {e : Expr} (he : e.Only I.Name) :
    I.Keeps (Expr.Only I.Name) (evalWithin s n e) := by
  induction n generalizing e with
  | zero =>
    rw [evalWithin_zero]
    exact .fail _
  | succ n ih =>
    match e with
    | .str text =>
      rw [evalWithin_str]
      exact .pure he
    | .atom name =>
      intro r hr
      rw [evalWithin_atom]
      split
      · next x hx => exact ih (hr.symbols name x hx).2 r hr
      · exact ⟨hr, he⟩
    | .list [] =>
      rw [evalWithin_nil]
      exact .pure he
    | .list (.atom head :: args) =>
      obtain ⟨hhead, hargs⟩ := Expr.only_list_cons.1 he
      cases hop : Operator.ofName? head with
      | some op =>
        rw [evalWithin_operator s n args hop]
        exact keeps_apply (fun e he => ih he) op head (Expr.only_list.1 hargs)
      | none =>
        intro r hr
        have hexpand := I.expand hr he
        rw [evalWithin_call s n args hop]
        split
        · exact ⟨hr, I.plain _⟩
        · generalize r.expand s (.list (.atom head :: args)) = x at hexpand ⊢
          cases x with
          | error f => exact ⟨hr, hexpand⟩
          | ok x => exact ih hexpand r hr
    | .list (.str text :: es) =>
      rw [evalWithin_headless s n es rfl]
      exact .fail _
    | .list (.list items :: es) =>
      rw [evalWithin_headless s n es rfl]
      exact .fail _

end Invariant

end Evaluation

end Sigil
