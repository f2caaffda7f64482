import Sigil.Proofs.Names
import Sigil.Proofs.Scopes

/-!
# Evaluation without definitions

`Evaluation.definitions_frame`: where the names of the two operators that define occur neither in an
expression nor in the templates and replacements of a registry, evaluating the expression leaves the
two tables as they were, however it ends.

1. Only an operator at the head of a form can define, and the forms that get evaluated are parts of
   the expression, replacements and expansions; none of them has the name of such an operator
   (`Registry.Only.expand`).
2. A scope starts its body with bindings from the expression, so that the body is again without
   definitions and leaves the tables of the scope alone; leaving the scope restores the tables from
   before it (`Framed.withSymbols`, `Framed.withMacros`).
-/

namespace Sigil

/-! ## Scopes -/

namespace Table

variable {α : Type}

/-- What is bound inside a scope comes from the scope or from outside. -/
theorem get?_shadow_cases {t : Table α} {bindings : List (String × α)} {name : String} {value : α}
    (h : (t.shadow bindings).2.get? name = some value) :
    (name, value) ∈ bindings ∨ t.get? name = some value := by
  induction bindings generalizing t with
  | nil => exact .inr h
  | cons b r ih =>
    obtain ⟨k, v⟩ := b
    rcases ih h with hr | ht
    · exact .inl (List.mem_cons_of_mem _ hr)
    · rw [get?_insert] at ht
      split at ht
      · next hk =>
        cases ht
        exact .inl (hk ▸ List.mem_cons_self ..)
      · exact .inr ht

/-- A scope whose body leaves the table alone leaves no trace. -/
theorem unshadow_shadow (t : Table α) (bindings : List (String × α)) :
    (t.shadow bindings).2.unshadow (t.shadow bindings).1 = t := by
  apply ext_get?
  intro name
  rw [get?_unshadow]
  split
  · rfl
  · next h => exact get?_shadow_of_not_mem t h

end Table

/-- Two registries with the same macros and the same replacements. -/
structure Registry.SameTables (r r' : Registry) : Prop where
  macros : r.macros = r'.macros
  symbols : r.symbols = r'.symbols

theorem Registry.SameTables.same {r r' : Registry} (h : r.SameTables r') : r.same r' = true := by
  unfold Registry.same
  rw [h.macros, h.symbols, beq_self_eq_true, beq_self_eq_true]
  rfl

theorem Registry.SameTables.only {p : String → Prop} {r r' : Registry} (h : r.SameTables r')
    (hr : r'.Only p) : r.Only p :=
  ⟨h.macros ▸ hr.macros, h.symbols ▸ hr.symbols⟩

theorem Registry.SameTables.trans {r r' r'' : Registry} (h : r.SameTables r')
    (h' : r'.SameTables r'') : r.SameTables r'' :=
  ⟨h.macros.trans h'.macros, h.symbols.trans h'.symbols⟩

theorem Registry.exists_of_mem_stamped {r : Registry} {bindings : List (String × Macro)}
    {name : String} {m : Macro} (h : (name, m) ∈ r.stamped bindings) :
    ∃ m', (name, m') ∈ bindings ∧ m.template = m'.template ∧ m.transform = m'.transform := by
  induction bindings generalizing r with
  | nil => cases h
  | cons b rest ih =>
    rcases List.mem_cons.1 h with h | h
    · cases h
      exact ⟨b.2, List.mem_cons_self .., rfl, rfl⟩
    · obtain ⟨m', hm', he⟩ := ih h
      exact ⟨m', List.mem_cons_of_mem _ hm', he⟩

section

variable {p : String → Prop} {r : Registry}

theorem Registry.Only.enterSymbols (hr : r.Only p) {bindings : List (String × Expr)}
    (hb : ∀ b ∈ bindings, b.2.Only p) : (r.enterSymbols bindings).Only p := by
  refine ⟨hr.macros, fun name e h => ?_⟩
  rcases Table.get?_shadow_cases h with h | h
  · exact hb _ h
  · exact hr.symbols name e h

theorem Registry.Only.enterMacros (hr : r.Only p) {bindings : List (String × Macro)}
    (hb : ∀ b ∈ bindings, b.2.Only p) : (r.enterMacros bindings).Only p := by
  refine ⟨fun name m h => ?_, hr.symbols⟩
  rcases Table.get?_shadow_cases h with h | h
  · obtain ⟨m', hm', htemplate, htransform⟩ := Registry.exists_of_mem_stamped h
    obtain ⟨t, ht⟩ := hb _ hm'
    exact ⟨t, htemplate ▸ ht.1, htransform ▸ ht.2.1, ht.2.2⟩
  · exact hr.macros name m h

end

/-! ## Frames -/

/-- From every registry whose names have the property `p` the computation leaves the two tables as
they were. -/
def Framed {α : Type} (p : String → Prop) (x : Evaluating α) : Prop :=
  ∀ r : Registry, r.Only p → (x r).2.SameTables r

namespace Framed

variable {α β : Type} {p : String → Prop}

theorem of_state_eq {x : Evaluating α} (h : ∀ r, (x r).2 = r) : Framed p x := fun r _ => by
  rw [h r]
  exact ⟨rfl, rfl⟩

theorem pure (a : α) : Framed p (pure a : Evaluating α) := of_state_eq fun _ => rfl

theorem lift (x : Except Failure α) : Framed p (Evaluation.lift x) := of_state_eq fun _ => rfl

theorem bind {x : Evaluating α} {f : α → Evaluating β} (hx : Framed p x)
    (hf : ∀ a, Framed p (f a)) : Framed p (x >>= f) := by
  intro r hr
  rw [bind_apply]
  have h := hx r hr
  rcases hs : x r with ⟨e | a, t⟩
  · rw [hs] at h
    exact h
  · rw [hs] at h
    exact (hf a t (h.only hr)).trans h

/-- A computation that starts with a result which needs no registry. -/
theorem lift_bind {x : Except Failure α} {f : α → Evaluating β} {P : α → Prop} (hx : Gives P x)
    (hf : ∀ a, P a → Framed p (f a)) : Framed p (Evaluation.lift x >>= f) := by
  intro r hr
  rw [bind_apply]
  cases x with
  | error e => exact ⟨rfl, rfl⟩
  | ok a => exact hf a (hx a rfl) r hr

theorem withSymbols {x : Evaluating α} (hx : Framed p x) {bindings : List (String × Expr)}
    (hb : ∀ b ∈ bindings, b.2.Only p) :
    Framed p (fun r => r.withSymbols bindings x : Evaluating α) := by
  intro r hr
  have h := hx _ (hr.enterSymbols hb)
  show (r.withSymbols bindings x).2.SameTables r
  rw [Registry.withSymbols_eq]
  refine ⟨h.macros, ?_⟩
  show Table.unshadow (x (r.enterSymbols bindings)).2.symbols _ = r.symbols
  rw [h.symbols]
  exact Table.unshadow_shadow r.symbols bindings

theorem withMacros {x : Evaluating α} (hx : Framed p x) {bindings : List (String × Macro)}
    (hb : ∀ b ∈ bindings, b.2.Only p) :
    Framed p (fun r => r.withMacros bindings x : Evaluating α) := by
  intro r hr
  have h := hx _ (hr.enterMacros hb)
  show (r.withMacros bindings x).2.SameTables r
  rw [Registry.withMacros_eq]
  refine ⟨?_, h.symbols⟩
  show Table.unshadow (x (r.enterMacros bindings)).2.macros _ = r.macros
  rw [h.macros]
  exact Table.unshadow_shadow r.macros (r.stamped bindings)

end Framed

/-! ## Parts of forms -/

namespace Evaluation

section

variable {p : String → Prop} (name : String)

theorem gives_bindings {args : List Expr} (h : ∀ e ∈ args, e.Only p) :
    Gives (fun x : List Expr × List Expr => (∀ e ∈ x.1, e.Only p) ∧ ∀ e ∈ x.2, e.Only p)
      (bindings name args) := by
  unfold bindings
  split
  · obtain ⟨hw, hb⟩ := List.forall_mem_cons.1 h
    exact .ok ⟨Expr.only_list.1 hw, hb⟩
  · exact .error _

theorem gives_bindingItems {e : Expr} (he : e.Only p) :
    Gives (fun items : List Expr => ∀ x ∈ items, x.Only p) (bindingItems name e) := by
  unfold bindingItems
  split
  · exact .ok (Expr.only_list.1 he)
  · exact .error _

theorem gives_symbolBinding {e : Expr} (he : e.Only p) :
    Gives (fun b : String × Expr => b.2.Only p) (symbolBinding name e) := by
  refine (gives_bindingItems name he).bind fun items hitems => ?_
  split
  · next head x =>
    exact Gives.bind (P := fun _ => True) (fun _ _ => trivial) fun _ _ =>
      .ok (hitems x (by simp))
  · exact .error _

theorem gives_template (written : List Expr) {body : Expr} (hb : body.Only p) :
    Gives (fun t : Template => t.body.Only p) (template name written body) :=
  Gives.bind (P := fun _ => True) (fun _ _ => trivial) fun _ _ => .ok hb

theorem gives_macroBinding {e : Expr} (he : e.Only p) :
    Gives (fun b : String × Macro => b.2.Only p) (macroBinding name e) := by
  refine (gives_bindingItems name he).bind fun items hitems => ?_
  split
  · next head params body =>
    refine Gives.bind (P := fun _ => True) (fun _ _ => trivial) fun name _ => ?_
    split
    · next written =>
      refine (gives_template name written (hitems body (by simp))).bind fun t ht => ?_
      exact .ok ⟨t, rfl, rfl, ht⟩
    · exact .error _
  · exact .error _

/-! ## Evaluation -/

theorem framed_evalBody {eval : Expr → Evaluating Expr} (h : ∀ e, e.Only p → Framed p (eval e))
    (last : Expr) {forms : List Expr} (hforms : ∀ e ∈ forms, e.Only p) :
    Framed p (evalBody eval last forms) := by
  induction forms generalizing last with
  | nil =>
    rw [evalBody_nil]
    exact .pure last
  | cons form forms ih =>
    obtain ⟨hform, hforms⟩ := List.forall_mem_cons.1 hforms
    rw [evalBody_cons]
    exact (h form hform).bind fun value => ih value hforms

theorem framed_evalEach {eval : Expr → Evaluating Expr} (h : ∀ e, e.Only p → Framed p (eval e))
    {forms : List Expr} (hforms : ∀ e ∈ forms, e.Only p) : Framed p (evalEach eval forms) := by
  induction forms with
  | nil =>
    rw [evalEach_nil]
    exact .pure []
  | cons form forms ih =>
    obtain ⟨hform, hforms⟩ := List.forall_mem_cons.1 hforms
    rw [evalEach_cons]
    exact (h form hform).bind fun _ => (ih hforms).bind fun _ => .pure _

/-- An operator that defines. -/
def Operator.Defines (op : Operator) : Prop := op = .defineSymbol ∨ op = .defineMacro

/-- **Operators.** Only two of them define. -/
theorem framed_apply (s : Settings) {eval : Expr → Evaluating Expr}
    (h : ∀ e, e.Only p → Framed p (eval e)) {op : Operator} (hop : ¬ op.Defines)
    {args : List Expr} (hargs : ∀ e ∈ args, e.Only p) : Framed p (apply s eval op name args) := by
  cases op with
  | quote =>
    unfold apply
    dsimp only
    split
    · exact .pure _
    · exact .lift _
  | progn => exact framed_evalBody h .nil hargs
  | list => exact (framed_evalEach h hargs).bind fun _ => .pure _
  | defineSymbol => exact absurd (.inl rfl) hop
  | defineMacro => exact absurd (.inr rfl) hop
  | symbolLet =>
    refine .lift_bind (gives_bindings name hargs) fun (written, body) ⟨hwritten, hbody⟩ => ?_
    refine .lift_bind (Gives.mapM fun e he => gives_symbolBinding name (hwritten e he))
      fun bound hbound => ?_
    exact (framed_evalBody h .nil hbody).withSymbols hbound
  | macroLet =>
    refine .lift_bind (gives_bindings name hargs) fun (written, body) ⟨hwritten, hbody⟩ => ?_
    refine .lift_bind (Gives.mapM fun e he => gives_macroBinding name (hwritten e he))
      fun bound hbound => ?_
    exact (framed_evalBody h .nil hbody).withMacros hbound
  | expand =>
    unfold apply
    dsimp only
    split
    · next form =>
      exact (h form (hargs form (List.mem_singleton_self form))).bind fun _ =>
        .of_state_eq fun _ => rfl
    · exact .lift _

/-- **Levels.** If no name with the property `p` is that of an operator that defines, evaluation
leaves the tables alone. -/
theorem framed_evalWithin (hp : ∀ name op, p name → Operator.ofName? name = some op → ¬ op.Defines)
    (s : Settings) (n : Nat) {e : Expr} (he : e.Only p) : Framed p (evalWithin s n e) := by
  induction n generalizing e with
  | zero =>
    rw [evalWithin_zero]
    exact .lift _
  | succ n ih =>
    match e with
    | .str text =>
      rw [evalWithin_str]
      exact .pure _
    | .atom name =>
      intro r hr
      rw [evalWithin_atom]
      split
      · next x hx => exact ih (hr.symbols name x hx) r hr
      · exact ⟨rfl, rfl⟩
    | .list [] =>
      rw [evalWithin_nil]
      exact .pure _
    | .list (.atom head :: args) =>
      obtain ⟨hhead, hargs⟩ := Expr.only_list_cons.1 he
      cases hop : Operator.ofName? head with
      | some op =>
        rw [evalWithin_operator s n args hop]
        exact framed_apply head s (fun e he => ih he) (hp head op (Expr.only_atom.1 hhead) hop)
          (Expr.only_list.1 hargs)
      | none =>
        intro r hr
        rw [evalWithin_call s n args hop]
        split
        · exact ⟨rfl, rfl⟩
        · split
          · exact ⟨rfl, rfl⟩
          · next x hx => exact ih (hr.expand s he x hx) r hr
    | .list (.str text :: es) =>
      rw [evalWithin_headless s n es rfl]
      exact .lift _
    | .list (.list items :: es) =>
      rw [evalWithin_headless s n es rfl]
      exact .lift _

end

/-! ## Operators that define -/

/-- The name is not that of an operator that defines. -/
def DefinesNothing (name : String) : Prop := name ≠ "define-macro" ∧ name ≠ "define-symbol-macro"

instance : DecidablePred DefinesNothing := fun _ => inferInstanceAs (Decidable (_ ∧ _))

/-- The name of an operator. -/
def Operator.name : Operator → String
  | .quote => "quote"
  | .progn => "progn"
  | .list => "list"
  | .defineSymbol => "define-symbol-macro"
  | .defineMacro => "define-macro"
  | .symbolLet => "symbol-macrolet"
  | .macroLet => "macrolet"
  | .expand => "macroexpand"

theorem Operator.eq_name_of_ofName? {name : String} {op : Operator}
    (h : Operator.ofName? name = some op) : name = op.name := by
  unfold Operator.ofName? at h
  split at h <;> cases h <;> rfl

theorem DefinesNothing.not_defines {name : String} {op : Operator} (h : DefinesNothing name)
    (hop : Operator.ofName? name = some op) : ¬ op.Defines := by
  rintro (rfl | rfl)
  · exact h.2 (Operator.eq_name_of_ofName? hop)
  · exact h.1 (Operator.eq_name_of_ofName? hop)

/-- **Evaluation without definitions.**  Where the atoms `define-macro` and `define-symbol-macro`
occur neither in the expression nor in a template or a replacement of the registry, evaluation
leaves the registry as it was, whatever its result. -/
theorem definitions_frame (s : Settings) {e : Expr} {r : Registry}
    (hmacros : ∀ name m, r.macros.get? name = some m →
      ∃ t : Template, m.template = some t ∧ m.transform = t.instantiate ∧ t.body.Only DefinesNothing)
    (hsymbols : ∀ name x, r.symbols.get? name = some x → x.Only DefinesNothing)
    (he : e.Only DefinesNothing) :
    (Host.definitions s e r).2.macros = r.macros ∧ (Host.definitions s e r).2.symbols = r.symbols ∧
      (Host.definitions s e r).2.same r = true := by
  have h : (Host.definitions s e r).2.SameTables r :=
    framed_evalWithin (fun _ _ => DefinesNothing.not_defines) s (s.maxDepth + 1) he r
      ⟨hmacros, hsymbols⟩
  exact ⟨h.macros, h.symbols, h.same⟩

/-- A macro and a replacement are shadowed around a call of the shadowed macro, before a form that
fails. -/
theorem definitions_frame_nested :
    let r := (Registry.empty.defineSymbol "a" (.list [.atom "m", .atom "b"])).defineMacro "m"
      (.ofTemplate ⟨"m", { required := ["x"] }, .list [.atom "list", .atom "x", .atom "x"]⟩)
    let e := Expr.list [.atom "progn", .atom "a",
      .list [.atom "macrolet",
        .list [.list [.atom "m", .list [.atom "...x"], .list [.atom "quote", .atom "x"]]],
        .list [.atom "symbol-macrolet", .list [.list [.atom "a", .list [.atom "m"]]],
          .atom "a", .list [.atom "nothing"]]]]
    (Host.definitions {} e r).1 = .error (.plain (.unknownOperator "nothing")) ∧
      (Host.definitions {} e r).2.macros = r.macros ∧
      (Host.definitions {} e r).2.symbols = r.symbols ∧
      (Host.definitions {} e r).2.same r = true := by
  intro r e
  refine ⟨by decide +kernel, definitions_frame {} (fun name m h => ?_) (fun name x h => ?_)
    (by decide)⟩
  · rw [show r.macros = Table.insert .empty "m" _ from rfl, Table.get?_insert] at h
    split at h
    · cases h
      exact ⟨_, rfl, rfl, by decide⟩
    · cases h
  · rw [show r.symbols = Table.insert .empty "a" _ from rfl, Table.get?_insert] at h
    split at h
    · cases h
      decide
    · cases h

end Evaluation

end Sigil
