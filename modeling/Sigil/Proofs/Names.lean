import Sigil.Proofs.Forms
import Sigil.Proofs.Printing

/-!
# Expansion invents no names

`Registry.Only.expand`: if the names in an expression, in the bodies of all templates and in all
replacements have a property, then so have the names in the expansion.  Substitution puts arguments
in place of atoms and makes no atom of its own (`Template.gives_instantiate`), and an expansion is
built from what macros make, replacements and the parts of the expression.

`Registry.Settled.expand` says the last step once for results and failures: an expansion fails as a
macro does, or with a fault that points nowhere.
-/

namespace Sigil

variable {p : String → Prop}

/-! ## Names of expressions -/

/-- All names in the expression have the property `p`. -/
def Expr.Only (p : String → Prop) (e : Expr) : Prop := ∀ name ∈ e.names, p name

instance [DecidablePred p] : DecidablePred (Expr.Only p) := fun _ =>
  inferInstanceAs (Decidable (∀ _ ∈ _, _))

namespace Expr

theorem only_atom {name : String} : (atom name).Only p ↔ p name := by
  simp only [Only, names, List.mem_singleton, forall_eq]

theorem only_str (text : String) : (str text).Only p := nofun

theorem mem_namesOfItems {name : String} {es : List Expr} :
    name ∈ namesOfItems es ↔ ∃ e ∈ es, name ∈ e.names := by
  induction es with
  | nil => simp [namesOfItems]
  | cons e es ih => simp [namesOfItems, ih]

theorem only_list {es : List Expr} : (list es).Only p ↔ ∀ e ∈ es, e.Only p := by
  simp only [Only, names, mem_namesOfItems]
  constructor
  · intro h e he name hn
    exact h name ⟨e, he, hn⟩
  · rintro h name ⟨e, he, hn⟩
    exact h e he name hn

theorem only_list_cons {e : Expr} {es : List Expr} :
    (list (e :: es)).Only p ↔ e.Only p ∧ (list es).Only p := by
  simp only [only_list, List.forall_mem_cons]

end Expr

/-! ## Results and failures -/

/-- A result, if there is one, has the property `P`. -/
def Gives {α : Type} (P : α → Prop) (x : Except Failure α) : Prop := ∀ a, x = .ok a → P a

section

variable {α β : Type} {P : α → Prop} {Q : β → Prop}

theorem Gives.ok {a : α} (h : P a) : Gives P (.ok a) := fun _ ha => Except.ok.inj ha ▸ h

theorem Gives.error (f : Failure) : Gives P (.error f) := nofun

theorem Gives.bind {x : Except Failure α} {f : α → Except Failure β} (hx : Gives P x)
    (hf : ∀ a, P a → Gives Q (f a)) : Gives Q (x >>= f) := by
  cases x with
  | error e => exact .error e
  | ok a => exact hf a (hx a rfl)

/-- Elements that give results with the property `Q`, one by one. -/
theorem Gives.mapM {f : α → Except Failure β} {xs : List α} (h : ∀ a ∈ xs, Gives Q (f a)) :
    Gives (fun ys : List β => ∀ y ∈ ys, Q y) (xs.mapM f) := by
  induction xs with
  | nil => exact .ok nofun
  | cons x xs ih =>
    obtain ⟨hx, hxs⟩ := List.forall_mem_cons.1 h
    rw [List.mapM_cons]
    exact hx.bind fun _ hy => (ih hxs).bind fun _ hys => .ok (List.forall_mem_cons.2 ⟨hy, hys⟩)

end

/-- A result has the property `P`, a failure the property `F`. -/
def Settles {α : Type} (P : α → Prop) (F : Failure → Prop) : Except Failure α → Prop
  | .ok a => P a
  | .error f => F f

namespace Settles

variable {α β : Type} {P : α → Prop} {Q : β → Prop} {F : Failure → Prop}

theorem of_gives {x : Except Failure α} (h : Gives P x) (hf : ∀ f, x = .error f → F f) :
    Settles P F x := by
  cases x with
  | ok a => exact h a rfl
  | error f => exact hf f rfl

theorem map {x : Except Failure α} {g : α → β} (hx : Settles P F x) (hg : ∀ a, P a → Q (g a)) :
    Settles Q F (x.map g) := by
  cases x with
  | ok a => exact hg a hx
  | error e => exact hx

theorem bind {x : Except Failure α} {f : α → Except Failure β} (hx : Settles P F x)
    (hf : ∀ a, P a → Settles Q F (f a)) : Settles Q F (x >>= f) := by
  cases x with
  | ok a => exact hf a hx
  | error e => exact hx

theorem mapM {f : α → Except Failure β} {xs : List α} (h : ∀ a ∈ xs, Settles Q F (f a)) :
    Settles (fun ys : List β => ∀ y ∈ ys, Q y) F (xs.mapM f) := by
  induction xs with
  | nil => exact fun _ hy => nomatch hy
  | cons x xs ih =>
    obtain ⟨hx, hxs⟩ := List.forall_mem_cons.1 h
    rw [List.mapM_cons]
    refine hx.bind fun y hy => (ih hxs).bind fun ys hys => ?_
    exact List.forall_mem_cons.2 ⟨hy, hys⟩

theorem gives {x : Except Failure α} (h : Settles P F x) : Gives P x := by
  rintro a rfl
  exact h

end Settles

/-- Whatever the computation comes to has the property `P` if it is a result and the property `F` if
it is a failure. -/
def SettlesBy {σ α : Type} (P : α → Prop) (F : Failure → Prop)
    (x : ExceptT Failure (StateM σ) α) : Prop := ∀ s, Settles P F (x s).1

namespace SettlesBy

variable {σ α β : Type} {P : α → Prop} {Q : β → Prop} {F : Failure → Prop}

theorem pure {a : α} (h : P a) : SettlesBy P F (pure a : ExceptT Failure (StateM σ) α) := fun _ => h

theorem mk {x : Except Failure α} (h : Settles P F x) :
    SettlesBy P F (ExceptT.mk (Pure.pure x) : ExceptT Failure (StateM σ) α) := fun _ => h

/-- A computation that never fails, where its result does not show. -/
theorem of_ok {x : ExceptT Failure (StateM σ) α} (h : ∀ s, ∃ a t, x s = (.ok a, t)) :
    SettlesBy (fun _ => True) F x := by
  intro s
  obtain ⟨a, t, hs⟩ := h s
  rw [hs]
  trivial

theorem bind {x : ExceptT Failure (StateM σ) α} {f : α → ExceptT Failure (StateM σ) β}
    (hx : SettlesBy P F x) (hf : ∀ a, P a → SettlesBy Q F (f a)) : SettlesBy Q F (x >>= f) := by
  intro s
  have hs := hx s
  rw [bind_apply]
  rcases ht : x s with ⟨e | a, t⟩ <;> rw [ht] at hs
  · exact hs
  · exact hf a hs t

end SettlesBy

/-! ## Substitution -/

/-- All names in an argument have the property `p`. -/
def Argument.Only (p : String → Prop) : Argument → Prop
  | .one e => e.Only p
  | .many es => ∀ e ∈ es, e.Only p

namespace Template

theorem only_bound? {params : Params} {args : List Expr} {name : String} {a : Argument}
    (hargs : ∀ e ∈ args, e.Only p) (h : bound? params args name = some a) : a.Only p := by
  unfold bound? at h
  split at h
  · cases h
    exact fun e he => hargs e (List.mem_of_mem_drop he)
  · obtain ⟨e, he, rfl⟩ := Option.map_eq_some_iff.1 h
    obtain ⟨before, after, heq, -⟩ := List.lookup_eq_some_iff.1 he
    have hmem : (name, e) ∈ params.required.zip args := by
      rw [← List.mem_reverse, heq]
      simp
    exact hargs e (List.of_mem_zip hmem).2

theorem only_argument? {params : Params} {args : List Expr} {name : String} {a : Argument}
    (hargs : ∀ e ∈ args, e.Only p) (h : argument? params args name = some a) : a.Only p := by
  unfold argument? at h
  rcases Option.or_eq_some_iff.1 h with h | ⟨-, h⟩
  · exact only_bound? hargs h
  · obtain ⟨undotted, -, h⟩ := Option.bind_eq_some_iff.1 h
    exact only_bound? hargs h

section

variable {lookup : String → Option Argument}

mutual

theorem only_substitute (hl : ∀ name a, lookup name = some a → a.Only p) : (e : Expr) →
    e.Only p → (substitute lookup e).Only p
  | .atom name, he => by
    rw [substitute]
    split
    · next x hx => exact hl name _ hx
    · next xs hxs => exact Expr.only_list.2 (hl name _ hxs)
    · exact he
  | .str text, _ => by
    rw [substitute]
    exact Expr.only_str text
  | .list items, he => by
    rw [substitute]
    split
    · exact he
    · exact Expr.only_list.2 (only_substituteItems hl items (Expr.only_list.1 he))

theorem only_substituteItems (hl : ∀ name a, lookup name = some a → a.Only p) :
    (es : List Expr) → (∀ e ∈ es, e.Only p) → ∀ x ∈ substituteItems lookup es, x.Only p
  | [], _ => by
    rw [substituteItems]
    exact nofun
  | e :: es, hes => by
    obtain ⟨he, hes⟩ := List.forall_mem_cons.1 hes
    have hrest := only_substituteItems hl es hes
    rw [substituteItems]
    split
    · next args hargs =>
      -- a rest parameter: its arguments are spliced in
      obtain ⟨name, -, hname⟩ := Option.bind_eq_some_iff.1 hargs
      exact fun x hx => (List.mem_append.1 hx).elim (hl name _ hname x) (hrest x)
    · exact List.forall_mem_cons.2 ⟨only_substitute hl e he, hrest⟩

end

end

theorem gives_instantiate {t : Template} {args : List Expr} (ht : t.body.Only p)
    (hargs : ∀ x ∈ args, x.Only p) : Gives (Expr.Only p) (t.instantiate args) := by
  unfold instantiate
  split
  · exact .ok (only_substitute (fun _ _ => only_argument? hargs) t.body ht)
  · exact .error _

end Template

/-! ## Expansion -/

/-- The macro instantiates a template whose body has only names with the property `p`. -/
def Macro.Only (p : String → Prop) (m : Macro) : Prop :=
  ∃ t : Template, m.template = some t ∧ m.transform = t.instantiate ∧ t.body.Only p

/-- All macros are templates, and all names in their bodies and in replacements have the property
`p`. -/
structure Registry.Only (p : String → Prop) (r : Registry) : Prop where
  macros : ∀ name m, r.macros.get? name = some m → m.Only p
  symbols : ∀ name e, r.symbols.get? name = some e → e.Only p

theorem Macro.Only.transform {m : Macro} {args : List Expr} (h : m.Only p)
    (hargs : ∀ x ∈ args, x.Only p) : Gives (Expr.Only p) (m.transform args) := by
  obtain ⟨t, -, ht, hbody⟩ := h
  rw [ht]
  exact t.gives_instantiate hbody hargs

/-- The macros make expressions whose names have the property `p` of such expressions, or fail with
the property `F`; faults that point nowhere have it, and the names in replacements have `p`. -/
structure Registry.Settled (p : String → Prop) (F : Failure → Prop) (r : Registry) : Prop where
  macros : ∀ name m, r.macros.get? name = some m → ∀ args, (∀ x ∈ args, x.Only p) →
    Settles (Expr.Only p) F (m.transform args)
  symbols : ∀ name e, r.symbols.get? name = some e → e.Only p
  plain : ∀ fault, F (.plain fault)

section

variable {F : Failure → Prop} {r : Registry}

namespace Expansion

variable {s : Settings} {again : Option (Expr → Expanding Expr)}

-- the way to expand again is a parameter of the recursion, so what it comes to is assumed
mutual

theorem settlesBy_expandWith (hr : r.Settled p F)
    (ha : ∀ f, again = some f → ∀ e, e.Only p → SettlesBy (Expr.Only p) F (f e)) : (e : Expr) →
    e.Only p → SettlesBy (Expr.Only p) F (expandWith r s again e)
  | .str text, he => by
    rw [expandWith_str]
    exact .pure he
  | .atom name, he => by
    rw [expandWith_atom]
    split
    · exact .pure he
    · next x hx =>
      exact (SettlesBy.of_ok fun _ => ⟨_, _, rfl⟩).bind fun _ _ => .pure (hr.symbols name x hx)
  | .list [], he => by
    rw [expandWith_nil]
    exact .pure he
  | .list (e :: es), he => by
    obtain ⟨hhead, hes⟩ := Expr.only_list_cons.1 he
    have heach := settlesBy_expandEach hr ha es (Expr.only_list.1 hes)
    cases hm : r.called? (.list (e :: es)) with
    | none =>
      rw [expandWith_rebuild s hm]
      exact (settlesBy_expandWith hr ha e hhead).bind fun _ hx => heach.bind fun _ hxs =>
        .pure (Expr.only_list_cons.2 ⟨hx, Expr.only_list.2 hxs⟩)
    | some m =>
      obtain ⟨head, rfl, hm⟩ := Registry.exists_of_called? hm
      rw [expandWith_call s es hm]
      cases again with
      | none => exact fun _ => hr.plain _
      | some f =>
        refine heach.bind fun xs hxs => ?_
        refine (SettlesBy.mk (hr.macros head m hm xs hxs)).bind fun x hx => ?_
        refine (SettlesBy.of_ok fun _ => ⟨_, _, rfl⟩).bind fun _ _ => ?_
        split
        · exact ha f rfl x hx
        · exact .pure hx

theorem settlesBy_expandEach (hr : r.Settled p F)
    (ha : ∀ f, again = some f → ∀ e, e.Only p → SettlesBy (Expr.Only p) F (f e)) :
    (es : List Expr) → (∀ e ∈ es, e.Only p) →
      SettlesBy (fun xs : List Expr => ∀ x ∈ xs, x.Only p) F (expandEach r s again es)
  | [], _ => by
    rw [expandEach_nil]
    exact .pure nofun
  | e :: es, hes => by
    obtain ⟨he, hes⟩ := List.forall_mem_cons.1 hes
    rw [expandEach_cons]
    exact (settlesBy_expandWith hr ha e he).bind fun _ hx =>
      (settlesBy_expandEach hr ha es hes).bind fun _ hxs =>
        .pure (List.forall_mem_cons.2 ⟨hx, hxs⟩)

end

theorem settlesBy_again? (hr : r.Settled p F) (n : Nat) (f : Expr → Expanding Expr)
    (hf : again? r s n = some f) (e : Expr) (he : e.Only p) : SettlesBy (Expr.Only p) F (f e) := by
  induction n generalizing f e with
  | zero => cases hf
  | succ n ih =>
    cases hf
    exact settlesBy_expandWith hr ih e he

end Expansion

namespace Registry

/-- **Expansion** comes to what the macros come to. -/
theorem Settled.expand (hr : r.Settled p F) (s : Settings) {e : Expr} (he : e.Only p) :
    Settles (Expr.Only p) F (r.expand s e) :=
  Expansion.settlesBy_expandWith hr (Expansion.settlesBy_again? hr s.maxDepth) e he none

theorem Settled.expandAll (hr : r.Settled p F) (s : Settings) {es : List Expr}
    (hes : ∀ e ∈ es, e.Only p) :
    Settles (fun xs : List Expr => ∀ x ∈ xs, x.Only p) F (r.expandAll s es) :=
  Expansion.settlesBy_expandEach hr (Expansion.settlesBy_again? hr s.maxDepth) es hes none

theorem Only.settled (hr : r.Only p) : r.Settled p fun _ => True where
  macros name m hm _ hargs :=
    .of_gives ((hr.macros name m hm).transform hargs) fun _ _ => trivial
  symbols := hr.symbols
  plain _ := trivial

/-- **Expansion invents no names.** -/
theorem Only.expand (hr : r.Only p) (s : Settings) {e : Expr} (he : e.Only p) :
    Gives (Expr.Only p) (r.expand s e) := (hr.settled.expand s he).gives

end Registry

end

end Sigil
