import Sigil.Proofs.Names
import Sigil.Proofs.Reloading

/-!
# Names of parameters

`Template.instantiate_renamed`: what a template makes of arguments does not depend on the names of
its parameters, and arguments are put in as they are, whatever names are in them.

1. A body is looked at name by name: if a change of names keeps what each name stands for, it keeps
   the substituted body (`substitute_mapUnquoted`).
2. A parameter stands for the same argument under its new name, and the new names are fresh, so no
   other name of the body comes to stand for anything (`Renames.retains`).
3. What is done to the arguments shows in the substituted body just where they were put in
   (`filled_substitute`).  So marks can be put in first, and the arguments in place of the marks.
-/

namespace Sigil

/-! ## Changing names and replacing atoms -/

namespace Expr

mutual

/-- The expression with its names changed, except inside `(quote …)`. -/
def mapUnquoted (f : String → String) : Expr → Expr
  | .atom name => .atom (f name)
  | .str text => .str text
  | .list items =>
    if items.head? = some (.atom "quote") then .list items
    else .list (mapUnquotedItems f items)

/-- The elements of a list with their names changed. -/
def mapUnquotedItems (f : String → String) : List Expr → List Expr
  | [] => []
  | e :: es => e.mapUnquoted f :: mapUnquotedItems f es

end

theorem name?_mapUnquoted (f : String → String) (e : Expr) :
    (e.mapUnquoted f).name? = e.name?.map f := by
  cases e with
  | atom name => rfl
  | str text => rfl
  | list items =>
    rw [mapUnquoted]
    split <;> rfl

mutual

/-- The expression with each atom replaced by what `σ` has for it. -/
def filled (σ : String → Expr) : Expr → Expr
  | .atom name => σ name
  | .str text => .str text
  | .list items => .list (filledItems σ items)

/-- The elements of a list with each atom replaced. -/
def filledItems (σ : String → Expr) : List Expr → List Expr
  | [] => []
  | e :: es => e.filled σ :: filledItems σ es

end

theorem filled_list (σ : String → Expr) (es : List Expr) :
    (list es).filled σ = .list (es.map (filled σ)) := by
  rw [filled]
  congr 1
  induction es with
  | nil => rfl
  | cons e es ih => rw [filledItems, ih, List.map_cons]

theorem filled_of_forall {σ : String → Expr} {e : Expr}
    (h : ∀ name ∈ e.names, σ name = .atom name) : e.filled σ = e := by
  induction e using Expr.induct with
  | atom name => exact h name (List.mem_singleton_self name)
  | str text => rfl
  | list es ih =>
    have hes : ∀ e ∈ es, e.filled σ = id e := fun e he =>
      ih e he fun name hn => h name (mem_namesOfItems.2 ⟨e, he, hn⟩)
    rw [filled_list, List.map_congr_left hes, List.map_id]

end Expr

/-- An argument with each atom replaced. -/
def Argument.filled (σ : String → Expr) : Argument → Argument
  | .one e => .one (e.filled σ)
  | .many es => .many (es.map (Expr.filled σ))

namespace Template

open Sigil.Expr (mapUnquotedItems)

/-! ## Bodies -/

section Bodies

variable {lookup lookup' : String → Option Argument} {f : String → String} {σ : String → Expr}
  {e : Expr} {es : List Expr}

/-- What `name` stands for in one body, its new name stands for in the other; if that is nothing,
the name stays. -/
structure Retains (lookup lookup' : String → Option Argument) (f : String → String)
    (name : String) : Prop where
  argument : lookup' (f name) = lookup name
  unbound : lookup name = none → f name = name
  quote : f name = "quote" → name = "quote"

theorem head?_mapUnquotedItems (h : ∀ name, .atom name ∈ es → f name = "quote" → name = "quote")
    (hq : es.head? ≠ some (.atom "quote")) :
    (mapUnquotedItems f es).head? ≠ some (.atom "quote") := by
  cases es with
  | nil => exact nofun
  | cons e es =>
    intro hhead
    have hname : (e.mapUnquoted f).name? = some "quote" :=
      congrArg Expr.name? (Option.some.inj hhead)
    cases e with
    | atom name =>
      rw [h name (List.mem_cons_self ..) (Option.some.inj hname)] at hq
      exact hq rfl
    | str text => cases hname
    | list items =>
      rw [Expr.name?_mapUnquoted] at hname
      cases hname

theorem substituteItems_mapUnquotedItems
    (h : ∀ e ∈ es, ∀ name ∈ e.names, Retains lookup lookup' f name)
    (ih : ∀ e ∈ es, substitute lookup' (e.mapUnquoted f) = substitute lookup e) :
    substituteItems lookup' (mapUnquotedItems f es) = substituteItems lookup es := by
  induction es with
  | nil => rfl
  | cons e es ihes =>
    obtain ⟨he, hes⟩ := List.forall_mem_cons.1 h
    obtain ⟨ihe, ih⟩ := List.forall_mem_cons.1 ih
    have hbound : (e.mapUnquoted f).name?.bind lookup' = e.name?.bind lookup := by
      rw [Expr.name?_mapUnquoted]
      cases e with
      | atom name => exact (he name (List.mem_singleton_self name)).argument
      | str text => rfl
      | list items => rfl
    rw [mapUnquotedItems, substituteItems, substituteItems, hbound, ihe, ihes hes ih]

/-- **Bodies.**  A change of names that keeps what they stand for does not show. -/
theorem substitute_mapUnquoted (h : ∀ name ∈ e.names, Retains lookup lookup' f name) :
    substitute lookup' (e.mapUnquoted f) = substitute lookup e := by
  induction e using Expr.induct with
  | atom name =>
    have hname := h name (List.mem_singleton_self name)
    rw [Expr.mapUnquoted, substitute, substitute, hname.argument]
    cases hl : lookup name with
    | none => rw [hname.unbound hl]
    | some a => cases a <;> rfl
  | str text => rfl
  | list es ih =>
    have hes : ∀ e ∈ es, ∀ name ∈ e.names, Retains lookup lookup' f name := fun e he name hn =>
      h name (Expr.mem_namesOfItems.2 ⟨e, he, hn⟩)
    rw [Expr.mapUnquoted, substitute]
    split
    · next hq => rw [substitute, if_pos hq]
    · next hq =>
      have hq' := head?_mapUnquotedItems (f := f)
        (fun name hn => (hes _ hn name (List.mem_singleton_self name)).quote) hq
      rw [substitute, if_neg hq',
        substituteItems_mapUnquotedItems hes fun e he => ih e he (hes e he)]

end Bodies

/-! ## Arguments in place of marks -/

section Marks

variable {lookup : String → Option Argument} {σ : String → Expr} {e : Expr} {es : List Expr}

theorem filled_substituteItems
    (ih : ∀ e ∈ es, (substitute lookup e).filled σ =
      substitute (fun name => (lookup name).map (Argument.filled σ)) e) :
    (substituteItems lookup es).map (Expr.filled σ) =
      substituteItems (fun name => (lookup name).map (Argument.filled σ)) es := by
  induction es with
  | nil => rfl
  | cons e es ihes =>
    obtain ⟨ihe, ih⟩ := List.forall_mem_cons.1 ih
    have hbound : (e.name?.bind fun name => (lookup name).map (Argument.filled σ)) =
        (e.name?.bind lookup).map (Argument.filled σ) := Option.map_bind.symm
    rw [substituteItems, substituteItems, hbound, ← ihe, ← ihes ih]
    cases e.name?.bind lookup with
    | none => rfl
    | some a =>
      cases a with
      | one e => rfl
      | many args => exact List.map_append

/-- **Arguments.**  What is done to the arguments shows where they were put in, and nowhere else. -/
theorem filled_substitute (h : ∀ name ∈ e.names, σ name = .atom name) :
    (substitute lookup e).filled σ =
      substitute (fun name => (lookup name).map (Argument.filled σ)) e := by
  induction e using Expr.induct with
  | atom name =>
    rw [substitute, substitute]
    cases lookup name with
    | none => exact h name (List.mem_singleton_self name)
    | some a =>
      cases a with
      | one e => rfl
      | many args => exact Expr.filled_list σ args
  | str text => rfl
  | list es ih =>
    rw [substitute, substitute]
    split
    · exact Expr.filled_of_forall h
    · rw [Expr.filled_list, filled_substituteItems fun e he =>
        ih e he fun name hn => h name (Expr.mem_namesOfItems.2 ⟨e, he, hn⟩)]

theorem lookup_map_snd {α β γ : Type} [BEq α] (g : β → γ) (l : List (α × β)) (a : α) :
    (l.map (Prod.map id g)).lookup a = (l.lookup a).map g := by
  induction l with
  | nil => rfl
  | cons p l ih =>
    rw [List.map_cons, Prod.map, List.lookup_cons, List.lookup_cons, ih]
    dsimp only [id]
    split <;> rfl

theorem bound?_map_filled (params : Params) (args : List Expr) (name : String) :
    bound? params (args.map (Expr.filled σ)) name =
      (bound? params args name).map (Argument.filled σ) := by
  unfold bound?
  split
  · rw [← List.map_drop]
    rfl
  · rw [List.zip_map_right, ← List.map_reverse, lookup_map_snd, Option.map_map, Option.map_map]
    rfl

theorem argument?_map_filled (params : Params) (args : List Expr) :
    argument? params (args.map (Expr.filled σ)) =
      fun name => (argument? params args name).map (Argument.filled σ) := by
  funext name
  unfold argument?
  rw [Option.map_or, Option.map_bind, bound?_map_filled]
  exact congrArg _ (congrArg _ (funext fun undotted => bound?_map_filled params args undotted))

theorem instantiate_map_filled (t : Template) (args : List Expr)
    (h : ∀ name ∈ t.body.names, σ name = .atom name) :
    t.instantiate (args.map (Expr.filled σ)) = (t.instantiate args).map (Expr.filled σ) := by
  unfold instantiate
  rw [List.length_map, argument?_map_filled]
  split
  · exact congrArg Except.ok (filled_substitute h).symm
  · rfl

/-- The argument whose place a mark holds; any other name stands for itself. -/
def marked (marks : List String) (args : List Expr) (name : String) : Expr :=
  ((marks.zip args).lookup name).getD (.atom name)

theorem marked_of_not_mem {marks : List String} {name : String} (h : name ∉ marks)
    (args : List Expr) : marked marks args name = .atom name := by
  have hnone : (marks.zip args).lookup name = none := by
    refine List.lookup_eq_none_iff.2 fun p hp => ?_
    rw [bne_iff_ne]
    rintro rfl
    exact h (List.of_mem_zip hp).1
  rw [marked, hnone, Option.getD_none]

theorem map_marked {marks : List String} {args : List Expr} (hl : marks.length = args.length)
    (hn : marks.Nodup) : marks.map (marked marks args) = args := by
  induction marks generalizing args with
  | nil => exact (List.length_eq_zero_iff.1 hl.symm).symm
  | cons mark marks ih =>
    cases args with
    | nil => cases hl
    | cons arg args =>
      obtain ⟨hmark, hn⟩ := List.nodup_cons.1 hn
      have hrest : ∀ name ∈ marks,
          marked (mark :: marks) (arg :: args) name = marked marks args name := by
        intro name hname
        have hne : (name == mark) = false := beq_false_of_ne fun he => hmark (he ▸ hname)
        rw [marked, List.zip_cons_cons, List.lookup_cons, hne]
        rfl
      rw [List.map_cons, List.map_congr_left hrest, ih (Nat.succ.inj hl) hn, marked,
        List.zip_cons_cons, List.lookup_cons, beq_self_eq_true]
      rfl

/-- **Marks.**  An instance for marks that the body does not have becomes that for any arguments
when these are put in place of the marks. -/
theorem instantiate_eq_filled (t : Template) {marks : List String} {args : List Expr}
    (hl : marks.length = args.length) (hn : marks.Nodup) (hm : ∀ m ∈ marks, m ∉ t.body.names) :
    t.instantiate args =
      (t.instantiate (marks.map .atom)).map (Expr.filled (marked marks args)) := by
  have hargs : (marks.map Expr.atom).map (Expr.filled (marked marks args)) = args := by
    rw [List.map_map]
    exact map_marked hl hn
  rw [← instantiate_map_filled t _ fun name hname =>
    marked_of_not_mem (fun h => hm name h hname) args, hargs]

end Marks

end Template

/-! ## New names -/

/-- The names of the parameters. -/
def Params.names (p : Params) : List String := p.required ++ p.rest.toList

/-- Parameters under new names. -/
def Params.renamed (ρ : String → String) (p : Params) : Params :=
  ⟨p.required.map ρ, p.rest.map ρ⟩

theorem Params.names_renamed (ρ : String → String) (p : Params) :
    (p.renamed ρ).names = p.names.map ρ := by
  unfold names renamed
  rw [List.map_append]
  cases p.rest <;> rfl

/-- The new form of a name in a body: parameters have new names, also behind three dots. -/
def Params.newName (ρ : String → String) (p : Params) (name : String) : String :=
  if name ∈ p.names then ρ name
  else
    match Template.undotted? name with
    | some param => if param ∈ p.names then Template.dotted (ρ param) else name
    | none => name

/-- A template with its parameters under new names. -/
def Template.renamed (ρ : String → String) (t : Template) : Template :=
  { t with
    params := t.params.renamed ρ
    body := t.body.mapUnquoted (t.params.newName ρ) }

/-- New names for the parameters of a template: different ones for different parameters, neither
`quote` nor with three dots in front, and not in the body, neither bare nor behind three dots. -/
structure Template.Renames (ρ : String → String) (t : Template) : Prop where
  injective : ∀ m ∈ t.params.names, ∀ n ∈ t.params.names, ρ m = ρ n → m = n
  new : ∀ n ∈ t.params.names, ρ n ≠ "quote" ∧ Template.undotted? (ρ n) = none
  fresh : ∀ n ∈ t.params.names, ρ n ∉ t.body.names ∧ Template.dotted (ρ n) ∉ t.body.names

namespace Template

section Renaming

variable {ρ : String → String} {p : Params} {args : List Expr} {name : String}

theorem lookup_map_fst {β : Type} {l : List (String × β)}
    (h : ∀ q ∈ l, ρ q.1 = ρ name → q.1 = name) :
    (l.map (Prod.map ρ id)).lookup (ρ name) = l.lookup name := by
  induction l with
  | nil => rfl
  | cons q l ih =>
    obtain ⟨hq, hl⟩ := List.forall_mem_cons.1 h
    have hbeq : (ρ name == ρ q.1) = (name == q.1) := by
      by_cases he : q.1 = name
      · rw [he, beq_self_eq_true, beq_self_eq_true]
      · have hne : ρ q.1 ≠ ρ name := fun hx => he (hq hx)
        rw [beq_false_of_ne (Ne.symm he), beq_false_of_ne (Ne.symm hne)]
    rw [List.map_cons, Prod.map, List.lookup_cons, hbeq, ih hl, List.lookup_cons]
    rfl

/-- A parameter stands for the same argument under its new name. -/
theorem bound?_renamed (hinj : ∀ m ∈ p.names, ∀ n ∈ p.names, ρ m = ρ n → m = n)
    (hname : name ∈ p.names) : bound? (p.renamed ρ) args (ρ name) = bound? p args name := by
  have hrest : p.rest.map ρ = some (ρ name) ↔ p.rest = some name := by
    constructor
    · intro h
      obtain ⟨rest, hr, hρ⟩ := Option.map_eq_some_iff.1 h
      have hmem : rest ∈ p.names := List.mem_append_right _ (Option.mem_toList.2 hr)
      rw [hr, hinj rest hmem name hname hρ]
    · intro h
      rw [h, Option.map_some]
  have hrequired : ∀ q ∈ (p.required.zip args).reverse, ρ q.1 = ρ name → q.1 = name := by
    intro q hq
    have hmem := (List.of_mem_zip (List.mem_reverse.1 hq)).1
    exact hinj q.1 (List.mem_append_left _ hmem) name hname
  unfold bound? Params.renamed
  simp only [hrest, List.length_map, List.zip_map_left, ← List.map_reverse,
    lookup_map_fst hrequired]

theorem bound?_of_not_mem (h : name ∉ p.names) (args : List Expr) : bound? p args name = none := by
  have hrest : p.rest ≠ some name := fun hr =>
    h (List.mem_append_right _ (Option.mem_toList.2 hr))
  have hnone : (p.required.zip args).reverse.lookup name = none := by
    refine List.lookup_eq_none_iff.2 fun q hq => ?_
    rw [bne_iff_ne]
    rintro rfl
    exact h (List.mem_append_left _ (List.of_mem_zip (List.mem_reverse.1 hq)).1)
  rw [bound?, if_neg hrest, hnone, Option.map_none]

theorem bound?_ne_none (hl : p.required.length ≤ args.length) (h : name ∈ p.names) :
    bound? p args name ≠ none := by
  unfold bound?
  split
  · exact Option.some_ne_none _
  · next hrest =>
    have hmem : name ∈ p.required :=
      (List.mem_append.1 h).resolve_right fun hr => hrest (Option.mem_toList.1 hr)
    obtain ⟨i, hi, rfl⟩ := List.getElem_of_mem hmem
    have hpair : (p.required[i], args[i]) ∈ (p.required.zip args).reverse := by
      rw [List.mem_reverse, ← List.getElem_zip (h := by rw [List.length_zip]; omega)]
      exact List.getElem_mem _
    intro hnone
    have hlookup := List.lookup_eq_none_iff.1 (Option.map_eq_none_iff.1 hnone) _ hpair
    exact bne_iff_ne.1 hlookup rfl

end Renaming

section Fresh

variable {ρ : String → String} {t : Template} {args : List Expr} {name : String}

/-- No name of the body is a new one. -/
theorem Renames.bound?_eq_none (h : t.Renames ρ) (hname : name ∈ t.body.names) :
    bound? (t.params.renamed ρ) args name = none := by
  refine bound?_of_not_mem (fun hmem => ?_) args
  rw [Params.names_renamed] at hmem
  obtain ⟨m, hm, rfl⟩ := List.mem_map.1 hmem
  exact (h.fresh m hm).1 hname

/-- No name of the body is a new one behind three dots. -/
theorem Renames.bound?_undotted_eq_none (h : t.Renames ρ) {param : String}
    (hname : dotted param ∈ t.body.names) : bound? (t.params.renamed ρ) args param = none := by
  refine bound?_of_not_mem (fun hmem => ?_) args
  rw [Params.names_renamed] at hmem
  obtain ⟨m, hm, rfl⟩ := List.mem_map.1 hmem
  exact (h.fresh m hm).2 hname

/-- No new name starts with three dots. -/
theorem Renames.bound?_dotted_eq_none (h : t.Renames ρ) (param : String) :
    bound? (t.params.renamed ρ) args (dotted param) = none := by
  refine bound?_of_not_mem (fun hmem => ?_) args
  rw [Params.names_renamed] at hmem
  obtain ⟨m, hm, hdots⟩ := List.mem_map.1 hmem
  have hnone := (h.new m hm).2
  rw [hdots, undotted?_dotted] at hnone
  cases hnone

theorem dotted_ne_quote (param : String) : dotted param ≠ "quote" := by
  intro h
  have hdots := undotted?_dotted param
  rw [h] at hdots
  cases hdots

/-- **Names.**  A name of the body stands for the same argument in its new form, and stays if it
stands for none. -/
theorem Renames.retains (h : t.Renames ρ) (hl : t.params.required.length ≤ args.length)
    (hname : name ∈ t.body.names) :
    Retains (argument? t.params args) (argument? (t.params.renamed ρ) args)
      (t.params.newName ρ) name := by
  by_cases hparam : name ∈ t.params.names
  · -- a parameter
    have hnew : t.params.newName ρ name = ρ name := if_pos hparam
    obtain ⟨a, ha⟩ := Option.ne_none_iff_exists'.1 (bound?_ne_none hl hparam)
    have hold : argument? t.params args name = some a := by
      rw [argument?, ha, Option.some_or]
    refine ⟨?_, fun hnone => ?_, fun hq => ?_⟩
    · rw [hnew, hold, argument?, bound?_renamed h.injective hparam, ha, Option.some_or]
    · cases hold.symm.trans hnone
    · exact absurd (hnew ▸ hq) (h.new name hparam).1
  · have hfree : bound? t.params args name = none := bound?_of_not_mem hparam args
    cases hdots : undotted? name with
    | none =>
      -- a name without dots that is no parameter
      have hnew : t.params.newName ρ name = name := by
        rw [Params.newName, if_neg hparam, hdots]
      have hold : argument? t.params args name = none := by
        rw [argument?, hfree, hdots]
        rfl
      refine ⟨?_, fun _ => hnew, fun hq => hnew ▸ hq⟩
      rw [hnew, hold, argument?, h.bound?_eq_none hname, hdots]
      rfl
    | some param =>
      obtain rfl := eq_dotted_of_undotted? hdots
      have hold : argument? t.params args (dotted param) = bound? t.params args param := by
        rw [argument?, hfree, hdots]
        rfl
      by_cases hparam' : param ∈ t.params.names
      · -- a parameter behind three dots
        have hnew : t.params.newName ρ (dotted param) = dotted (ρ param) := by
          rw [Params.newName, if_neg hparam, hdots]
          exact if_pos hparam'
        refine ⟨?_, fun hnone => ?_, fun hq => ?_⟩
        · rw [hnew, hold, argument?, h.bound?_dotted_eq_none, undotted?_dotted]
          exact bound?_renamed h.injective hparam'
        · exact absurd (hold ▸ hnone) (bound?_ne_none hl hparam')
        · exact absurd (hnew ▸ hq) (dotted_ne_quote _)
      · -- some other name behind three dots
        have hnew : t.params.newName ρ (dotted param) = dotted param := by
          rw [Params.newName, if_neg hparam, hdots]
          exact if_neg hparam'
        refine ⟨?_, fun _ => hnew, fun hq => hnew ▸ hq⟩
        rw [hnew, hold, argument?, h.bound?_eq_none hname, hdots,
          bound?_of_not_mem hparam' args]
        exact h.bound?_undotted_eq_none hname

theorem arity_renamed (ρ : String → String) (p : Params) : (p.renamed ρ).arity = p.arity := by
  unfold Params.arity Params.renamed
  rw [List.length_map]
  cases p.rest <;> rfl

theorem length_required_le {p : Params} {n : Nat} (h : p.arity.admits n = true) :
    p.required.length ≤ n := by
  unfold Params.arity at h
  split at h
  · exact of_decide_eq_true h
  · exact Nat.le_of_eq (beq_iff_eq.1 h).symm

end Fresh

/-- **Instances** do not depend on the names of parameters: under fresh names for them a template
makes the same of all arguments, and fails in the same way.  And arguments are put in as they are:
the instance is that for any marks that do not occur in the body, with the arguments put in place
of the marks at the end, whatever names occur in the arguments. -/
theorem instantiate_renamed (t : Template) (ρ : String → String) (h : t.Renames ρ) :
    (∀ args, (t.renamed ρ).instantiate args = t.instantiate args) ∧
      ∀ (args : List Expr) (marks : List String), marks.length = args.length → marks.Nodup →
        (∀ m ∈ marks, m ∉ t.body.names) →
        t.instantiate args =
          (t.instantiate (marks.map .atom)).map (Expr.filled (marked marks args)) := by
  refine ⟨fun args => ?_, fun args marks hl hn hm => t.instantiate_eq_filled hl hn hm⟩
  unfold instantiate
  rw [show (t.renamed ρ).params = t.params.renamed ρ from rfl, arity_renamed]
  split
  · next hadmits =>
    have hl := length_required_le hadmits
    exact congrArg Except.ok (substitute_mapUnquoted fun name hname => h.retains hl hname)
  · rfl

/-- Arguments with the names of parameters, old and new, for a body with a quoted part, a rest
parameter that is spliced in and one behind three dots. -/
theorem instantiate_renamed_quoted :
    let t : Template := ⟨"all", { required := ["first"], rest := some "more" },
      .list [.atom "and", .atom "...first", .list [.atom "quote", .atom "more"],
        .list [.atom "first", .atom "more"]]⟩
    let ρ : String → String := fun name => if name = "first" then "x" else "more-of-it"
    let args : List Expr := [.atom "more", .list [.atom "first", .atom "x"], .atom "...more"]
    let instantiated : Expr := .list [.atom "and", .atom "more",
      .list [.atom "quote", .atom "more"],
      .list [.atom "more", .list [.atom "first", .atom "x"], .atom "...more"]]
    (t.renamed ρ).body = .list [.atom "and", .atom "...x", .list [.atom "quote", .atom "more"],
        .list [.atom "x", .atom "more-of-it"]] ∧
      (t.renamed ρ).instantiate args = .ok instantiated ∧
      t.instantiate args = (t.instantiate [.atom "1", .atom "2", .atom "3"]).map
        (Expr.filled (marked ["1", "2", "3"] args)) := by
  intro t ρ args instantiated
  have h : t.Renames ρ := ⟨by decide +kernel, by decide +kernel, by decide +kernel⟩
  have hok : t.instantiate args = .ok instantiated := by decide +kernel
  obtain ⟨hsame, hmarks⟩ := instantiate_renamed t ρ h
  refine ⟨by decide +kernel, (hsame args).trans hok, ?_⟩
  exact hmarks args ["1", "2", "3"] rfl (by decide) (by decide +kernel)

end Template

end Sigil
