import Sigil.Registry
import Mathlib.Tactic.SplitIfs

/-!
# Scoped bindings

`Registry.scopes_restore`: a body that runs with names bound for a while starts with the last value
of each of them, and when it has ended each of these names is bound as before.  All other names, and
the other table, are as the body left them.

The bodies are arbitrary functions of the registry, so that they may define and remove names and
open scopes of their own, over the same names too; how a body ends is part of its value.  The
argument is about tables only.  Names are bound in turn and put back in the reverse order, so the
value that is put back last is the one from before the scope (`Table.get?_unshadow`).
-/

namespace Sigil

namespace Table

variable {α : Type}

/-! ## Entering a scope -/

theorem shadow_nil (t : Table α) : t.shadow [] = ([], t) := rfl

theorem shadow_cons (t : Table α) (name : String) (value : α) (r : List (String × α)) :
    t.shadow ((name, value) :: r) =
      ((name, t.get? name) :: ((t.insert name value).shadow r).1,
        ((t.insert name value).shadow r).2) := rfl

/-- A name that a scope does not bind keeps its value. -/
theorem get?_shadow_of_not_mem {bindings : List (String × α)} {name : String} (t : Table α)
    (h : name ∉ bindings.map Prod.fst) : (t.shadow bindings).2.get? name = t.get? name := by
  induction bindings generalizing t with
  | nil => rfl
  | cons b r ih =>
    obtain ⟨k, v⟩ := b
    simp only [List.map_cons, List.mem_cons, not_or] at h
    rw [shadow_cons]
    show ((t.insert k v).shadow r).2.get? name = t.get? name
    rw [ih (t.insert k v) h.2, get?_insert, if_neg h.1]

/-- A name that a scope binds has the last value the scope gives it. -/
theorem get?_shadow_last {after : List (String × α)} {name : String} (t : Table α)
    (before : List (String × α)) (value : α) (h : name ∉ after.map Prod.fst) :
    (t.shadow (before ++ (name, value) :: after)).2.get? name = some value := by
  induction before generalizing t with
  | nil =>
    rw [List.nil_append, shadow_cons]
    show ((t.insert name value).shadow after).2.get? name = some value
    rw [get?_shadow_of_not_mem _ h, get?_insert, if_pos rfl]
  | cons b r ih =>
    obtain ⟨k, v⟩ := b
    exact ih (t.insert k v)

/-! ## Leaving a scope -/

theorem unshadow_cons (t : Table α) (name : String) (value : Option α)
    (saved : List (String × Option α)) :
    t.unshadow ((name, value) :: saved) = (t.unshadow saved).set name value := rfl

/-- **Restoring.** What a scope over `t` saved, put back into any table `left`, gives the names of
the scope their bindings in `t` and leaves alone all others. -/
theorem get?_unshadow (t left : Table α) (bindings : List (String × α)) (name : String) :
    (left.unshadow (t.shadow bindings).1).get? name =
      if name ∈ bindings.map Prod.fst then t.get? name else left.get? name := by
  induction bindings generalizing t with
  | nil => simp [shadow_nil, unshadow]
  | cons b r ih =>
    obtain ⟨k, v⟩ := b
    rw [shadow_cons, unshadow_cons, get?_set, ih (t.insert k v), get?_insert]
    simp only [List.map_cons, List.mem_cons]
    -- the first binding is put back last, so it decides for its own name
    by_cases hk : name = k
    · rw [if_pos hk, if_pos (Or.inl hk), hk]
    · rw [if_neg hk, if_neg hk]
      simp only [hk, false_or]

end Table

namespace Registry

/-! ## Stamps -/

theorem names_stamped (r : Registry) (bindings : List (String × Macro)) :
    (r.stamped bindings).map Prod.fst = bindings.map Prod.fst := by
  induction bindings generalizing r with
  | nil => rfl
  | cons b rest ih => exact congrArg (b.1 :: ·) (ih _)

/-- Macros that are installed in turn are stamped in turn. -/
theorem stamped_append (r : Registry) (before after : List (String × Macro)) (name : String)
    (m : Macro) :
    r.stamped (before ++ (name, m) :: after) =
      r.stamped before ++ (name, { m with stamp := r.installed + before.length }) ::
        { r with installed := r.installed + before.length + 1 }.stamped after := by
  induction before generalizing r with
  | nil => rfl
  | cons b rest ih =>
    have h := ih { r with installed := r.installed + 1 }
    simp only [List.cons_append, stamped, List.length_cons, h]
    simp only [Nat.add_assoc, Nat.add_comm 1]

/-! ## Scopes -/

/-- The registry that the body of a scope over symbols starts with. -/
def enterSymbols (r : Registry) (bindings : List (String × Expr)) : Registry :=
  { r with symbols := (r.symbols.shadow bindings).2 }

/-- The registry that the body of a scope over macros starts with. -/
def enterMacros (r : Registry) (bindings : List (String × Macro)) : Registry :=
  { r with
    macros := (r.macros.shadow (r.stamped bindings)).2
    installed := r.installed + bindings.length }

theorem withSymbols_eq {β : Type} (r : Registry) (bindings : List (String × Expr))
    (body : Registry → β × Registry) :
    r.withSymbols bindings body =
      ((body (r.enterSymbols bindings)).1,
        { (body (r.enterSymbols bindings)).2 with
          symbols := (body (r.enterSymbols bindings)).2.symbols.unshadow
            (r.symbols.shadow bindings).1 }) := rfl

theorem withMacros_eq {β : Type} (r : Registry) (bindings : List (String × Macro))
    (body : Registry → β × Registry) :
    r.withMacros bindings body =
      ((body (r.enterMacros bindings)).1,
        { (body (r.enterMacros bindings)).2 with
          macros := (body (r.enterMacros bindings)).2.macros.unshadow
            (r.macros.shadow (r.stamped bindings)).1 }) := rfl

/-- What a body finds when a scope over symbols has been entered. -/
theorem enterSymbols_spec (r : Registry) (bindings : List (String × Expr)) :
    (∀ before name e after, bindings = before ++ (name, e) :: after →
      name ∉ after.map Prod.fst → (r.enterSymbols bindings).symbols.get? name = some e) ∧
    (∀ name, name ∉ bindings.map Prod.fst →
      (r.enterSymbols bindings).symbols.get? name = r.symbols.get? name) ∧
    (r.enterSymbols bindings).macros = r.macros := by
  refine ⟨?_, fun name h => Table.get?_shadow_of_not_mem r.symbols h, rfl⟩
  rintro before name e after rfl h
  exact Table.get?_shadow_last r.symbols before e h

/-- What a body finds when a scope over macros has been entered. -/
theorem enterMacros_spec (r : Registry) (bindings : List (String × Macro)) :
    (∀ before name m after, bindings = before ++ (name, m) :: after →
      name ∉ after.map Prod.fst →
      (r.enterMacros bindings).macros.get? name =
        some { m with stamp := r.installed + before.length }) ∧
    (∀ name, name ∉ bindings.map Prod.fst →
      (r.enterMacros bindings).macros.get? name = r.macros.get? name) ∧
    (r.enterMacros bindings).symbols = r.symbols := by
  refine ⟨?_, fun name h => ?_, rfl⟩
  · rintro before name m after rfl h
    show (r.macros.shadow (r.stamped _)).2.get? name = _
    rw [stamped_append]
    exact Table.get?_shadow_last r.macros _ _ (by rwa [names_stamped])
  · exact Table.get?_shadow_of_not_mem r.macros (by rwa [names_stamped])

/-- **Scopes restore what they shadow.**  There is a registry `start` with the last value of each
bound name from which every body runs, whatever it does and however it ends.  Afterwards the bound
names are as in `r`, and all else is as the body left it. -/
theorem scopes_restore (r : Registry) :
    (∀ bindings : List (String × Expr), ∃ start : Registry,
      ((∀ before name e after, bindings = before ++ (name, e) :: after →
          name ∉ after.map Prod.fst → start.symbols.get? name = some e) ∧
        (∀ name, name ∉ bindings.map Prod.fst →
          start.symbols.get? name = r.symbols.get? name) ∧
        start.macros = r.macros) ∧
      ∀ {β : Type} (body : Registry → β × Registry),
        (r.withSymbols bindings body).1 = (body start).1 ∧
        (∀ name, (r.withSymbols bindings body).2.symbols.get? name =
          if name ∈ bindings.map Prod.fst then r.symbols.get? name
          else (body start).2.symbols.get? name) ∧
        (r.withSymbols bindings body).2.macros = (body start).2.macros) ∧
    (∀ bindings : List (String × Macro), ∃ start : Registry,
      ((∀ before name m after, bindings = before ++ (name, m) :: after →
          name ∉ after.map Prod.fst →
          start.macros.get? name = some { m with stamp := r.installed + before.length }) ∧
        (∀ name, name ∉ bindings.map Prod.fst →
          start.macros.get? name = r.macros.get? name) ∧
        start.symbols = r.symbols) ∧
      ∀ {β : Type} (body : Registry → β × Registry),
        (r.withMacros bindings body).1 = (body start).1 ∧
        (∀ name, (r.withMacros bindings body).2.macros.get? name =
          if name ∈ bindings.map Prod.fst then r.macros.get? name
          else (body start).2.macros.get? name) ∧
        (r.withMacros bindings body).2.symbols = (body start).2.symbols) := by
  constructor
  · intro bindings
    refine ⟨r.enterSymbols bindings, enterSymbols_spec r bindings, fun body => ?_⟩
    rw [withSymbols_eq]
    exact ⟨rfl, Table.get?_unshadow r.symbols _ bindings, rfl⟩
  · intro bindings
    refine ⟨r.enterMacros bindings, enterMacros_spec r bindings, fun body => ?_⟩
    rw [withMacros_eq]
    refine ⟨rfl, fun name => ?_, rfl⟩
    rw [← names_stamped r bindings]
    exact Table.get?_unshadow r.macros _ (r.stamped bindings) name

-- A name that is bound twice, then bound again and erased in an inner scope, is as before.
example :
    let r := Registry.empty.defineSymbol "a" (.atom "b")
    let body : Registry → Option Expr × Registry := fun r =>
      r.withSymbols [("a", .atom "e")] fun s => (r.symbols.get? "a", s.eraseSymbol "a")
    (r.withSymbols [("a", .atom "c"), ("a", .atom "d")] body).1 = some (.atom "d") ∧
      (r.withSymbols [("a", .atom "c"), ("a", .atom "d")] body).2.symbols.get? "a" =
        some (.atom "b") := by decide

end Registry

end Sigil
