import Sigil.Proofs.Depth
import Sigil.Proofs.Recording

/-!
# Rendering an expression and rendering its expansion

`Registry.render_through_expand`: an expression that can be rendered can be expanded, and its
expansion renders as the same text.  Rendering applies macros on its own: it renders a replacement
or what a macro produced one level deeper, and expands only the arguments of calls.

1. What renders one level deeper also renders here (`renderWith_of_again`), and there is a level to
   expand a call in (`exists_again`).
2. A computation that goes through goes through in its parts (`bind_eq_ok_iff`), and the expansion
   of a list is put together from those of its elements (`Yields.bind`).
3. The head of a list stays as it is, so the expansion of a list that is no call is no call either
   (`exists_rendered`, `exists_renderedRest`).
-/

namespace Sigil

/-! ## Lists in an expression -/

namespace Expr

mutual

/-- The elements of each list in the expression, itself included. -/
def lists : Expr → List (List Expr)
  | .atom _ => []
  | .str _ => []
  | .list items => items :: listsOfItems items

/-- The elements of each list in the items of a list. -/
def listsOfItems : List Expr → List (List Expr)
  | [] => []
  | e :: es => e.lists ++ listsOfItems es

end

/-- Every list in the expression is empty or starts with an atom that has no replacement. -/
def Headed (r : Registry) (e : Expr) : Prop :=
  ∀ items ∈ e.lists, ∀ first ∈ items.head?, ∃ head ∈ first.name?, r.symbols.get? head = none

instance (r : Registry) (e : Expr) : Decidable (e.Headed r) :=
  inferInstanceAs (Decidable (∀ _ ∈ _, _))

variable {r : Registry} {e : Expr} {es : List Expr}

theorem mem_listsOfItems {items : List Expr} :
    items ∈ listsOfItems es ↔ ∃ e ∈ es, items ∈ e.lists := by
  induction es with
  | nil => simp [listsOfItems]
  | cons e es ih => simp [listsOfItems, ih]

theorem Headed.exists_head (h : (list (e :: es)).Headed r) :
    ∃ head, e = .atom head ∧ r.symbols.get? head = none := by
  obtain ⟨head, hn, hg⟩ := h (e :: es) (List.mem_cons_self ..) e rfl
  cases e with
  | atom name =>
    obtain rfl : name = head := Option.some.inj hn
    exact ⟨name, rfl, hg⟩
  | str text => cases hn
  | list items => cases hn

theorem Headed.items (h : (list es).Headed r) : ∀ e ∈ es, e.Headed r := fun e he items hi =>
  h items (List.mem_cons_of_mem _ (mem_listsOfItems.2 ⟨e, he, hi⟩))

end Expr

/-! ## Computations that go through -/

section

variable {α β σ : Type}

theorem bind_eq_ok_iff {x : ExceptT Failure (StateM σ) α} {f : α → ExceptT Failure (StateM σ) β}
    {s t : σ} {b : β} :
    (x >>= f) s = (.ok b, t) ↔ ∃ a u, x s = (.ok a, u) ∧ f a u = (.ok b, t) := by
  rw [bind_apply]
  constructor
  · intro h
    rcases hx : x s with ⟨e | a, u⟩
    · rw [hx] at h
      cases h
    · rw [hx] at h
      exact ⟨a, u, rfl, h⟩
  · rintro ⟨a, u, hx, hf⟩
    rw [hx]
    exact hf

theorem mk_eq_ok_iff {x : Except Failure α} {s t : σ} {a : α} :
    (ExceptT.mk (pure x) : ExceptT Failure (StateM σ) α) s = (.ok a, t) ↔ x = .ok a ∧ s = t :=
  Prod.ext_iff

end

namespace Expanding

variable {α β : Type}

/-- The computation returns `a`, whether steps are recorded or not. -/
def Yields (x : Expanding α) (a : α) : Prop := ∀ steps, (x steps).1 = .ok a

theorem yields_pure (a : α) : Yields (pure a) a := fun _ => rfl

theorem yields_record (step : Step) : Yields (Expansion.record step) () := fun _ => rfl

theorem yields_mk {x : Except Failure α} {a : α} (h : x = .ok a) : Yields (ExceptT.mk (pure x)) a :=
  fun _ => h

theorem Yields.bind {x : Expanding α} {f : α → Expanding β} {a : α} {b : β} (hx : Yields x a)
    (hf : Yields (f a) b) : Yields (x >>= f) b := by
  intro steps
  have h := hx steps
  rw [bind_apply]
  generalize x steps = y at h
  obtain ⟨y, t⟩ := y
  obtain rfl : y = .ok a := h
  exact hf t

theorem Logs.yields {x : Expanding α} {a : α} (hx : Logs x) (h : x.result = .ok a) :
    Yields x a := by
  intro steps
  rw [hx steps, ← hx.result]
  exact h

end Expanding

/-! ## Levels -/

namespace Rendering

variable {r : Registry} {s : Settings}

/-- What renders one level deeper renders here in the same way. -/
theorem renderWith_of_again {e : Expr} {out out' : String}
    (h : renderWithin r s s.maxDepth e out = (.ok (), out')) :
    renderWith r s (renderWithin r s s.maxDepth) e out = (.ok (), out') := by
  have hraised : s.Raised s := ⟨rfl, rfl, le_rfl⟩
  rcases keptBy_renderWithin hraised (Nat.le_succ s.maxDepth) e out with ⟨f, hf, -⟩ | he
  · rw [h] at hf
    cases hf
  · exact he.symm.trans h

/-- Where something renders one level deeper, a call can be expanded. -/
theorem exists_again {e : Expr} {out out' : String}
    (h : renderWithin r s s.maxDepth e out = (.ok (), out')) :
    ∃ f, Expansion.again? r s s.maxDepth = some f := by
  cases hn : s.maxDepth with
  | zero =>
    rw [hn] at h
    cases h
  | succ n => exact ⟨_, rfl⟩

/-! ## Expansions that render -/

open Expanding Expansion

/-- A call yields what its macro produces, which then renders as the call does. -/
theorem exists_rendered_call (hs : s.recursive = false) {head : String} {args : List Expr}
    {m : Macro} (hm : r.macros.get? head = some m) {out out' : String}
    (h : renderWith r s (renderWithin r s s.maxDepth) (.list (.atom head :: args)) out =
      (.ok (), out')) :
    ∃ e', Yields (expandWith r s (again? r s s.maxDepth) (.list (.atom head :: args))) e' ∧
      renderWith r s (renderWithin r s s.maxDepth) e' out = (.ok (), out') := by
  rw [renderWith_call s args hm] at h
  obtain ⟨expanded, _, hx, h⟩ := bind_eq_ok_iff.1 h
  obtain ⟨hargs, rfl⟩ := mk_eq_ok_iff.1 hx
  obtain ⟨produced, _, hx, h⟩ := bind_eq_ok_iff.1 h
  obtain ⟨hproduced, rfl⟩ := mk_eq_ok_iff.1 hx
  obtain ⟨f, hf⟩ := exists_again h
  refine ⟨produced, ?_, renderWith_of_again h⟩
  have heach : Yields (expandEach r s (again? r s s.maxDepth) args) expanded :=
    (logs_expandEach s.maxDepth args).yields hargs
  rw [hf] at heach
  rw [expandWith_call s args hm, hf, hs]
  exact heach.bind ((yields_mk hproduced).bind ((yields_record _).bind (yields_pure _)))

mutual

/-- **Rendering.** What renders can be expanded, and the expansion renders in the same way. -/
theorem exists_rendered (hs : s.recursive = false) : (e : Expr) → e.Headed r →
    {out out' : String} → renderWith r s (renderWithin r s s.maxDepth) e out = (.ok (), out') →
    ∃ e', Yields (expandWith r s (again? r s s.maxDepth) e) e' ∧
      renderWith r s (renderWithin r s s.maxDepth) e' out = (.ok (), out')
  | .str text, _, _, _, h => ⟨.str text, yields_pure _, h⟩
  | .atom name, _, _, _, h => by
    rw [expandWith_atom]
    cases hg : r.symbols.get? name with
    | none => exact ⟨.atom name, yields_pure _, h⟩
    | some e =>
      rw [renderWith_atom, hg] at h
      exact ⟨e, (yields_record _).bind (yields_pure _), renderWith_of_again h⟩
  | .list [], _, _, _, h => ⟨.list [], yields_pure _, h⟩
  | .list (e :: es), he, _, _, h => by
    obtain ⟨head, rfl, hg⟩ := he.exists_head
    cases hm : r.called? (.list (.atom head :: es)) with
    | some m => exact exists_rendered_call hs hm h
    | none =>
      rw [renderWith_rebuild s hm] at h
      obtain ⟨_, out, hhead, hrest⟩ := bind_eq_ok_iff.1 h
      obtain ⟨es', hes, hes'⟩ := exists_renderedRest hs es
        (fun e h => he.items e (List.mem_cons_of_mem _ h)) hrest
      refine ⟨.list (.atom head :: es'), ?_, ?_⟩
      · have hatom : Yields (expandWith r s (again? r s s.maxDepth) (.atom head)) (.atom head) := by
          rw [expandWith_atom, hg]
          exact yields_pure _
        rw [expandWith_rebuild s hm]
        exact hatom.bind (hes.bind (yields_pure _))
      · -- the head is the same, so this is no call either
        have hm' : r.called? (.list (.atom head :: es')) = none := hm
        rw [renderWith_rebuild s hm']
        exact bind_eq_ok_iff.2 ⟨_, out, hhead, hes'⟩

theorem exists_renderedRest (hs : s.recursive = false) : (es : List Expr) →
    (∀ e ∈ es, e.Headed r) → {out out' : String} →
    renderRest r s (renderWithin r s s.maxDepth) es out = (.ok (), out') →
    ∃ es', Yields (expandEach r s (again? r s s.maxDepth) es) es' ∧
      renderRest r s (renderWithin r s s.maxDepth) es' out = (.ok (), out')
  | [], _, _, _, h => ⟨[], yields_pure _, h⟩
  | e :: es, hall, _, _, h => by
    obtain ⟨he, hes⟩ := List.forall_mem_cons.1 hall
    rw [renderRest_cons] at h
    obtain ⟨_, out₁, hspace, h⟩ := bind_eq_ok_iff.1 h
    obtain ⟨_, out₂, hfirst, hrest⟩ := bind_eq_ok_iff.1 h
    obtain ⟨e', hy, hr⟩ := exists_rendered hs e he hfirst
    obtain ⟨es', hys, hrs⟩ := exists_renderedRest hs es hes hrest
    refine ⟨e' :: es', ?_, ?_⟩
    · rw [expandEach_cons]
      exact hy.bind (hys.bind (yields_pure _))
    · rw [renderRest_cons]
      exact bind_eq_ok_iff.2 ⟨_, out₁, hspace, bind_eq_ok_iff.2 ⟨_, out₂, hr, hrs⟩⟩

end

end Rendering

namespace Registry

theorem render_eq_ok_iff {r : Registry} {s : Settings} {e : Expr} {text : String} :
    r.render s e = .ok text ↔
      Rendering.renderWith r s (Rendering.renderWithin r s s.maxDepth) e "" = (.ok (), text) := by
  show (match Rendering.renderWith r s (Rendering.renderWithin r s s.maxDepth) e "" with
    | (.ok (), text) => Except.ok text
    | (.error f, _) => .error f) = .ok text ↔ _
  rcases Rendering.renderWith r s (Rendering.renderWithin r s s.maxDepth) e "" with ⟨f | _, out⟩
  · constructor <;> intro h <;> cases h
  · constructor <;> intro h <;> cases h <;> rfl

/-- **Rendering through the expansion.**  If an expression renders as a text, it can be expanded
under the same settings, and its expansion renders as that text.  This is where nothing that a macro
produced is expanded again, and where no list has a head with a replacement: such a head is replaced
when the list is expanded, so that the list may become a call. -/
theorem render_through_expand (r : Registry) (s : Settings) (hs : s.recursive = false) (e : Expr)
    (he : e.Headed r) (text : String) (h : r.render s e = .ok text) :
    ∃ e', r.expand s e = .ok e' ∧ r.render s e' = .ok text := by
  obtain ⟨e', hy, hr⟩ := Rendering.exists_rendered hs e he (render_eq_ok_iff.1 h)
  exact ⟨e', hy none, render_eq_ok_iff.2 hr⟩

/-- A call among other items, with replacements that have replacements, at the least limit for which
it renders. -/
theorem render_through_expand_call :
    let t : Template := ⟨"twice", { required := ["x"] }, .list [.atom "x", .atom "x"]⟩
    let r := ((Registry.empty.defineMacro "twice" (.ofTemplate t)).defineSymbol "turn"
      (.atom "tau")).defineSymbol "tau" (.atom "6.28")
    let s : Settings := { maxDepth := 2 }
    let e : Expr := .list [.atom "area", .list [.atom "twice", .atom "turn"], .list [], .str "cm"]
    (e.Headed r ∧ r.render s e = .ok "area 6.28 6.28  \"cm\"") ∧
    ∃ e', r.expand s e = .ok e' ∧ r.render s e' = .ok "area 6.28 6.28  \"cm\"" := by
  intro t r s e
  have he : e.Headed r := by decide +kernel
  have h : r.render s e = .ok "area 6.28 6.28  \"cm\"" := by decide +kernel
  exact ⟨⟨he, h⟩, render_through_expand r s rfl e he _ h⟩

end Registry

end Sigil
