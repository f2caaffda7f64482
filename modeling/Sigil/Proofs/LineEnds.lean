import Sigil.Proofs.Language
import Sigil.Proofs.Matching
import Mathlib.Data.List.TakeWhile

/-!
# Line ends

Nothing that a document holds reaches over the end of its last line.  A text that ends in a line
feed (`EndsLine`) still does so behind a sigil, as no sigil has a line feed in it, and behind an
expression: a list ends in a parenthesis, a string in a quote, and an atom before the line feed
(`Datum.Plain.endsLine_read`).  So a part of a document that ends in a line feed is left before
that line feed by everything that succeeds there (`Input.LineAhead.dispatch`).
-/

namespace Sigil

open Datum (significant_of_skip)

/-- The text ends in a line feed. -/
def EndsLine (r : List Char) : Prop := r.getLast? = some '\n'

instance (r : List Char) : Decidable (EndsLine r) := inferInstanceAs (Decidable (_ = _))

namespace EndsLine

variable {r s : List Char} {c : Char}

theorem ne_nil (h : EndsLine r) : r ≠ [] := by
  rintro rfl
  cases h

theorem of_suffix (h : EndsLine r) (hs : s <:+ r) (hne : s ≠ []) : EndsLine s := by
  obtain ⟨t, rfl⟩ := hs
  rwa [EndsLine, List.getLast?_append_of_ne_nil t hne] at h

/-- Behind any character but the line feed the line is still to end. -/
theorem of_cons (h : EndsLine (c :: r)) (hc : c ≠ '\n') : EndsLine r := by
  refine h.of_suffix (List.suffix_cons c r) ?_
  rintro rfl
  exact hc (Option.some.inj h)

theorem behind (h : EndsLine r) (hs : c :: s <:+ r) (hc : c ≠ '\n') : EndsLine s :=
  (h.of_suffix hs (List.cons_ne_nil c s)).of_cons hc

end EndsLine

/-! ## Expressions -/

namespace Datum.Plain

/-- What is left behind a significant character. -/
theorem endsLine_of_skip {r s : List Char} {c : Char} (h : skip r = c :: s) (hr : EndsLine r) :
    EndsLine s := by
  refine hr.behind (h ▸ skip_suffix r) ?_
  rintro rfl
  exact absurd (significant_of_skip h).blank (by decide)

theorem quote_cons_suffix {b : Bool} {r cs s : List Char} (h : stringRest b r = .ok (cs, s)) :
    '"' :: s <:+ r := by
  induction r generalizing b cs with
  | nil => cases h
  | cons c r ih =>
    rw [stringRest] at h
    split_ifs at h with hc
    · cases h
      rw [Bool.and_eq_true, beq_iff_eq] at hc
      rw [hc.2]
    · obtain ⟨ds, hr, -⟩ := map_eq_ok h
      exact (ih hr).trans (List.suffix_cons c r)

theorem endsLine_atomRest {r : List Char} (hr : EndsLine r) : EndsLine (atomRest r).2 := by
  refine hr.of_suffix (List.dropWhile_suffix _) fun h => ?_
  have hmem : '\n' ∈ r := List.mem_of_getLast? hr
  have := List.dropWhile_eq_nil_iff.1 h '\n' hmem
  exact absurd this (by decide)

theorem endsLine_datum_and_items :
    (∀ c r, EndsLine r → ∀ cs s, datum c r = .ok (cs, s) → EndsLine s) ∧
    (∀ r, EndsLine r → ∀ cs s, items r = .ok (cs, s) → EndsLine s) := by
  apply datum_items_induct
  · -- a list
    intro r ih hr cs s h
    rw [datum_list] at h
    obtain ⟨ds, hi, -⟩ := map_eq_ok h
    exact ih hr ds s hi
  · -- a stray closing parenthesis
    intro r hr cs s h
    rw [datum_eq] at h
    cases h
  · -- a string
    intro r hr cs s h
    rw [datum_string] at h
    obtain ⟨ds, hs, -⟩ := map_eq_ok h
    exact hr.behind (quote_cons_suffix hs) (by decide)
  · -- a quote at the end of the text
    intro r hr hl cs s h
    rw [datum_eq, hr] at h
    cases h
  · -- a quote before an expression
    intro r d t hs ih hr cs s h
    rw [datum_quote hs] at h
    obtain ⟨ds, hd, -⟩ := map_eq_ok h
    exact ih (endsLine_of_skip hs hr) ds s hd
  · -- an atom
    intro c r h1 h2 h3 h4 hr cs s h
    rw [datum_atom r h1 h2 h3 h4] at h
    cases h
    exact endsLine_atomRest hr
  · -- items that do not end
    intro r hs hr cs s h
    rw [items_eq, hs] at h
    cases h
  · -- the closing parenthesis
    intro r t hs hr cs s h
    rw [items_close hs] at h
    cases h
    exact endsLine_of_skip hs hr
  · -- an item that fails
    intro r c t f hs hc hd _ hr cs s h
    rw [items_cons hs hc, hd] at h
    cases h
  · -- an item and those behind it
    intro r c t cs u hs hc hd ih ih' hr ds s h
    rw [items_cons hs hc, hd] at h
    obtain ⟨es, hi, -⟩ := map_eq_ok h
    exact ih' (ih (endsLine_of_skip hs hr) cs u hd) es s hi

/-- **Expressions.** An expression ends before the end of the last line. -/
theorem endsLine_read {casing : Text.Casing} {r s : List Char} {e : Expr}
    (h : read casing r = .ok (e, s)) (hr : EndsLine r) : EndsLine s := by
  unfold read at h
  rcases hs : skip r with _ | ⟨c, t⟩
  · rw [hs] at h
    cases h
  · rw [hs] at h
    dsimp only [expression] at h
    rcases hd : datum c t with f | ⟨cs, u⟩
    · rw [hd] at h
      cases h
    · rw [hd] at h
      dsimp only at h
      split at h
      · cases h
        exact endsLine_datum_and_items.1 c t (endsLine_of_skip hs hr) cs s hd
      · cases h

end Datum.Plain

/-! ## Inputs -/

/-- A sigil without a line feed. -/
def Entry.InLine (e : Entry) : Prop := '\n' ∉ e.first :: e.rest

instance (e : Entry) : Decidable e.InLine := inferInstanceAs (Decidable (¬ _))

theorem Entry.InLine.rest {e : Entry} (h : e.InLine) : '\n' ∉ e.rest :=
  fun hm => h (List.mem_cons_of_mem _ hm)

namespace Input

/-- What is still to be read can be read, and ends in a line feed. -/
structure LineAhead (i : Input) : Prop where
  legible : i.Legible
  endsLine : EndsLine i.remaining

namespace LineAhead

variable {i j : Input} {c : Char}

theorem setMark (h : i.LineAhead) : i.setMark.LineAhead := ⟨h.legible, h.endsLine⟩

theorem size_pos (h : i.LineAhead) : 0 < i.size := by
  rw [← length_remaining]
  exact List.length_pos_iff.2 h.endsLine.ne_nil

/-- There is a character to read. -/
theorem exists_next (h : i.LineAhead) :
    ∃ c j, i.next = (.ok (some c), j) ∧ i.remaining = c :: j.remaining ∧ j.Legible := by
  have hn := reads_next h.legible
  rcases hi : i.next with ⟨f | _ | c, j⟩
  · exact (hi ▸ hn).ne_error.elim
  · exact absurd (hi ▸ hn).of_none.1 h.endsLine.ne_nil
  · exact ⟨c, j, rfl, (hi ▸ hn).of_some⟩

theorem next (h : i.LineAhead) (hi : i.next = (.ok (some c), j)) (hc : c ≠ '\n') :
    j.LineAhead := by
  obtain ⟨hr, hl⟩ := (hi ▸ reads_next h.legible).of_some
  exact ⟨hl, (hr ▸ h.endsLine).of_cons hc⟩

/-- **One try.** A sigil without a line feed is not cut short here. -/
theorem matchRest (h : i.LineAhead) {want : List Char} (hw : '\n' ∉ want) :
    (matchRest want i).2.LineAhead ∧ ∀ stop, (matchRest want i).1 ≠ .ok (.cutShort stop) := by
  have hm := matches_matchRest want h.legible
  generalize hx : Sigil.matchRest want i = x at hm
  generalize hr : i.remaining = r at hm
  have he : EndsLine r := hr ▸ h.endsLine
  have hmem : '\n' ∈ r := List.mem_of_getLast? he
  cases hm with
  | @full k hl hk =>
    refine ⟨⟨hl, he.of_suffix ⟨want, hk⟩ fun hn => hw ?_⟩, nofun⟩
    rw [hn, List.append_nil] at hk
    exact hk ▸ hmem
  | cutShort stop hl hk hp hne => exact absurd (hp.mem hmem) hw
  | @differs k hl hk hp hp' => exact ⟨⟨hl, hk ▸ he⟩, nofun⟩

theorem read {casing : Text.Casing} {e : Expr} (h : i.LineAhead)
    (hi : Datum.read casing i = (.ok e, j)) : j.LineAhead := by
  obtain ⟨hp, hl⟩ := (hi ▸ Datum.agrees_read casing h.legible).of_ok
  exact ⟨hl, Datum.Plain.endsLine_read hp h.endsLine⟩

end LineAhead

end Input

/-! ## Dispatching -/

section Dispatching

variable {cx : Context} {table : List Entry} {s t : RunState} {c : Char} {b : Bool}

theorem dispatchFrom_of_first_ne (h : ∀ e ∈ table, e.first ≠ c) (start : Nat) :
    dispatchFrom cx start c none table s = (.ok false, s) := by
  induction table with
  | nil => rfl
  | cons e es ih =>
    rw [dispatchFrom_cons, if_neg (h e (List.mem_cons_self ..))]
    exact ih fun e he => h e (List.mem_cons_of_mem _ he)

/-- No sigil stands at a line feed. -/
theorem dispatch_lineFeed (h : ∀ e ∈ table, e.InLine) :
    dispatch cx table '\n' s = (.ok false, s) := by
  rw [dispatch, Run.bind_apply]
  refine dispatchFrom_of_first_ne (fun e he hc => h e he ?_) _
  rw [hc]
  exact List.mem_cons_self ..

theorem Input.LineAhead.dispatchFrom (hb : ∀ e ∈ table, e.BuiltIn) (hn : ∀ e ∈ table, e.InLine)
    (hs : s.input.LineAhead) {start : Nat} {cut : CutShort}
    (h : dispatchFrom cx start c cut table s = (.ok b, t)) : t.input.LineAhead := by
  induction table generalizing cut s with
  | nil =>
    rcases cut with _ | ⟨sigil, stop⟩
    · cases h
      exact hs
    · cases h
  | cons e es ih =>
    obtain ⟨⟨h', hd⟩, hbs⟩ := List.forall_mem_cons.1 hb
    obtain ⟨hne, hns⟩ := List.forall_mem_cons.1 hn
    rw [dispatchFrom_cons] at h
    split_ifs at h
    · obtain ⟨hi, hcut⟩ := hs.matchRest hne.rest
      generalize Sigil.matchRest e.rest s.input = x at h hi hcut
      rcases x with ⟨f | m, i⟩
      · cases h
      · cases m with
        | full =>
          dsimp only at h
          rw [hd, h'.directive_apply] at h
          dsimp only at h
          rcases hr : Datum.read (h'.casing cx.settings) i with ⟨f | x, j⟩
          · rw [hr] at h
            cases h
          · rw [hr] at h
            have hj : t.input = j := congrArg (·.2.input) h.symm
            rw [hj]
            exact hi.read hr
        | differs => exact ih hbs hns (s := { s with input := i }) hi h
        | cutShort stop => exact absurd rfl (hcut stop)
    · exact ih hbs hns hs h

/-- **Dispatching.** What succeeds before the end of the last line is done before it. -/
theorem Input.LineAhead.dispatch (hb : ∀ e ∈ table, e.BuiltIn) (hn : ∀ e ∈ table, e.InLine)
    (hs : s.input.LineAhead) (h : dispatch cx table c s = (.ok b, t)) : t.input.LineAhead := by
  rw [Sigil.dispatch, Run.bind_apply] at h
  exact hs.dispatchFrom hb hn h

end Dispatching

end Sigil
