import Sigil.Proofs.Cursor
import Sigil.Proofs.Language

/-!
# Parentheses, strings and comments

`Nesting.of` says of a text, by its characters alone, where its open parentheses are and whether it
ends inside a string or a comment.  The reader agrees with it: what it skips does not matter to the
nesting (`exists_gap`), and behind a datum the nesting is what it was in front of it
(`balanced_datum_and_closes_items`).
-/

namespace Sigil.Datum

open Input (byteLength)

/-! ## Nesting -/

/-- What the next character belongs to. -/
inductive Mode where
  | code
  | comment
  /-- A string that starts at the given offset; `escaped` says that a backslash stands before. -/
  | string (start : Nat) (escaped : Bool)
deriving DecidableEq, Repr

/-- The nesting at the end of a text. -/
structure Nesting where
  /-- The number of bytes so far. -/
  offset : Nat := 0
  mode : Mode := .code
  /-- The offsets of the parentheses that are open, the innermost first. -/
  opened : List Nat := []
deriving DecidableEq, Repr

namespace Nesting

/-- The nesting behind one more character. -/
def step (n : Nesting) (c : Char) : Nesting :=
  match n.mode with
  | .comment => ⟨n.offset + c.utf8Size, if c = '\n' then .code else .comment, n.opened⟩
  | .string start escaped =>
    let mode := if !escaped && c == '"' then .code else .string start (!escaped && c == '\\')
    ⟨n.offset + c.utf8Size, mode, n.opened⟩
  | .code =>
    if c = '(' then ⟨n.offset + c.utf8Size, .code, n.offset :: n.opened⟩
    else if c = ')' then ⟨n.offset + c.utf8Size, .code, n.opened.tail⟩
    else if c = '"' then ⟨n.offset + c.utf8Size, .string n.offset false, n.opened⟩
    else if c = ';' then ⟨n.offset + c.utf8Size, .comment, n.opened⟩
    else ⟨n.offset + c.utf8Size, .code, n.opened⟩

/-- The nesting at the end of a text. -/
def of (text : List Char) : Nesting := text.foldl step {}

theorem of_append (cs ds : List Char) : of (cs ++ ds) = ds.foldl step (of cs) := List.foldl_append

theorem offset_step (n : Nesting) (c : Char) : (n.step c).offset = n.offset + c.utf8Size := by
  unfold step
  split
  · rfl
  · rfl
  · split_ifs <;> rfl

theorem offset_foldl (n : Nesting) (cs : List Char) :
    (cs.foldl step n).offset = n.offset + byteLength cs := by
  induction cs generalizing n with
  | nil => rfl
  | cons c cs ih =>
    rw [List.foldl_cons, ih, offset_step, Input.byteLength_cons, Nat.add_assoc]

theorem offset_of (cs : List Char) : (of cs).offset = byteLength cs := by
  rw [of, offset_foldl]
  exact Nat.zero_add _

/-! ### Characters -/

variable {n : Nesting} {c : Char}

theorem step_comment (h : n.mode = .comment) (c : Char) :
    (n.step c).mode = (if c = '\n' then .code else .comment) ∧ (n.step c).opened = n.opened := by
  simp only [step, h, and_self]

theorem step_string {start : Nat} {b : Bool} (h : n.mode = .string start b) (c : Char) :
    (n.step c).mode = (if !b && c == '"' then .code else .string start (!b && c == '\\')) ∧
      (n.step c).opened = n.opened := by
  simp only [step, h, and_self]

theorem step_open (h : n.mode = .code) :
    (n.step '(').mode = .code ∧ (n.step '(').opened = n.offset :: n.opened := by
  simp [step, h]

theorem step_close (h : n.mode = .code) :
    (n.step ')').mode = .code ∧ (n.step ')').opened = n.opened.tail := by
  simp [step, h]

theorem step_quote (h : n.mode = .code) :
    (n.step '"').mode = .string n.offset false ∧ (n.step '"').opened = n.opened := by
  simp [step, h]

theorem step_semicolon (h : n.mode = .code) :
    (n.step ';').mode = .comment ∧ (n.step ';').opened = n.opened := by
  simp [step, h]

/-- All other characters do not matter. -/
theorem step_other (h : n.mode = .code) (hc : c ∉ ['(', ')', '"', ';']) :
    (n.step c).mode = .code ∧ (n.step c).opened = n.opened := by
  simp only [List.mem_cons, List.not_mem_nil, or_false, not_or] at hc
  simp [step, h, hc]

end Nesting

open Nesting (step)

/-! ## Balanced texts -/

/-- Behind the text everything is as it was in front of it. -/
def Balanced (cs : List Char) : Prop :=
  ∀ n : Nesting, n.mode = .code →
    (cs.foldl step n).mode = .code ∧ (cs.foldl step n).opened = n.opened

/-- Behind the text the innermost parenthesis is closed. -/
def Closes (cs : List Char) : Prop :=
  ∀ n : Nesting, n.mode = .code →
    (cs.foldl step n).mode = .code ∧ (cs.foldl step n).opened = n.opened.tail

theorem balanced_nil : Balanced [] := fun _ h => ⟨h, rfl⟩

theorem Balanced.append {cs ds : List Char} (hc : Balanced cs) (hd : Balanced ds) :
    Balanced (cs ++ ds) := by
  intro n h
  obtain ⟨hmode, hopened⟩ := hc n h
  rw [List.foldl_append, ← hopened]
  exact hd _ hmode

theorem Balanced.closes {cs ds : List Char} (hc : Balanced cs) (hd : Closes ds) :
    Closes (cs ++ ds) := by
  intro n h
  obtain ⟨hmode, hopened⟩ := hc n h
  rw [List.foldl_append, ← hopened]
  exact hd _ hmode

theorem balanced_singleton {c : Char} (h : c ∉ ['(', ')', '"', ';']) : Balanced [c] :=
  fun _ hn => Nesting.step_other hn h

theorem closes_singleton : Closes [')'] := fun _ hn => Nesting.step_close hn

/-- A list is balanced if its items close it. -/
theorem Closes.balanced {cs : List Char} (h : Closes cs) : Balanced ('(' :: cs) := by
  intro n hn
  obtain ⟨hmode, hopened⟩ := Nesting.step_open hn
  have hc := h _ hmode
  rw [hopened] at hc
  exact hc

theorem balanced_of_not_isDelimiter {cs : List Char} (h : ∀ c ∈ cs, isDelimiter c = false) :
    Balanced cs := by
  induction cs with
  | nil => exact balanced_nil
  | cons c cs ih =>
    obtain ⟨hc, hcs⟩ := List.forall_mem_cons.1 h
    refine (balanced_singleton (c := c) ?_).append (ih hcs)
    simp only [isDelimiter, isPunctuation, Bool.or_eq_false_iff, beq_eq_false_iff_ne] at hc
    simp [hc]

/-! ## The reader -/

theorem not_mem_of_isBlank {c : Char} (h : Text.isBlank c = true) : c ∉ ['(', ')', '"', ';'] := by
  simp only [List.mem_cons, List.not_mem_nil, or_false]
  rintro (rfl | rfl | rfl | rfl) <;> exact absurd h (by decide)

/-- The text that is skipped with the nesting in the mode `mode`, in front of `s`. -/
structure Gap (mode : Mode) (g s : List Char) : Prop where
  opened : ∀ n : Nesting, n.mode = mode → (g.foldl step n).opened = n.opened
  mode : ∀ n : Nesting, n.mode = mode →
    (g.foldl step n).mode = .code ∨ (g.foldl step n).mode = .comment ∧ s = []

theorem Gap.cons {mode mode' : Mode} {c : Char} {g s : List Char} (h : Gap mode' g s)
    (hstep : ∀ n : Nesting, n.mode = mode →
      (n.step c).mode = mode' ∧ (n.step c).opened = n.opened) : Gap mode (c :: g) s := by
  refine ⟨fun n hn => ?_, fun n hn => ?_⟩
  · obtain ⟨hmode, hopened⟩ := hstep n hn
    rw [List.foldl_cons, h.opened _ hmode, hopened]
  · exact h.mode _ (hstep n hn).1

theorem exists_gapFrom (b : Bool) (r : List Char) :
    ∃ g, r = g ++ Plain.skipFrom b r ∧
      Gap (if b then .comment else .code) g (Plain.skipFrom b r) := by
  induction r generalizing b with
  | nil =>
    refine ⟨[], rfl, fun n _ => rfl, fun n hn => ?_⟩
    cases b with
    | true => exact .inr ⟨hn, rfl⟩
    | false => exact .inl hn
  | cons c r ih =>
    cases b with
    | true =>
      obtain ⟨g, hr, hg⟩ := ih (c != '\n')
      refine ⟨c :: g, congrArg (c :: ·) hr, hg.cons fun n hn => ?_⟩
      obtain ⟨hmode, hopened⟩ := Nesting.step_comment hn c
      refine ⟨hmode.trans ?_, hopened⟩
      by_cases hc : c = '\n' <;> simp [hc]
    | false =>
      rw [Plain.skipFrom]
      simp only [Bool.false_eq_true, ↓reduceIte]
      split_ifs with hc hs
      · obtain ⟨g, hr, hg⟩ := ih true
        exact ⟨c :: g, congrArg (c :: ·) hr, hg.cons fun n hn => hc ▸ Nesting.step_semicolon hn⟩
      · obtain ⟨g, hr, hg⟩ := ih false
        exact ⟨c :: g, congrArg (c :: ·) hr,
          hg.cons fun n hn => Nesting.step_other hn (not_mem_of_isBlank hs)⟩
      · exact ⟨[], rfl, fun n _ => rfl, fun n hn => .inl hn⟩

/-- **Gaps.** Blanks and comments do not matter to the nesting. -/
theorem exists_gap (r : List Char) : ∃ g, r = g ++ Plain.skip r ∧ Gap .code g (Plain.skip r) :=
  exists_gapFrom false r

/-- In front of a character everything is as it was. -/
theorem Gap.balanced {g s : List Char} {c : Char} (h : Gap .code g (c :: s)) : Balanced g := by
  intro n hn
  refine ⟨?_, h.opened n hn⟩
  rcases h.mode n hn with hmode | ⟨-, hs⟩
  · exact hmode
  · cases hs

theorem exists_of_stringRest_ok {b : Bool} {r cs s : List Char}
    (h : Plain.stringRest b r = .ok (cs, s)) :
    ∃ d, r = d ++ s ∧ ∀ (n : Nesting) (start : Nat), n.mode = .string start b →
      (d.foldl step n).mode = .code ∧ (d.foldl step n).opened = n.opened := by
  induction r generalizing b cs with
  | nil => cases h
  | cons c r ih =>
    rw [Plain.stringRest] at h
    split_ifs at h with hc
    · cases h
      refine ⟨[c], rfl, fun n start hn => ?_⟩
      obtain ⟨hmode, hopened⟩ := Nesting.step_string hn c
      rw [if_pos hc] at hmode
      exact ⟨hmode, hopened⟩
    · obtain ⟨ds, hr, -⟩ := Plain.map_eq_ok h
      obtain ⟨d, rfl, hd⟩ := ih hr
      refine ⟨c :: d, rfl, fun n start hn => ?_⟩
      obtain ⟨hmode, hopened⟩ := Nesting.step_string hn c
      rw [if_neg hc] at hmode
      rw [List.foldl_cons, ← hopened]
      exact hd _ start hmode

/-- A string that does not end. -/
theorem exists_of_stringRest_error {b : Bool} {r : List Char} {f : Fault}
    (h : Plain.stringRest b r = .error f) :
    ∃ b', f = .unterminatedString b' ∧ ∀ (n : Nesting) (start : Nat), n.mode = .string start b →
      (r.foldl step n).mode = .string start b' := by
  induction r generalizing b with
  | nil =>
    cases h
    exact ⟨b, rfl, fun n start hn => hn⟩
  | cons c r ih =>
    rw [Plain.stringRest] at h
    split_ifs at h with hc
    obtain ⟨b', hf, hb⟩ := ih (Plain.map_eq_error h)
    refine ⟨b', hf, fun n start hn => ?_⟩
    obtain ⟨hmode, -⟩ := Nesting.step_string hn c
    rw [if_neg hc] at hmode
    exact hb _ start hmode

/-- **Data are balanced.** -/
theorem balanced_datum_and_closes_items :
    (∀ c r, Significant c → ∀ cs s, Plain.datum c r = .ok (cs, s) →
      ∃ d, r = d ++ s ∧ Balanced (c :: d)) ∧
    (∀ r cs s, Plain.items r = .ok (cs, s) → ∃ d, r = d ++ s ∧ Closes d) := by
  apply Plain.datum_items_induct
    (P := fun c r => Significant c → ∀ cs s, Plain.datum c r = .ok (cs, s) →
      ∃ d, r = d ++ s ∧ Balanced (c :: d))
    (Q := fun r => ∀ cs s, Plain.items r = .ok (cs, s) → ∃ d, r = d ++ s ∧ Closes d)
  · -- a list
    intro r ih _ cs s h
    rw [Plain.datum_list] at h
    obtain ⟨ds, hi, -⟩ := Plain.map_eq_ok h
    obtain ⟨d, hr, hd⟩ := ih ds s hi
    exact ⟨d, hr, hd.balanced⟩
  · -- a stray closing parenthesis
    intro r _ cs s h
    rw [Plain.datum_eq] at h
    cases h
  · -- a string
    intro r _ cs s h
    rw [Plain.datum_string] at h
    obtain ⟨ds, hs, -⟩ := Plain.map_eq_ok h
    obtain ⟨d, hr, hd⟩ := exists_of_stringRest_ok hs
    refine ⟨d, hr, fun n hn => ?_⟩
    obtain ⟨hmode, hopened⟩ := Nesting.step_quote hn
    rw [List.foldl_cons, ← hopened]
    exact hd _ n.offset hmode
  · -- a quote at the end
    intro r hr _ cs s h
    rw [Plain.datum_eq, hr] at h
    cases h
  · -- a quote before an expression
    intro r c t hr ih _ cs s h
    rw [Plain.datum_quote hr] at h
    obtain ⟨ds, hd, -⟩ := Plain.map_eq_ok h
    obtain ⟨d, rfl, hb⟩ := ih (significant_of_skip hr) ds s hd
    obtain ⟨g, hg, hgap⟩ := exists_gap r
    rw [hr] at hg hgap
    have hquote : Balanced ['\''] := balanced_singleton (by decide)
    refine ⟨g ++ c :: d, by rw [hg]; simp, ?_⟩
    exact hquote.append (hgap.balanced.append hb)
  · -- an atom
    intro c r h1 h2 h3 h4 hsig cs s h
    rw [Plain.datum_atom r h1 h2 h3 h4] at h
    cases h
    have hc : Balanced [c] := balanced_singleton (by simp [h1, h2, h3, hsig.comment])
    refine ⟨(Plain.atomRest r).1, List.takeWhile_append_dropWhile.symm, ?_⟩
    refine hc.append (balanced_of_not_isDelimiter fun x hx => ?_)
    have hx' := List.all_eq_true.1 List.all_takeWhile x hx
    simpa using hx'
  · -- items that do not end
    intro r hr cs s h
    rw [Plain.items_eq, hr] at h
    cases h
  · -- the closing parenthesis
    intro r t hr cs s h
    rw [Plain.items_close hr] at h
    cases h
    obtain ⟨g, hg, hgap⟩ := exists_gap r
    rw [hr] at hg hgap
    exact ⟨g ++ [')'], by rw [hg]; simp, hgap.balanced.closes closes_singleton⟩
  · -- an item that cannot be cut out
    intro r c t f hr hc hd _ cs s h
    rw [Plain.items_cons hr hc, hd] at h
    cases h
  · -- an item and those behind it
    intro r c t cs u hr hc hd ih ih' ds s h
    rw [Plain.items_cons hr hc, hd] at h
    obtain ⟨es, hi, -⟩ := Plain.map_eq_ok h
    obtain ⟨d, rfl, hb⟩ := ih (significant_of_skip hr) cs u hd
    obtain ⟨d', rfl, hb'⟩ := ih' es s hi
    obtain ⟨g, hg, hgap⟩ := exists_gap r
    rw [hr] at hg hgap
    refine ⟨g ++ c :: d ++ d', by rw [hg]; simp, ?_⟩
    exact (hgap.balanced.append hb).closes hb'

end Sigil.Datum
