import Sigil.Proofs.Placing
import Sigil.Proofs.Nesting

/-!
# What a reader blames

`Datum.accuses_read`: when no expression can be read, the failure points at the text that is to
blame.  What that text is, is said by the nesting of the expression up to there (`Culprit`).

1. The reader stands at a cursor, and each of its parts moves the cursor over the text that the
   plain reader says (`significant_some`, `significant_none`, `datumFrom_at`).
2. A failure inside a datum blames a part of what was read of the expression
   (`accuses_datumFrom_and_itemsFrom`).
-/

namespace Sigil

open Input (byteLength)

namespace Datum

open Nesting (step)

/-! ## Cursors -/

section

variable {i : Input} {P R r : List Char}

theorem behind_at {u : List Char} {c : Char} (h : i.At ⟨P, R ++ (u ++ [c]), r⟩) :
    i.behind c = byteLength (P ++ (R ++ u)) := by
  rw [Input.behind, h.offset, Cursor.before]
  simp only [Input.byteLength_append, Input.byteLength_cons, Input.byteLength_nil]
  omega

/-- Skipping to a character. -/
theorem significant_some (h : i.At ⟨P, R, r⟩) {c : Char} {s : List Char}
    (hr : Plain.skip r = c :: s) :
    ∃ g j, r = g ++ c :: s ∧ Balanced g ∧ significant i = (.ok (some c), j) ∧
      j.At ⟨P, R ++ (g ++ [c]), s⟩ := by
  have hreads := reads_significant h.legible
  rw [h.remaining, hr] at hreads
  rcases hs : significant i with ⟨x, j⟩
  rw [hs] at hreads
  obtain rfl : x = .ok (some c) := hreads.value
  obtain ⟨cs, hreach⟩ := reaches_significant hs
  obtain ⟨rest, hrest, hat⟩ := hreach.at_cursor h
  have hj : rest = s := hat.remaining.symm.trans hreads.remaining
  subst hj
  obtain ⟨g, hg, hgap⟩ := exists_gap r
  rw [hr] at hg hgap
  refine ⟨g, j, hg, hgap.balanced, rfl, ?_⟩
  have hcs : cs = g := by
    have heq : g ++ c :: rest = cs ++ [c] ++ rest := hg.symm.trans hrest
    rw [List.append_assoc, List.singleton_append] at heq
    exact (List.append_cancel_right heq).symm
  rw [← hcs]
  exact hat

/-- Skipping to the end. -/
theorem significant_none (h : i.At ⟨P, R, r⟩) (hr : Plain.skip r = []) :
    ∃ j, significant i = (.ok none, j) ∧ j.At ⟨P, R ++ r, []⟩ := by
  have hreads := reads_significant h.legible
  rw [h.remaining, hr] at hreads
  rcases hs : significant i with ⟨x, j⟩
  rw [hs] at hreads
  obtain rfl : x = .ok none := hreads.value
  obtain ⟨cs, hreach⟩ := reaches_significant hs
  obtain ⟨rest, hrest, hat⟩ := hreach.at_cursor h
  have hj : rest = [] := hat.remaining.symm.trans hreads.remaining
  subst hj
  refine ⟨j, rfl, ?_⟩
  rw [show r = cs ++ Input.taken (.ok none) from by simpa using hrest]
  exact hat

/-- Behind a datum. -/
theorem datumFrom_at (start : Nat) {c : Char} {cs s : List Char} (h : i.At ⟨P, R ++ [c], r⟩)
    (hc : Significant c) (hd : Plain.datum c r = .ok (cs, s)) :
    ∃ d k, r = d ++ s ∧ Balanced (c :: d) ∧ (datumFrom start c i).1 = (.ok cs, k) ∧
      k.At ⟨P, R ++ c :: d, s⟩ := by
  have hagrees := (agrees_datumFrom_and_itemsFrom start).1 c i h.legible
  rw [h.remaining, hd] at hagrees
  obtain ⟨k, hk, -, hrk⟩ := hagrees.exists_ok
  obtain ⟨ds, hreach⟩ := (reaches_datumFrom_and_itemsFrom start).1 c i
  rw [hk] at hreach
  obtain ⟨rest, hrest, hat⟩ := hreach.at_cursor h
  have hs : rest = s := hat.remaining.symm.trans hrk
  subst hs
  obtain ⟨d, hr, hb⟩ := balanced_datum_and_closes_items.1 c r hc cs rest hd
  have hds : ds = d := List.append_cancel_right (hrest.symm.trans hr)
  subst hds
  refine ⟨ds, k, hr, hb, hk, ?_⟩
  rw [List.append_assoc] at hat
  exact hat

end

/-! ## Culprits -/

/-- Of an expression that cannot be read, `v ++ blamed` was read; then the text `rest` follows.  The
fault lies in `blamed`. -/
inductive Culprit (v blamed rest : List Char) : Fault → Prop
  /-- The innermost parenthesis that is open at the end of the text. -/
  | unbalancedList (hend : rest = []) (hstart : blamed.head? = some '(')
    (hopened : (Nesting.of (v ++ blamed)).opened.head? = some (byteLength v))
    (hmode : ∀ start b, (Nesting.of (v ++ blamed)).mode ≠ .string start b) :
    Culprit v blamed rest .unbalancedList
  /-- The string in which the text ends. -/
  | unterminatedString (b : Bool) (hend : rest = []) (hstart : blamed.head? = some '"')
    (hmode : (Nesting.of (v ++ blamed)).mode = .string (byteLength v) b) :
    Culprit v blamed rest (.unterminatedString b)
  /-- A closing parenthesis where an expression is due. -/
  | strayClose (hblamed : blamed = [')']) (hmode : (Nesting.of v).mode = .code) :
    Culprit v blamed rest .strayClose
  /-- The whole expression, which ends in a quote and blanks. -/
  | danglingQuote (hv : v = []) (hend : rest = [])
    (hquote : ∃ w z, blamed = w ++ '\'' :: z ∧ (Nesting.of w).mode = .code ∧ Plain.skip z = []) :
    Culprit v blamed rest .danglingQuote

/-- The failure `f`, raised at `k`, blames a part of `expr`, the text that was read of the
expression behind `P ++ R`. -/
def Accuses (P R expr rest : List Char) (f : Failure) (k : Input) : Prop :=
  k.At ⟨P, R ++ expr, rest⟩ ∧ ∃ v blamed fault, expr = v ++ blamed ∧
    f = k.failure fault (byteLength (P ++ (R ++ v))) ∧ Culprit v blamed rest fault

variable {P R : List Char}

/-- A string that does not end. -/
theorem stringRest_at (start : Nat) {b : Bool} {i k : Input} {R r : List Char} {f : Failure}
    (h : i.At ⟨P, R, r⟩) (hf : (stringRest start b i).1 = (.error f, k)) :
    ∃ b', Plain.stringRest b r = .error (.unterminatedString b') ∧
      f = k.failure (.unterminatedString b') start ∧ k.At ⟨P, R ++ r, []⟩ := by
  have hn := h.next
  fun_induction stringRest start b i generalizing R r with
  | case1 b i f' j hj =>
    rw [hj] at hn
    cases hn.1
  | case2 b i j hj =>
    rw [hj] at hn
    cases hf
    have hr : r = [] := List.head?_eq_none_iff.1 (Except.ok.inj hn.1).symm
    subst hr
    exact ⟨b, rfl, rfl, by rw [List.append_nil]; exact hn.2⟩
  | case3 b i c j hj _ hc => cases hf
  | case4 b i c j hj _ hc ih =>
    rw [hj] at hn
    obtain ⟨s, rfl⟩ : ∃ s, r = c :: s :=
      ⟨r.tail, List.eq_cons_of_mem_head? (Except.ok.inj hn.1).symm⟩
    have hat : j.At ⟨P, R ++ [c], s⟩ := hn.2
    generalize hx : (stringRest start (!b && c == '\\') j).1 = x at ih
    obtain ⟨x, k'⟩ := x
    simp only [Outcome.from, Outcome.map, hx, Prod.mk.injEq] at hf
    obtain ⟨hf, rfl⟩ := hf
    cases x with
    | ok cs => cases hf
    | error f' =>
      cases hf
      obtain ⟨b', hb, hf, hk⟩ := ih hat rfl hat.next
      refine ⟨b', ?_, hf, by rw [List.append_assoc] at hk; exact hk⟩
      rw [Plain.stringRest, if_neg hc, hb]
      rfl

theorem map_fst_eq_error {α β : Type} {x : Except Failure α × Input} {g : α → β} {f : Failure}
    {k : Input} (h : (x.1.map g, x.2) = (.error f, k)) : x = (.error f, k) := by
  obtain ⟨e | a, j⟩ := x <;> cases h
  rfl

/-- **Data.** A datum that cannot be cut out blames a part of the expression it belongs to. -/
theorem accuses_datumFrom_and_itemsFrom {start : Nat} (hstart : start = byteLength (P ++ R)) :
    (∀ c r, ∀ (i : Input) (u : List Char), i.At ⟨P, R ++ (u ++ [c]), r⟩ → Significant c →
      (Nesting.of u).mode = .code → ∀ f k, (datumFrom start c i).1 = (.error f, k) →
      ∃ d rest, r = d ++ rest ∧ Accuses P R (u ++ c :: d) rest f k) ∧
    (∀ r, ∀ (i : Input) (u o y : List Char), i.At ⟨P, R ++ u, r⟩ → u = o ++ '(' :: y →
      (Nesting.of u).mode = .code → (Nesting.of u).opened.head? = some (byteLength o) →
      ∀ f k, (itemsFrom start (byteLength (P ++ (R ++ o))) i).1 = (.error f, k) →
      ∃ d rest, r = d ++ rest ∧ Accuses P R (u ++ d) rest f k) := by
  apply Plain.datum_items_induct
    (P := fun c r => ∀ (i : Input) (u : List Char), i.At ⟨P, R ++ (u ++ [c]), r⟩ →
      Significant c → (Nesting.of u).mode = .code →
      ∀ f k, (datumFrom start c i).1 = (.error f, k) →
      ∃ d rest, r = d ++ rest ∧ Accuses P R (u ++ c :: d) rest f k)
    (Q := fun r => ∀ (i : Input) (u o y : List Char), i.At ⟨P, R ++ u, r⟩ → u = o ++ '(' :: y →
      (Nesting.of u).mode = .code → (Nesting.of u).opened.head? = some (byteLength o) →
      ∀ f k, (itemsFrom start (byteLength (P ++ (R ++ o))) i).1 = (.error f, k) →
      ∃ d rest, r = d ++ rest ∧ Accuses P R (u ++ d) rest f k)
  · -- a list
    intro r ih i u hi _ hu f k hf
    rw [datumFrom_list, behind_at hi] at hf
    obtain ⟨hmode, hopened⟩ := Nesting.step_open hu
    have hu' : Nesting.of (u ++ ['(']) = (Nesting.of u).step '(' := Nesting.of_append u ['(']
    obtain ⟨d, rest, hr, ha⟩ := ih i (u ++ ['(']) u [] hi rfl (by rw [hu']; exact hmode)
      (by rw [hu', hopened, List.head?_cons, Nesting.offset_of]) f k (map_fst_eq_error hf)
    exact ⟨d, rest, hr, by rwa [List.append_assoc] at ha⟩
  · -- a stray closing parenthesis
    intro r i u hi _ hu f k hf
    rw [datumFrom_close, behind_at hi] at hf
    cases hf
    exact ⟨[], r, rfl, hi, u, [')'], .strayClose, rfl, rfl, .strayClose rfl hu⟩
  · -- a string
    intro r i u hi _ hu f k hf
    rw [datumFrom_string, behind_at hi] at hf
    obtain ⟨b, hplain, hfail, hk⟩ := stringRest_at _ hi (map_fst_eq_error hf)
    obtain ⟨b', hb, hmode⟩ := exists_of_stringRest_error hplain
    cases hb
    refine ⟨r, [], (List.append_nil r).symm, ?_, u, '"' :: r, .unterminatedString b, rfl, hfail,
      .unterminatedString b rfl rfl ?_⟩
    · simpa using hk
    · rw [Nesting.of_append, ← Nesting.offset_of]
      exact hmode _ _ (Nesting.step_quote hu).1
  · -- a quote at the end
    intro r hr i u hi _ hu f k hf
    obtain ⟨j, hs, hj⟩ := significant_none hi hr
    rw [datumFrom_quote, hs] at hf
    cases hf
    refine ⟨r, [], (List.append_nil r).symm, by simpa using hj, [], u ++ '\'' :: r, .danglingQuote,
      rfl, by rw [hstart, List.append_nil], .danglingQuote rfl rfl ⟨u, r, rfl, hu, hr⟩⟩
  · -- a quote before an expression
    intro r d s hr ih i u hi _ hu f k hf
    obtain ⟨g, j, hg, hb, hs, hj⟩ := significant_some hi hr
    rw [datumFrom_quote, hs] at hf
    have hquote : Balanced (['\''] ++ g) := (balanced_singleton (by decide)).append hb
    have hu' : (Nesting.of (u ++ '\'' :: g)).mode = .code := by
      rw [Nesting.of_append]
      exact (hquote _ hu).1
    obtain ⟨e, rest, hrest, ha⟩ := ih j (u ++ '\'' :: g) (by simpa using hj)
      (significant_of_skip hr) hu' f k (map_fst_eq_error hf)
    exact ⟨g ++ d :: e, rest, by rw [hg, hrest]; simp, by simpa using ha⟩
  · -- an atom
    intro c r h1 h2 h3 h4 i u hi hc _ f k hf
    obtain ⟨d, k', -, -, hok, -⟩ := datumFrom_at start (R := R ++ u) (by simpa using hi) hc
      (Plain.datum_atom r h1 h2 h3 h4)
    cases hok.symm.trans hf
  · -- items that do not end
    intro r hr i u o y hi hu hmode hopened f k hf
    obtain ⟨j, hs, hj⟩ := significant_none hi hr
    obtain ⟨g, hg, hgap⟩ := exists_gap r
    rw [hr, List.append_nil] at hg
    rw [itemsFrom_eq, hs] at hf
    cases hf
    have hexpr : u ++ r = o ++ '(' :: (y ++ r) := by rw [hu]; simp
    refine ⟨r, [], (List.append_nil r).symm, by simpa using hj, o, '(' :: (y ++ r),
      .unbalancedList, hexpr, rfl, .unbalancedList rfl rfl ?_ ?_⟩
    · rw [← hexpr, Nesting.of_append, hg, hgap.opened _ hmode, hopened]
    · intro start' b
      rw [← hexpr, Nesting.of_append, hg]
      rcases hgap.mode _ hmode with h | ⟨h, -⟩ <;> rw [h] <;> simp
  · -- the closing parenthesis
    intro r s hr i u o y hi hu hmode hopened f k hf
    obtain ⟨g, j, -, -, hs, -⟩ := significant_some hi hr
    rw [itemsFrom_eq, hs] at hf
    cases hf
  · -- an item that fails
    intro r c s e hr hc hd ih i u o y hi hu hmode hopened f k hf
    obtain ⟨g, j, hg, hb, hs, hj⟩ := significant_some hi hr
    rw [itemsFrom_eq, hs] at hf
    simp only [hc, ↓reduceIte] at hf
    have hu' : (Nesting.of (u ++ g)).mode = .code := by
      rw [Nesting.of_append]
      exact (hb _ hmode).1
    have hagrees := (agrees_datumFrom_and_itemsFrom start).1 c j hj.legible
    rw [hj.remaining, hd] at hagrees
    rcases hx : (datumFrom start c j).1 with ⟨f' | cs, k'⟩
    · rw [hx] at hf
      cases hf
      obtain ⟨d, rest, hrest, ha⟩ := ih j (u ++ g) (by simpa using hj) (significant_of_skip hr) hu'
        f k hx
      exact ⟨g ++ c :: d, rest, by rw [hg, hrest]; simp, by simpa using ha⟩
    · rw [hx] at hagrees
      cases hagrees.of_ok.1
  · -- an item and those behind it
    intro r c s cs t hr hc hd ih ih' i u o y hi hu hmode hopened f k hf
    obtain ⟨g, j, hg, hb, hs, hj⟩ := significant_some hi hr
    obtain ⟨d, k', hst, hbd, hok, hk'⟩ := datumFrom_at start (R := R ++ (u ++ g))
      (by simpa using hj) (significant_of_skip hr) hd
    rw [itemsFrom_eq, hs] at hf
    simp only [hc, ↓reduceIte, hok] at hf
    -- the item is balanced, so the innermost parenthesis is the same behind it
    obtain ⟨hmode', hopened'⟩ := (hb.append hbd) _ hmode
    rw [← Nesting.of_append] at hmode' hopened'
    obtain ⟨d', rest, hrest, ha⟩ := ih' k' (u ++ (g ++ c :: d)) o (y ++ (g ++ c :: d))
      (by simpa using hk') (by rw [hu]; simp) hmode' (by rw [hopened', hopened]) f k
      (map_fst_eq_error hf)
    exact ⟨g ++ c :: d ++ d', rest, by rw [hg, hst, hrest]; simp, by simpa using ha⟩

/-! ## Expressions -/

/-- The text that is cut out is a datum. -/
theorem exists_parse_of_datum (casing : Text.Casing) {c : Char} {r cs s : List Char}
    (hc : Significant c) (h : Plain.datum c r = .ok (cs, s)) :
    ∃ e, parse casing (String.ofList cs) = .ok e := by
  obtain ⟨e, he, -⟩ := (datum_spells casing).1 c r hc cs s h
  obtain ⟨ds, rfl⟩ := exists_cons_of_datum h
  exact ⟨e, parse_eq_ok_iff.2 (parse?_of_spells hc he)⟩

theorem accuses_expressionFrom {casing : Text.Casing} {c : Char} {i k : Input} {r : List Char}
    {f : Failure} (h : i.At ⟨P, R ++ [c], r⟩) (hc : Significant c)
    (hf : (expressionFrom casing c i).1 = (.error f, k)) :
    ∃ d rest, r = d ++ rest ∧ Accuses P R (c :: d) rest f k := by
  have hstart : i.behind c = byteLength (P ++ R) := by
    have hb := behind_at (u := []) h
    rwa [List.append_nil] at hb
  have hagrees := (agrees_datumFrom_and_itemsFrom (i.behind c)).1 c i h.legible
  rw [h.remaining] at hagrees
  rw [expressionFrom_eq] at hf
  rcases hx : (datumFrom (i.behind c) c i).1 with ⟨f' | cs, j⟩
  · rw [hx] at hf
    cases hf
    exact (accuses_datumFrom_and_itemsFrom hstart).1 c r i [] h hc rfl f k hx
  · rw [hx] at hf hagrees
    obtain ⟨e, he⟩ := exists_parse_of_datum casing hc hagrees.of_ok.1
    simp only [he] at hf
    cases hf

/-- What a failure to read an expression behind `P ++ R` says: there is none in the text `r`, or it
starts behind the gap `g` and a part of it is to blame. -/
inductive ReadAccuses (P R r : List Char) (f : Failure) (k : Input) : Prop
  | missing (hr : Plain.skip r = []) (hk : k.At ⟨P, R ++ r, []⟩)
    (hf : f = k.failure .missingExpression (byteLength (P ++ (R ++ r))))
  | inside {g expr rest : List Char} (hr : r = g ++ (expr ++ rest))
    (hskip : Plain.skip r = expr ++ rest) (ha : Accuses P (R ++ g) expr rest f k)

/-- **Reading.** -/
theorem accuses_read {casing : Text.Casing} {i k : Input} {r : List Char} {f : Failure}
    (h : i.At ⟨P, R, r⟩) (hf : read casing i = (.error f, k)) : ReadAccuses P R r f k := by
  unfold read at hf
  rcases hr : Plain.skip r with _ | ⟨c, s⟩
  · obtain ⟨j, hs, hj⟩ := significant_none h hr
    rw [hs] at hf
    cases hf
    refine .missing hr hj ?_
    rw [hj.offset, Cursor.before]
  · obtain ⟨g, j, hg, -, hs, hj⟩ := significant_some h hr
    rw [hs] at hf
    obtain ⟨d, rest, hrest, ha⟩ := accuses_expressionFrom (R := R ++ g) (by simpa using hj)
      (significant_of_skip hr) hf
    have hparts : r = g ++ ((c :: d) ++ rest) := by rw [hg, hrest]; simp
    exact .inside hparts (by rw [hr, hrest]; rfl) ha

end Datum

end Sigil
