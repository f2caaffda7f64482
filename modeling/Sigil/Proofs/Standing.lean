import Sigil.Proofs.Culprits
import Sigil.Proofs.Locality

/-!
# Texts and what they can become

`Datum.existsUnique_standing`: reading an expression tells a text that is not finished from one that
is wrong.  A text without an expression, one that stops inside an expression, one with a stray
closing parenthesis and one that starts with an expression are told apart, and what reading says of
a text holds of the texts that go on from it.

1. A stray closing parenthesis is met whatever follows it, and at the same place
   (`strays_datumFrom_and_itemsFrom`).
2. Reading an expression fails for one of three reasons, or takes the text of the expression and no
   more (`Plain.comes`).
3. Each of the four outcomes gives a standing, and the result of reading shows which one it is
   (`Standing.Holds.eq_shown`).
-/

namespace Sigil.Datum

open Text (Casing)
open Input (byteLength)

/-! ## Stray parentheses -/

/-- The failure at a closing parenthesis that was read last. -/
def strayed (k : Input) : Failure := k.failure .strayClose (k.behind ')')

/-- Behind `c` the text `d` ends in a stray closing parenthesis: cutting out a datum fails right
behind it, whatever follows. -/
def Strays (c : Char) (d : List Char) : Prop :=
  ∀ (t : List Char) (start : Nat) (i : Input) (P R : List Char), i.At ⟨P, R ++ [c], d ++ t⟩ →
    ∃ k, (datumFrom start c i).1 = (.error (strayed k), k) ∧ k.At ⟨P, R ++ c :: d, t⟩

/-- Among the items of a list the text `d` ends in a stray closing parenthesis. -/
def StraysItems (d : List Char) : Prop :=
  ∀ (t : List Char) (start opened : Nat) (i : Input) (P R : List Char), i.At ⟨P, R, d ++ t⟩ →
    ∃ k, (itemsFrom start opened i).1 = (.error (strayed k), k) ∧ k.At ⟨P, R ++ d, t⟩

/-- Skipping blanks and comments to a character. -/
theorem significant_behind {i : Input} {P R g x : List Char} {c : Char} (hg : Blanks g)
    (hc : Significant c) (h : i.At ⟨P, R, g ++ c :: x⟩) :
    ∃ j, significant i = (.ok (some c), j) ∧ j.At ⟨P, R ++ g ++ [c], x⟩ := by
  obtain ⟨g', j, hg', -, hs, hj⟩ := significant_some h (hg.skip_cons hc x)
  obtain rfl := List.append_cancel_right hg'
  rw [← List.append_assoc] at hj
  exact ⟨j, hs, hj⟩

theorem Strays.list {d : List Char} (h : StraysItems d) : Strays '(' d := by
  intro t start i P R hi
  obtain ⟨k, hk, hat⟩ := h t start (i.behind '(') i P (R ++ ['(']) hi
  refine ⟨k, ?_, by rwa [List.append_assoc] at hat⟩
  rw [datumFrom_list, hk]
  rfl

theorem Strays.quote {c : Char} {g d : List Char} (hg : Blanks g) (hc : Significant c)
    (h : Strays c d) : Strays '\'' (g ++ c :: d) := by
  intro t start i P R hi
  rw [List.append_assoc] at hi
  obtain ⟨j, hs, hj⟩ := significant_behind hg hc hi
  obtain ⟨k, hk, hat⟩ := h t start j P _ hj
  refine ⟨k, ?_, by simpa using hat⟩
  rw [datumFrom_quote, hs]
  dsimp only
  rw [hk]
  rfl

/-- A stray closing parenthesis in an item. -/
theorem Strays.item {c : Char} {g d : List Char} (hg : Blanks g) (hc : Significant c)
    (hclose : c ≠ ')') (h : Strays c d) : StraysItems (g ++ c :: d) := by
  intro t start opened i P R hi
  rw [List.append_assoc] at hi
  obtain ⟨j, hs, hj⟩ := significant_behind hg hc hi
  obtain ⟨k, hk, hat⟩ := h t start j P _ hj
  refine ⟨k, ?_, by simpa using hat⟩
  rw [itemsFrom_eq, hs]
  simp only [hclose, ↓reduceIte]
  rw [hk]

/-- A stray closing parenthesis behind an item. -/
theorem StraysItems.cons {c : Char} {g d d' cs : List Char} (hg : Blanks g) (hc : Significant c)
    (hclose : c ≠ ')') (hd : ∀ t, Plain.datum c (d ++ (d' ++ t)) = .ok (cs, d' ++ t))
    (h : StraysItems d') : StraysItems (g ++ c :: d ++ d') := by
  intro t start opened i P R hi
  simp only [List.append_assoc, List.cons_append] at hi
  obtain ⟨j, hs, hj⟩ := significant_behind hg hc hi
  obtain ⟨a, k, ha, -, hok, hk⟩ := datumFrom_at start hj hc (hd t)
  obtain rfl := List.append_cancel_right ha
  obtain ⟨l, hl, hat⟩ := h t start opened k P _ hk
  refine ⟨l, ?_, by simpa using hat⟩
  rw [itemsFrom_eq, hs]
  simp only [hclose, ↓reduceIte, hok]
  rw [hl]
  rfl

/-- **Stray closing parentheses** are met whatever follows them. -/
theorem strays_datumFrom_and_itemsFrom :
    (∀ c r, Plain.datum c r = .error .strayClose → ∃ d s, r = d ++ s ∧ Strays c d) ∧
    (∀ r, Plain.items r = .error .strayClose → ∃ d s, r = d ++ s ∧ d ≠ [] ∧ StraysItems d) := by
  apply Plain.datum_items_induct
    (P := fun c r => Plain.datum c r = .error .strayClose → ∃ d s, r = d ++ s ∧ Strays c d)
    (Q := fun r => Plain.items r = .error .strayClose →
      ∃ d s, r = d ++ s ∧ d ≠ [] ∧ StraysItems d)
  · -- a list
    intro r ih h
    rw [Plain.datum_list] at h
    obtain ⟨d, s, hr, -, hd⟩ := ih (Plain.map_eq_error h)
    exact ⟨d, s, hr, .list hd⟩
  · -- a stray closing parenthesis
    intro r _
    exact ⟨[], r, rfl, fun t start i P R hi => ⟨i, datumFrom_close start i, hi⟩⟩
  · -- a string
    intro r h
    rw [Plain.datum_string] at h
    obtain ⟨⟨b, hb⟩, -⟩ := Plain.exists_stringRest_append (Plain.map_eq_error h)
    cases hb
  · -- a quote at the end
    intro r hr h
    rw [Plain.datum_eq, hr] at h
    cases h
  · -- a quote before an expression
    intro r c u hr ih h
    rw [Plain.datum_quote hr] at h
    obtain ⟨d, s, rfl, hd⟩ := ih (Plain.map_eq_error h)
    obtain ⟨g, hg, rfl⟩ := exists_blanks hr
    exact ⟨g ++ c :: d, s, by simp, hd.quote hg (significant_of_skip hr)⟩
  · -- an atom
    intro c r h1 h2 h3 h4 h
    rw [Plain.datum_atom r h1 h2 h3 h4] at h
    cases h
  · -- items that do not end
    intro r hr h
    rw [Plain.items_eq, hr] at h
    cases h
  · -- the closing parenthesis
    intro r u hr h
    rw [Plain.items_close hr] at h
    cases h
  · -- an item with a stray closing parenthesis
    intro r c u f hr hc hd ih h
    rw [Plain.items_cons hr hc, hd] at h
    cases h
    obtain ⟨d, s, rfl, hds⟩ := ih hd
    obtain ⟨g, hg, rfl⟩ := exists_blanks hr
    exact ⟨g ++ c :: d, s, by simp, by simp, hds.item hg (significant_of_skip hr) hc⟩
  · -- an item before a stray closing parenthesis
    intro r c u cs v hr hc hd _ ih' h
    rw [Plain.items_cons hr hc, hd] at h
    obtain ⟨d', s, rfl, hne, hds⟩ := ih' (Plain.map_eq_error h)
    obtain ⟨d, rfl, hend, hlocal⟩ := Plain.local_datum_and_items.1 c u cs _ hd
    obtain ⟨g, hg, rfl⟩ := exists_blanks hr
    have hitem : ∀ t, Plain.datum c (d ++ (d' ++ t)) = .ok (cs, d' ++ t) := fun t =>
      hlocal (d' ++ t) (hend.imp_left fun h => h.of_append hne t)
    exact ⟨g ++ c :: d ++ d', s, by simp, by simp,
      .cons hg (significant_of_skip hr) hc hitem hds⟩

/-! ## Expressions -/

namespace Plain

theorem read_of_datum {casing : Casing} {c : Char} {r u cs s : List Char} {e : Expr}
    (hr : skip r = c :: u) (hd : datum c u = .ok (cs, s))
    (he : parse casing (String.ofList cs) = .ok e) : read casing r = .ok (e, s) := by
  rw [read, hr]
  show expression casing c u = _
  rw [expression, hd]
  simp only [parse_eq_ok_iff.1 he]

theorem read_of_datum_error {casing : Casing} {c : Char} {r u : List Char} {f : Fault}
    (hr : skip r = c :: u) (hd : datum c u = .error f) : read casing r = .error f := by
  rw [read, hr]
  show expression casing c u = _
  rw [expression, hd]

/-- What reading an expression from a text can come to. -/
inductive Comes (casing : Casing) (r : List Char) : Prop
  | vacant (hr : Vacant r) (h : read casing r = .error .missingExpression)
  | unfinished {f : Fault} (hf : Unfinished f) (h : read casing r = .error f)
    (hmore : ∃ t e, read casing (r ++ t) = .ok (e, []))
  | wrong {d s : List Char} (hr : r = d ++ s)
    (h : ∀ (t : List Char) (i : Input) (P R : List Char), i.At ⟨P, R, d ++ t⟩ →
      ∃ k, Datum.read casing i = (.error (strayed k), k) ∧ k.At ⟨P, R ++ d, t⟩)
  | whole {e : Expr} {d s : List Char} (hr : r = d ++ s) (hs : Delimited s ∨ Sealed d)
    (h : ∀ t, Delimited t ∨ Sealed d → read casing (d ++ t) = .ok (e, t))

/-- **Reading an expression** fails for one of three reasons, or takes the text of the expression
and no more. -/
theorem comes (casing : Casing) (r : List Char) : Comes casing r := by
  rcases hr : skip r with _ | ⟨c, u⟩
  · refine .vacant (vacant_iff.2 hr) ?_
    rw [read, hr]
  · have hc := significant_of_skip hr
    rcases hd : datum c u with f | ⟨cs, s⟩
    · by_cases hf : f = .strayClose
      · subst hf
        obtain ⟨d, s, rfl, hds⟩ := strays_datumFrom_and_itemsFrom.1 c u hd
        obtain ⟨g, hg, rfl⟩ := exists_blanks hr
        refine .wrong (d := g ++ c :: d) (s := s) (by simp) fun t i P R hi => ?_
        rw [List.append_assoc] at hi
        obtain ⟨j, hs, hj⟩ := significant_behind hg hc hi
        obtain ⟨k, hk, hat⟩ := hds t (j.behind c) j P _ hj
        refine ⟨k, ?_, by simpa using hat⟩
        rw [Datum.read, hs]
        dsimp only
        rw [expressionFrom_eq, hk]
      · obtain ⟨hun, t, cs, ht⟩ := finished_datum_and_items.1 c u f hd hf
        obtain ⟨e, he⟩ := exists_parse_of_datum casing hc ht
        exact .unfinished hun (read_of_datum_error hr hd)
          ⟨t, e, read_of_datum (skip_append hr t) ht he⟩
    · obtain ⟨e, he⟩ := exists_parse_of_datum casing hc hd
      obtain ⟨d, rfl, hend, hlocal⟩ := local_datum_and_items.1 c u cs s hd
      obtain ⟨g, hg, rfl⟩ := exists_blanks hr
      have hsealed : Sealed (g ++ c :: d) ↔ Sealed (c :: d) :=
        sealed_append g (List.cons_ne_nil c d)
      refine .whole (d := g ++ c :: d) (s := s) (e := e) (by simp) (by rwa [hsealed])
        fun t ht => ?_
      rw [hsealed] at ht
      have hskip : skip (g ++ c :: d ++ t) = c :: (d ++ t) := by
        rw [List.append_assoc]
        exact hg.skip_cons hc (d ++ t)
      exact read_of_datum hskip (hlocal t ht) he

end Plain

/-! ## Standings -/

/-- How a text stands to the expressions that it can start with. -/
inductive Standing where
  | vacant
  | unfinished
  | wrong
  | whole
deriving DecidableEq, Repr

namespace Standing

/-- What the standing says of reading an expression from the text, and from the texts that go on
from it. -/
def Holds (casing : Casing) (name text : String) : Standing → Prop
  | .vacant =>
    Vacant text.toList ∧
    ∃ f j, read casing (.ofText name text) = (.error f, j) ∧ f.fault.kind = .endOfInput
  | .unfinished =>
    (∃ f j, read casing (.ofText name text) = (.error f, j) ∧ f.fault.kind = .malformed ∧
      f.fault.message ∈
        ["unbalanced list", "unterminated string", "quote is not followed by an expression"]) ∧
    ∃ more e j, read casing (.ofText name (text ++ more)) = (.ok e, j)
  | .wrong =>
    ∃ f j, read casing (.ofText name text) = (.error f, j) ∧ f.fault.kind = .malformed ∧
      f.fault.message = "unexpected ')'" ∧ f.span.isSome = true ∧
      ∀ more, ∃ g k, read casing (.ofText name (text ++ more)) = (.error g, k) ∧
        g.fault = f.fault ∧ g.span = f.span
  | .whole =>
    ∃ e j taken rest, read casing (.ofText name text) = (.ok e, j) ∧ j.drain = .ok rest.toList ∧
      text = taken ++ rest ∧
      ∀ more : String, rest ≠ "" ∨ Delimited more.toList ∨ Sealed taken.toList →
        ∃ k, read casing (.ofText name (text ++ more)) = (.ok e, k) ∧
          k.drain = .ok (rest ++ more).toList

/-- The standing that a result shows. -/
def shown : Except Failure Expr → Standing
  | .ok _ => .whole
  | .error f =>
    if f.fault.kind = .endOfInput then .vacant
    else if f.fault.message = "unexpected ')'" then .wrong
    else .unfinished

variable {casing : Casing} {name text : String}

/-- No two standings hold of a text: the result of reading shows which one does. -/
theorem Holds.eq_shown {v : Standing} (h : v.Holds casing name text) :
    v = shown (read casing (.ofText name text)).1 := by
  cases v with
  | vacant =>
    obtain ⟨-, f, j, hr, hk⟩ := h
    rw [hr, shown, if_pos hk]
  | unfinished =>
    obtain ⟨⟨f, j, hr, hk, hm⟩, -⟩ := h
    have hend : f.fault.kind ≠ .endOfInput := by rw [hk]; decide
    have hstray : f.fault.message ≠ "unexpected ')'" := fun he => absurd (he ▸ hm) (by decide)
    rw [hr, shown, if_neg hend, if_neg hstray]
  | wrong =>
    obtain ⟨f, j, hr, hk, hm, -⟩ := h
    have hend : f.fault.kind ≠ .endOfInput := by rw [hk]; decide
    rw [hr, shown, if_neg hend, if_pos hm]
  | whole =>
    obtain ⟨e, j, taken, rest, hr, -⟩ := h
    rw [hr, shown]

end Standing

/-- Reading from a text fails as the plain reader does. -/
theorem exists_read_error {casing : Casing} (name : String) {text : String} {e : Fault}
    (h : Plain.read casing text.toList = .error e) :
    ∃ f j, read casing (.ofText name text) = (.error f, j) ∧ f.fault = e := by
  have hagrees := agrees_read casing (Input.legible_ofText name text)
  rw [Input.remaining_ofText, h] at hagrees
  exact hagrees.exists_error

/-- Reading from a text succeeds as the plain reader does. -/
theorem exists_read_ok {casing : Casing} (name : String) {text : String} {e : Expr}
    {s : List Char} (h : Plain.read casing text.toList = .ok (e, s)) :
    ∃ j : Input, read casing (.ofText name text) = (.ok e, j) ∧ j.drain = .ok s := by
  obtain ⟨d, j, -, hj, hat⟩ := read_at (Input.at_start name text) h
  exact ⟨j, hj, by rw [Input.drain_eq hat.legible, hat.remaining]⟩

/-- Where nothing was dropped from the window, the failure at a stray parenthesis points at the last
byte that was read. -/
theorem span_strayed {k : Input} {R r : List Char} (h : k.At ⟨[], R, r⟩) :
    (strayed k).span = some ⟨byteLength R - 1, byteLength R⟩ := by
  have hstart : k.windowStart = 0 := by
    have hle := h.windowStart_le_mark
    rw [h.mark] at hle
    exact Nat.le_zero.1 hle
  have hoffset : k.offset = byteLength R := h.offset
  show some (Span.mk (k.offset - 1 - k.windowStart) (k.offset - k.windowStart)) = _
  rw [hstart, hoffset]
  rfl

theorem Unfinished.malformed {f : Fault} (h : Unfinished f) :
    f.kind = .malformed ∧ f.message ∈
      ["unbalanced list", "unterminated string", "quote is not followed by an expression"] := by
  cases h with
  | list => exact ⟨rfl, List.mem_cons_self⟩
  | string b => exact ⟨rfl, List.mem_cons_of_mem _ List.mem_cons_self⟩
  | quote => exact ⟨rfl, List.mem_cons_of_mem _ (List.mem_cons_of_mem _ List.mem_cons_self)⟩

namespace Standing

variable {casing : Casing} {name text : String} {d s : List Char}

theorem holds_vacant (hr : Vacant text.toList)
    (h : Plain.read casing text.toList = .error .missingExpression) :
    vacant.Holds casing name text := by
  obtain ⟨f, j, hf, he⟩ := exists_read_error name h
  exact ⟨hr, f, j, hf, by rw [he]; rfl⟩

theorem holds_unfinished {f : Fault} (hf : Unfinished f)
    (h : Plain.read casing text.toList = .error f)
    (hmore : ∃ t e, Plain.read casing (text.toList ++ t) = .ok (e, [])) :
    unfinished.Holds casing name text := by
  obtain ⟨g, j, hg, rfl⟩ := exists_read_error name h
  obtain ⟨t, e, ht⟩ := hmore
  have hread : Plain.read casing (text ++ String.ofList t).toList = .ok (e, []) := by
    rwa [String.toList_append, String.toList_ofList]
  obtain ⟨k, hk, -⟩ := exists_read_ok name hread
  exact ⟨⟨g, j, hg, hf.malformed⟩, String.ofList t, e, k, hk⟩

theorem holds_wrong (hr : text.toList = d ++ s)
    (h : ∀ (t : List Char) (i : Input) (P R : List Char), i.At ⟨P, R, d ++ t⟩ →
      ∃ k, read casing i = (.error (strayed k), k) ∧ k.At ⟨P, R ++ d, t⟩) :
    wrong.Holds casing name text := by
  have hfails : ∀ more : String, ∃ k, read casing (.ofText name (text ++ more)) =
      (.error (strayed k), k) ∧ (strayed k).span = some ⟨byteLength d - 1, byteLength d⟩ := by
    intro more
    have hat := Input.at_start name (text ++ more)
    rw [Cursor.start, String.toList_append, hr, List.append_assoc] at hat
    obtain ⟨k, hk, hkat⟩ := h _ _ [] [] hat
    exact ⟨k, hk, span_strayed hkat⟩
  obtain ⟨k, hk, hspan⟩ := hfails ""
  rw [String.append_empty] at hk
  refine ⟨strayed k, k, hk, rfl, rfl, by rw [hspan]; rfl, fun more => ?_⟩
  obtain ⟨l, hl, hspan'⟩ := hfails more
  exact ⟨strayed l, l, hl, rfl, hspan'.trans hspan.symm⟩

theorem holds_whole {e : Expr} (hr : text.toList = d ++ s) (hs : Delimited s ∨ Sealed d)
    (h : ∀ t, Delimited t ∨ Sealed d → Plain.read casing (d ++ t) = .ok (e, t)) :
    whole.Holds casing name text := by
  have hread := h s hs
  rw [← hr] at hread
  obtain ⟨j, hj, hdrain⟩ := exists_read_ok name hread
  have htext : text = String.ofList d ++ String.ofList s := by
    rw [← String.ofList_append, ← hr, String.ofList_toList]
  refine ⟨e, j, String.ofList d, String.ofList s, hj, by simpa using hdrain, htext,
    fun more hmore => ?_⟩
  rw [String.toList_ofList] at hmore
  have hfollows : Delimited (s ++ more.toList) ∨ Sealed d := by
    rcases hmore with hne | hmore | hsealed
    · have hne : s ≠ [] := by simpa using hne
      exact hs.imp_left fun hs => Delimited.of_append (by rwa [List.append_nil]) hne _
    · exact hs.imp_left fun hs => hs.append hmore
    · exact .inr hsealed
  have hread := h _ hfollows
  rw [← List.append_assoc, ← hr, ← String.toList_append] at hread
  obtain ⟨k, hk, hdrain⟩ := exists_read_ok name hread
  exact ⟨k, hk, by simpa using hdrain⟩

end Standing

/-- **Standings.**  Exactly one holds of every text.  The text has nothing but blanks and comments,
and the input has ended; or it stops inside an expression, and there is a text that completes it; or
it has a closing parenthesis where none can be, and every text that goes on from it fails with the
same message at the same place; or it starts with an expression, and every text that goes on from it
does, unless the expression ends the text in an atom which then runs on. -/
theorem existsUnique_standing (casing : Casing) (name text : String) :
    ∃! v : Standing, v.Holds casing name text := by
  have hholds : ∃ v : Standing, v.Holds casing name text := by
    cases Plain.comes casing text.toList with
    | vacant hr h => exact ⟨.vacant, Standing.holds_vacant hr h⟩
    | unfinished hf h hmore => exact ⟨.unfinished, Standing.holds_unfinished hf h hmore⟩
    | wrong hr h => exact ⟨.wrong, Standing.holds_wrong hr h⟩
    | whole hr hs h => exact ⟨.whole, Standing.holds_whole hr hs h⟩
  obtain ⟨v, hv⟩ := hholds
  exact ⟨v, hv, fun w hw => hw.eq_shown.trans hv.eq_shown.symm⟩

end Sigil.Datum
