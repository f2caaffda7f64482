import Sigil.Proofs.OneDatum

/-!
# The text of a datum

Cutting a datum out of a text looks at the text of the datum and, behind an atom, at one more
character.  So what follows does not matter (`Plain.local_datum_and_items`), and a text that stops
inside a datum can be gone on with until the datum is whole (`Plain.finished_datum_and_items`).

1. What is skipped is made of blanks and comments, and is skipped in front of any text
   (`exists_blanks`, `vacant_iff`).
2. The datum, the string and the items of a list are found again in front of another text; an atom
   must not run on into it.
3. A datum is finished from the inside: the string or the quote first, then the lists around it.
-/

namespace Sigil.Datum

/-! ## Blanks and comments -/

/-- Nothing but blanks and comments; the last comment may end with the text. -/
def Vacant (r : List Char) : Prop := Blanks (r ++ ['\n'])

/-- A comment may have any more characters but a line feed. -/
theorem Blanks.comment_cons {c : Char} {r : List Char} (h : Blanks (';' :: r)) (hc : c ≠ '\n') :
    Blanks (';' :: c :: r) := by
  cases h with
  | blank hb _ => exact absurd hb (by decide)
  | @comment cs r hcs h =>
    have hcs' : '\n' ∉ c :: cs := by simp [Ne.symm hc, hcs]
    exact .comment hcs' h

/-- What is skipped, inside of a comment or not, is made of blanks and comments; only at the end of
the text it may take one more line feed to end a comment. -/
theorem exists_blanksFrom (b : Bool) (r : List Char) :
    ∃ g, r = g ++ Plain.skipFrom b r ∧
      ∀ x, x = ['\n'] ∨ x = [] ∧ Plain.skipFrom b r ≠ [] →
        Blanks ((if b then [';'] else []) ++ (g ++ x)) := by
  have hfeed : Blanks ['\n'] := .blank (by decide) .nil
  induction r generalizing b with
  | nil =>
    refine ⟨[], rfl, fun x hx => ?_⟩
    obtain rfl : x = ['\n'] := hx.resolve_right fun h => h.2 rfl
    cases b with
    | true => exact Blanks.comment List.not_mem_nil .nil
    | false => exact hfeed
  | cons c r ih =>
    cases b with
    | true =>
      obtain ⟨g, hr, hg⟩ := ih (c != '\n')
      refine ⟨c :: g, congrArg (c :: ·) hr, fun x hx => ?_⟩
      have hx := hg x hx
      by_cases hc : c = '\n'
      · subst hc
        exact Blanks.comment List.not_mem_nil hx
      · rw [bne_iff_ne.2 hc] at hx
        exact hx.comment_cons hc
    | false =>
      rw [Plain.skipFrom]
      simp only [Bool.false_eq_true, ↓reduceIte]
      split_ifs with hc hs
      · obtain ⟨g, hr, hg⟩ := ih true
        exact ⟨c :: g, congrArg (c :: ·) hr, fun x hx => hc ▸ hg x hx⟩
      · obtain ⟨g, hr, hg⟩ := ih false
        exact ⟨c :: g, congrArg (c :: ·) hr, fun x hx => .blank hs (hg x hx)⟩
      · refine ⟨[], rfl, fun x hx => ?_⟩
        rcases hx with rfl | ⟨rfl, -⟩
        · exact hfeed
        · exact .nil

/-- **Gaps.** In front of a significant character there are blanks and comments. -/
theorem exists_blanks {r s : List Char} {c : Char} (h : Plain.skip r = c :: s) :
    ∃ g, Blanks g ∧ r = g ++ c :: s := by
  obtain ⟨g, hr, hg⟩ := exists_blanksFrom false r
  rw [show Plain.skipFrom false r = c :: s from h] at hr hg
  have hg := hg [] (.inr ⟨rfl, List.cons_ne_nil c s⟩)
  rw [List.append_nil] at hg
  exact ⟨g, hg, hr⟩

theorem Blanks.skip_cons {g : List Char} {c : Char} (h : Blanks g) (hc : Significant c)
    (s : List Char) : Plain.skip (g ++ c :: s) = c :: s := by
  rw [h.skip_append, hc.plain_skip_cons]

/-- A text is vacant if all of it is skipped. -/
theorem vacant_iff {r : List Char} : Vacant r ↔ Plain.skip r = [] := by
  constructor
  · intro h
    rcases hr : Plain.skip r with _ | ⟨c, s⟩
    · rfl
    · obtain ⟨g, hg, rfl⟩ := exists_blanks hr
      have hskip := h.skip_append []
      rw [List.append_nil, List.append_assoc, List.cons_append,
        hg.skip_cons (significant_of_skip hr)] at hskip
      cases hskip
  · intro h
    obtain ⟨g, hr, hg⟩ := exists_blanksFrom false r
    rw [show Plain.skipFrom false r = [] from h, List.append_nil] at hr
    rw [Vacant, hr]
    exact hg ['\n'] (.inl rfl)

/-- A line feed ends a comment, if there is one. -/
theorem Vacant.skip_append {r : List Char} (h : Vacant r) (t : List Char) :
    Plain.skip (r ++ '\n' :: t) = Plain.skip t := by
  have hskip := Blanks.skip_append h t
  rwa [List.append_assoc] at hskip

/-! ## The text of a datum -/

/-- The text ends in a mark that ends a datum. -/
def Sealed (d : List Char) : Prop := d.getLast? = some ')' ∨ d.getLast? = some '"'

theorem sealed_append {d : List Char} (p : List Char) (h : d ≠ []) :
    Sealed (p ++ d) ↔ Sealed d := by
  rw [Sealed, Sealed, List.getLast?_append_of_ne_nil p h]

theorem sealed_of_getLast? {d : List Char} (c : Char)
    (h : d.getLast? = some ')' ∨ d.getLast? = some '"') : Sealed (c :: d) := by
  refine (sealed_append [c] ?_).2 h
  rintro rfl
  rcases h with h | h <;> cases h

/-- Characters of an atom are no marks. -/
theorem not_sealed {d : List Char} (h : ∀ x ∈ d, x ≠ ')' ∧ x ≠ '"') : ¬ Sealed d := by
  rintro (hd | hd)
  · exact (h _ (List.mem_of_getLast? hd)).1 rfl
  · exact (h _ (List.mem_of_getLast? hd)).2 rfl

/-- Whether a text runs on an atom is seen at its first character. -/
theorem Delimited.of_append {d s : List Char} (h : Delimited (d ++ s)) (hd : d ≠ [])
    (t : List Char) : Delimited (d ++ t) := by
  cases d with
  | nil => exact absurd rfl hd
  | cons c d => exact delimited_cons _ (h c rfl)

theorem Delimited.append {s t : List Char} (hs : Delimited s) (ht : Delimited t) :
    Delimited (s ++ t) := by
  cases s with
  | nil => exact ht
  | cons c s => exact delimited_cons _ (hs c rfl)

theorem delimited_atomRest (r : List Char) : Delimited (Plain.atomRest r).2 := by
  intro c hc
  have hnot := List.head?_dropWhile_not (fun x => !isDelimiter x) r
  rw [show (r.dropWhile fun x => !isDelimiter x).head? = some c from hc] at hnot
  simpa using hnot

namespace Plain

/-- A string is cut out of its own text, whatever follows. -/
theorem exists_stringRest {b : Bool} {r cs s : List Char} (h : stringRest b r = .ok (cs, s)) :
    ∃ d, r = d ++ s ∧ d.getLast? = some '"' ∧ ∀ t, stringRest b (d ++ t) = .ok (cs, t) := by
  induction r generalizing b cs with
  | nil => cases h
  | cons c r ih =>
    rw [stringRest] at h
    split_ifs at h with hc
    · cases h
      have hquote : c = '"' := by
        rw [Bool.and_eq_true, beq_iff_eq] at hc
        exact hc.2
      refine ⟨[c], rfl, by rw [hquote]; rfl, fun t => ?_⟩
      rw [List.singleton_append, stringRest, if_pos hc]
    · obtain ⟨ds, hr, rfl⟩ := map_eq_ok h
      obtain ⟨d, rfl, hlast, hd⟩ := ih hr
      refine ⟨c :: d, rfl, ?_, fun t => ?_⟩
      · rw [List.getLast?_cons, hlast]
        rfl
      · rw [List.cons_append, stringRest, if_neg hc, hd t]
        rfl

/-- **Data are local.** A datum is cut out of its own text, whatever follows; only an atom must not
run on.  The items of a list and its end are cut out whatever follows. -/
theorem local_datum_and_items :
    (∀ c r, ∀ cs s, datum c r = .ok (cs, s) →
      ∃ d, r = d ++ s ∧ (Delimited s ∨ Sealed (c :: d)) ∧
        ∀ t, Delimited t ∨ Sealed (c :: d) → datum c (d ++ t) = .ok (cs, t)) ∧
    (∀ r, ∀ cs s, items r = .ok (cs, s) →
      ∃ d, r = d ++ s ∧ d.getLast? = some ')' ∧ ∀ t, items (d ++ t) = .ok (cs, t)) := by
  apply datum_items_induct
    (P := fun c r => ∀ cs s, datum c r = .ok (cs, s) →
      ∃ d, r = d ++ s ∧ (Delimited s ∨ Sealed (c :: d)) ∧
        ∀ t, Delimited t ∨ Sealed (c :: d) → datum c (d ++ t) = .ok (cs, t))
    (Q := fun r => ∀ cs s, items r = .ok (cs, s) →
      ∃ d, r = d ++ s ∧ d.getLast? = some ')' ∧ ∀ t, items (d ++ t) = .ok (cs, t))
  · -- a list
    intro r ih cs s h
    rw [datum_list] at h
    obtain ⟨ds, hi, rfl⟩ := map_eq_ok h
    obtain ⟨d, hr, hlast, hd⟩ := ih ds s hi
    refine ⟨d, hr, .inr (sealed_of_getLast? '(' (.inl hlast)), fun t _ => ?_⟩
    rw [datum_list, hd t]
    rfl
  · -- a stray closing parenthesis
    intro r cs s h
    rw [datum_eq] at h
    cases h
  · -- a string
    intro r cs s h
    rw [datum_string] at h
    obtain ⟨ds, hs, rfl⟩ := map_eq_ok h
    obtain ⟨d, hr, hlast, hd⟩ := exists_stringRest hs
    refine ⟨d, hr, .inr (sealed_of_getLast? '"' (.inr hlast)), fun t _ => ?_⟩
    rw [datum_string, hd t]
    rfl
  · -- a quote at the end
    intro r hr cs s h
    rw [datum_eq, hr] at h
    cases h
  · -- a quote before an expression
    intro r c u hr ih cs s h
    rw [datum_quote hr] at h
    obtain ⟨ds, hd, rfl⟩ := map_eq_ok h
    obtain ⟨d, rfl, hend, hlocal⟩ := ih ds s hd
    obtain ⟨g, hg, rfl⟩ := exists_blanks hr
    have hsealed : Sealed ('\'' :: (g ++ c :: d)) ↔ Sealed (c :: d) :=
      sealed_append ('\'' :: g) (List.cons_ne_nil c d)
    refine ⟨g ++ c :: d, by simp, by rwa [hsealed], fun t ht => ?_⟩
    rw [hsealed] at ht
    have hskip : skip (g ++ c :: d ++ t) = c :: (d ++ t) := by
      rw [List.append_assoc]
      exact hg.skip_cons (significant_of_skip hr) (d ++ t)
    rw [datum_quote hskip, hlocal t ht]
    rfl
  · -- an atom
    intro c r h1 h2 h3 h4 cs s h
    rw [datum_atom r h1 h2 h3 h4] at h
    cases h
    have hd : ∀ x ∈ (atomRest r).1, isDelimiter x = false := fun x hx => by
      simpa using List.all_eq_true.1 List.all_takeWhile x hx
    refine ⟨(atomRest r).1, List.takeWhile_append_dropWhile.symm, .inl (delimited_atomRest r),
      fun t ht => ?_⟩
    have hopen : ¬ Sealed (c :: (atomRest r).1) := by
      refine not_sealed fun x hx => ?_
      rcases List.mem_cons.1 hx with rfl | hx
      · exact ⟨h2, h3⟩
      · constructor <;> rintro rfl <;> exact absurd (hd _ hx) (by decide)
    rw [datum_atom _ h1 h2 h3 h4, atomRest_append hd (ht.resolve_right hopen)]
  · -- items that do not end
    intro r hr cs s h
    rw [items_eq, hr] at h
    cases h
  · -- the closing parenthesis
    intro r u hr cs s h
    rw [items_close hr] at h
    cases h
    obtain ⟨g, hg, rfl⟩ := exists_blanks hr
    refine ⟨g ++ [')'], by simp, List.getLast?_concat, fun t => items_close ?_⟩
    rw [List.append_assoc]
    exact hg.skip_cons (significant_of_skip hr) t
  · -- an item that cannot be cut out
    intro r c u f hr hc hd _ cs s h
    rw [items_cons hr hc, hd] at h
    cases h
  · -- an item and those behind it
    intro r c u cs v hr hc hd ih ih' ds s h
    rw [items_cons hr hc, hd] at h
    obtain ⟨es, hi, rfl⟩ := map_eq_ok h
    obtain ⟨d, rfl, hend, hlocal⟩ := ih cs v hd
    obtain ⟨d', rfl, hlast, hlocal'⟩ := ih' es s hi
    obtain ⟨g, hg, rfl⟩ := exists_blanks hr
    have hne : d' ≠ [] := by
      rintro rfl
      cases hlast
    refine ⟨g ++ c :: d ++ d', by simp, by rw [List.getLast?_append_of_ne_nil _ hne, hlast],
      fun t => ?_⟩
    have hskip : skip (g ++ c :: d ++ d' ++ t) = c :: (d ++ (d' ++ t)) := by
      simpa using hg.skip_cons (significant_of_skip hr) (d ++ (d' ++ t))
    rw [items_cons hskip hc, hlocal (d' ++ t) (hend.imp_left fun h => h.of_append hne t)]
    dsimp only
    rw [hlocal' t]
    rfl

/-! ## Finishing a datum -/

/-- A string that does not end can be ended. -/
theorem exists_stringRest_append {b : Bool} {r : List Char} {f : Fault}
    (h : stringRest b r = .error f) :
    (∃ b', f = .unterminatedString b') ∧ ∃ t cs, stringRest b (r ++ t) = .ok (cs, []) := by
  induction r generalizing b with
  | nil =>
    cases h
    refine ⟨⟨b, rfl⟩, ?_⟩
    cases b with
    | true => exact ⟨['"', '"'], ['"', '"'], rfl⟩
    | false => exact ⟨['"'], ['"'], rfl⟩
  | cons c r ih =>
    rw [stringRest] at h
    split_ifs at h with hc
    obtain ⟨hf, t, cs, ht⟩ := ih (map_eq_error h)
    refine ⟨hf, t, c :: cs, ?_⟩
    rw [List.cons_append, stringRest, if_neg hc, ht]
    rfl

end Plain

/-- The faults of a text that stops inside an expression. -/
inductive Unfinished : Fault → Prop
  | list : Unfinished .unbalancedList
  | string (b : Bool) : Unfinished (.unterminatedString b)
  | quote : Unfinished .danglingQuote

namespace Plain

theorem skip_append {r s : List Char} {c : Char} (h : skip r = c :: s) (t : List Char) :
    skip (r ++ t) = c :: (s ++ t) := by
  obtain ⟨g, hg, rfl⟩ := exists_blanks h
  rw [List.append_assoc]
  exact hg.skip_cons (significant_of_skip h) (s ++ t)

theorem datum_append {c : Char} {r cs s t : List Char} (h : datum c r = .ok (cs, s))
    (ht : s ≠ [] ∨ Delimited t) : datum c (r ++ t) = .ok (cs, s ++ t) := by
  obtain ⟨d, rfl, hend, hd⟩ := local_datum_and_items.1 c r cs s h
  rw [List.append_assoc]
  refine hd (s ++ t) (hend.imp_left fun hs => ?_)
  rcases ht with hne | ht
  · exact Delimited.of_append (by rwa [List.append_nil]) hne t
  · exact hs.append ht

/-- **Unfinished data** can be finished. -/
theorem finished_datum_and_items :
    (∀ c r, ∀ f, datum c r = .error f → f ≠ .strayClose →
      Unfinished f ∧ ∃ t cs, datum c (r ++ t) = .ok (cs, [])) ∧
    (∀ r, ∀ f, items r = .error f → f ≠ .strayClose →
      Unfinished f ∧ ∃ t cs, items (r ++ t) = .ok (cs, [])) := by
  have hclose : items ['\n', ')'] = .ok ([')'], []) := items_close rfl
  apply datum_items_induct
    (P := fun c r => ∀ f, datum c r = .error f → f ≠ .strayClose →
      Unfinished f ∧ ∃ t cs, datum c (r ++ t) = .ok (cs, []))
    (Q := fun r => ∀ f, items r = .error f → f ≠ .strayClose →
      Unfinished f ∧ ∃ t cs, items (r ++ t) = .ok (cs, []))
  · -- a list
    intro r ih f h hf
    rw [datum_list] at h
    obtain ⟨hun, t, cs, ht⟩ := ih f (map_eq_error h) hf
    refine ⟨hun, t, '(' :: cs, ?_⟩
    rw [datum_list, ht]
    rfl
  · -- a stray closing parenthesis
    intro r f h hf
    rw [datum_eq] at h
    cases h
    exact absurd rfl hf
  · -- a string
    intro r f h _
    rw [datum_string] at h
    obtain ⟨⟨b, rfl⟩, t, cs, ht⟩ := exists_stringRest_append (map_eq_error h)
    refine ⟨.string b, t, '"' :: cs, ?_⟩
    rw [datum_string, ht]
    rfl
  · -- a quote at the end: an atom on the next line
    intro r hr f h _
    rw [datum_eq, hr] at h
    cases h
    have hskip : skip (r ++ ['\n', 'a']) = ['a'] := (vacant_iff.2 hr).skip_append ['a']
    refine ⟨.quote, ['\n', 'a'], ['\'', 'a'], ?_⟩
    rw [datum_quote hskip, datum_eq]
    rfl
  · -- a quote before an expression
    intro r c u hr ih f h hf
    rw [datum_quote hr] at h
    obtain ⟨hun, t, cs, ht⟩ := ih f (map_eq_error h) hf
    refine ⟨hun, t, '\'' :: cs, ?_⟩
    rw [datum_quote (skip_append hr t), ht]
    rfl
  · -- an atom
    intro c r h1 h2 h3 h4 f h _
    rw [datum_atom r h1 h2 h3 h4] at h
    cases h
  · -- items that do not end: the parenthesis on the next line
    intro r hr f h _
    rw [items_eq, hr] at h
    cases h
    have hskip : skip (r ++ ['\n', ')']) = [')'] := (vacant_iff.2 hr).skip_append [')']
    exact ⟨.list, ['\n', ')'], [')'], items_close hskip⟩
  · -- the closing parenthesis
    intro r u hr f h _
    rw [items_close hr] at h
    cases h
  · -- an item that is not finished: the rest of it, then the parenthesis
    intro r c u f hr hc hd ih g h hg
    rw [items_cons hr hc, hd] at h
    cases h
    obtain ⟨hun, t, cs, ht⟩ := ih f hd hg
    have hitem := datum_append (t := ['\n', ')']) ht (.inr (delimited_cons _ (by decide)))
    rw [List.append_assoc] at hitem
    refine ⟨hun, t ++ ['\n', ')'], ' ' :: cs ++ [')'], ?_⟩
    rw [items_cons (skip_append hr _) hc, hitem]
    dsimp only
    rw [List.nil_append, hclose]
    rfl
  · -- items that are not finished behind one that is
    intro r c u cs v hr hc hd _ ih' f h hf
    rw [items_cons hr hc, hd] at h
    have hv := map_eq_error h
    obtain ⟨hun, t, ds, ht⟩ := ih' f hv hf
    refine ⟨hun, ?_⟩
    -- an atom at the end of the text must not run on
    obtain ⟨t, ds, ht, hfollows⟩ :
        ∃ t ds, items (v ++ t) = .ok (ds, []) ∧ (v ≠ [] ∨ Delimited t) := by
      by_cases hne : v = []
      · exact ⟨['\n', ')'], [')'], by rw [hne]; exact hclose, .inr (delimited_cons _ (by decide))⟩
      · exact ⟨t, ds, ht, .inl hne⟩
    refine ⟨t, ' ' :: cs ++ ds, ?_⟩
    rw [items_cons (skip_append hr t) hc, datum_append hd hfollows]
    dsimp only
    rw [ht]
    rfl

end Plain

end Sigil.Datum
