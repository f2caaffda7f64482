import Sigil.Proofs.Placing
import Sigil.Proofs.Preservation

/-!
# What is cut out is a datum

The reader and the grammar do not have the same blanks, and a text that is cut out is not the text
that stood in the input.  `Datum.read_fails_cutting`: nevertheless every text that the reader cuts
out of an input is one that the grammar accepts, so that reading an expression fails only while its
text is cut out.  The input may be any, with lines that cannot be read in it.

1. A character that is read fails only with its line (`unreadable_of_next`).
2. The rest of an atom has no delimiters, and the rest of a string ends where it ends as a text of
   its own (`settles_atomRest`, `settles_stringRest`).
3. So the text of a datum spells an expression, and the text of the items of a list spells these
   (`settles_datumFrom_and_itemsFrom`).
-/

namespace Sigil.Datum

open Text (Casing)

/-! ## Failures -/

/-- The failure to read a line. -/
def Unreadable (f : Failure) : Prop := ∃ name reason, f.fault = .unreadable name reason

/-- The failures of cutting out a datum. -/
inductive FailsCutting (f : Failure) : Prop
  | list (h : f.fault = .unbalancedList)
  | close (h : f.fault = .strayClose)
  | string (b : Bool) (h : f.fault = .unterminatedString b)
  | quote (h : f.fault = .danglingQuote)
  | unreadable (h : Unreadable f)

theorem unreadable_of_next {i j : Input} {f : Failure} (h : i.next = (.error f, j)) :
    Unreadable f := by
  rcases hr : i.ready with _ | ⟨c, r⟩
  · rcases hl : i.lines with _ | ⟨line | reason, ls⟩
    · rw [Input.next_of_end hr hl] at h
      cases h
    · rw [Input.next_of_line hr hl] at h
      cases h
    · rw [Input.next_of_unreadable hr hl] at h
      cases h
      exact ⟨i.name, reason, rfl⟩
  · rw [Input.next_of_ready hr] at h
    cases h

/-! ## Blanks, atoms, strings -/

theorem settles_significantFrom (b : Bool) (i : Input) :
    Settles (fun x => ∀ c ∈ x, Significant c) Unreadable (significantFrom b i).1 := by
  fun_induction significantFrom b i with
  | case1 i c j hj _ ih => exact ih
  | case2 b i j hb hj _ ih => exact ih
  | case3 b i c j hj _ hb hc hs ih => exact ih
  | case4 b i c j hj _ hb hc hs =>
    intro d hd
    cases hd
    exact ⟨Bool.eq_false_iff.2 hs, hc⟩
  | case5 b i hne =>
    rcases hn : i.next with ⟨f | _ | c, j⟩
    · exact unreadable_of_next hn
    · intro d hd
      cases hd
    · exact (hne c j hn).elim

theorem settles_significant {i j : Input} {x : Except Failure (Option Char)}
    (h : significant i = (x, j)) : Settles (fun x => ∀ c ∈ x, Significant c) Unreadable x := by
  have hs := settles_significantFrom false i
  rwa [show significantFrom false i = (x, j) from h] at hs

theorem settles_atomRest (i : Input) :
    Settles (fun cs => ∀ x ∈ cs, isDelimiter x = false) Unreadable (atomRest i).1.1 := by
  fun_induction atomRest i with
  | case1 i f j hj => exact unreadable_of_next hj
  | case2 i j hj => exact List.forall_mem_nil _
  | case3 i c j hj _ hc => exact List.forall_mem_nil _
  | case4 i c j hj _ hc ih =>
    refine Settles.map ih fun cs hcs => List.forall_mem_cons.2 ⟨?_, hcs⟩
    exact Bool.eq_false_iff.2 hc

/-- Cut out again, the rest of a string is the same. -/
theorem settles_stringRest (start : Nat) (b : Bool) (i : Input) :
    Settles (fun cs => Plain.stringRest b cs = .ok (cs, [])) FailsCutting
      (stringRest start b i).1.1 := by
  fun_induction stringRest start b i with
  | case1 b i f j hj => exact .unreadable (unreadable_of_next hj)
  | case2 b i j hj => exact .string b rfl
  | case3 b i c j hj _ hc =>
    show Plain.stringRest b [c] = _
    rw [Plain.stringRest, if_pos hc]
  | case4 b i c j hj _ hc ih =>
    refine Settles.map ih fun cs hcs => ?_
    rw [Plain.stringRest, if_neg hc, hcs]
    rfl

/-! ## Data -/

/-- The text `cs` spells an expression and starts with `c`. -/
def SpellsFrom (casing : Casing) (c : Char) (cs : List Char) : Prop :=
  ∃ ds e, cs = c :: ds ∧ Spells casing cs e

/-- The text `cs` spells the items of a list and its end; it runs on no atom in front of it. -/
def SpellsList (casing : Casing) (cs : List Char) : Prop :=
  (∃ es, SpellsItems casing cs es) ∧ ∀ t, Closed (cs ++ t)

variable {casing : Casing}

theorem SpellsList.close : SpellsList casing [')'] :=
  ⟨⟨[], itemsOf_close casing⟩, fun t => closed_cons t (by decide)⟩

theorem SpellsList.cons {c : Char} {cs ds : List Char} (hc : Significant c) (hclose : c ≠ ')')
    (hcs : SpellsFrom casing c cs) (hds : SpellsList casing ds) :
    SpellsList casing (' ' :: cs ++ ds) := by
  obtain ⟨cs, e, rfl, he⟩ := hcs
  obtain ⟨⟨es, hes⟩, hclosed⟩ := hds
  refine ⟨⟨e :: es, .cons ⟨hc.isSpace, hc.comment, hclose⟩ he hes hclosed⟩, fun t => ?_⟩
  exact closed_cons _ (by decide)

theorem SpellsList.list {cs : List Char} (h : SpellsList casing cs) :
    SpellsFrom casing '(' ('(' :: cs) := by
  obtain ⟨⟨es, hes⟩, -⟩ := h
  exact ⟨cs, .list es, rfl, .list hes⟩

theorem SpellsFrom.quote {c : Char} {cs : List Char} (hc : Significant c)
    (h : SpellsFrom casing c cs) : SpellsFrom casing '\'' ('\'' :: cs) := by
  obtain ⟨ds, e, rfl, he⟩ := h
  exact ⟨c :: ds, e.quoted, rfl, .quote hc he⟩

theorem spellsFrom_string {cs : List Char} (h : Plain.stringRest false cs = .ok (cs, [])) :
    SpellsFrom casing '"' ('"' :: cs) := by
  obtain ⟨body, hcs, hbody⟩ := stringBody_of_ok h
  exact ⟨cs, _, rfl, by rw [hcs]; exact .string casing hbody⟩

theorem spellsFrom_atom {c : Char} {cs : List Char} (hc : Datum.isConstituent c = true)
    (h : ∀ x ∈ cs, isDelimiter x = false) : SpellsFrom casing c (c :: cs) := by
  refine ⟨cs, _, rfl, .atom casing fun x hx => ?_⟩
  rcases List.mem_cons.1 hx with rfl | hx
  · exact hc
  · exact isConstituent_of_not_isDelimiter (h x hx)

/-- **Cutting out.** The text of a datum spells an expression. -/
theorem settles_datumFrom_and_itemsFrom (casing : Casing) (start : Nat) :
    (∀ (c : Char) (i : Input), Significant c →
      Settles (SpellsFrom casing c) FailsCutting (datumFrom start c i).1.1) ∧
    (∀ (opened : Nat) (i : Input),
      Settles (SpellsList casing) FailsCutting (itemsFrom start opened i).1.1) := by
  apply datumFrom.mutual_induct start
    (fun c i => Significant c →
      Settles (SpellsFrom casing c) FailsCutting (datumFrom start c i).1.1)
    (fun opened i => Settles (SpellsList casing) FailsCutting (itemsFrom start opened i).1.1)
  · -- a list
    intro i ih _
    rw [datumFrom_list]
    exact ih.map fun _ h => h.list
  · -- a stray closing parenthesis
    intro i _ _
    rw [datumFrom_close]
    exact .close rfl
  · -- a string
    intro i _ _ _
    rw [datumFrom_string]
    exact (settles_stringRest _ false i).map fun _ h => spellsFrom_string h
  · -- a quote before a read failure
    intro i f j hs _ _ _ _
    rw [datumFrom_quote, hs]
    exact .unreadable (settles_significant hs)
  · -- a quote at the end of the input
    intro i j hs _ _ _ _
    rw [datumFrom_quote, hs]
    exact .quote rfl
  · -- a quote before an expression
    intro i c j hs _ _ _ _ ih _
    have hc : Significant c := settles_significant hs c rfl
    rw [datumFrom_quote, hs]
    exact (ih hc).map fun _ h => h.quote hc
  · -- an atom
    intro c i h1 h2 h3 h4 hc
    rw [datumFrom_atom start i h1 h2 h3 h4]
    have hatom := settles_atomRest i
    generalize (atomRest i).1.1 = x at hatom
    cases x with
    | error f => exact .unreadable hatom
    | ok cs => exact spellsFrom_atom (hc.isConstituent h1 h2 h3 h4) hatom
  · -- items before a read failure
    intro opened i f j hs
    rw [itemsFrom_eq, hs]
    exact .unreadable (settles_significant hs)
  · -- items at the end of the input
    intro opened i j hs
    rw [itemsFrom_eq, hs]
    exact .list rfl
  · -- the closing parenthesis
    intro opened i j hs _
    rw [itemsFrom_eq, hs]
    exact .close
  · -- an item that fails
    intro opened i c j hs _ hc f k hk hd ih
    have hitem := ih (settles_significant hs c rfl)
    rw [itemsFrom_eq, hs]
    simp only [hc, ↓reduceIte]
    rw [hd] at hitem ⊢
    exact hitem
  · -- an item and those behind it
    intro opened i c j hs _ hc cs k hk hd _ ih ihk
    have hsig : Significant c := settles_significant hs c rfl
    have hitem := ih hsig
    rw [itemsFrom_eq, hs]
    simp only [hc, ↓reduceIte]
    rw [hd] at hitem ⊢
    exact ihk.map fun _ h => h.cons hsig hc hitem

/-! ## Reading -/

theorem SpellsFrom.exists_parse {c : Char} {cs : List Char} (hc : Significant c)
    (h : SpellsFrom casing c cs) : ∃ e, parse casing (String.ofList cs) = .ok e := by
  obtain ⟨ds, e, rfl, he⟩ := h
  exact ⟨e, parse_eq_ok_iff.2 (parse?_of_spells hc he)⟩

/-- A text that was cut out is a datum. -/
theorem exists_parse_of_datumFrom (casing : Casing) {start : Nat} {c : Char} {i k : Input}
    {text : List Char} (hc : Significant c) (h : (datumFrom start c i).1 = (.ok text, k)) :
    ∃ e, parse casing (String.ofList text) = .ok e := by
  have hs := (settles_datumFrom_and_itemsFrom casing start).1 c i hc
  rw [h] at hs
  exact SpellsFrom.exists_parse hc hs

theorem fails_expressionFrom {c : Char} {i k : Input} {f : Failure} (hc : Significant c)
    (h : (expressionFrom casing c i).1 = (.error f, k)) : FailsCutting f := by
  have hs := (settles_datumFrom_and_itemsFrom casing (i.behind c)).1 c i hc
  rw [expressionFrom_eq] at h
  rcases hx : (datumFrom (i.behind c) c i).1 with ⟨f' | text, j⟩
  · rw [hx] at h hs
    cases h
    exact hs
  · obtain ⟨e, he⟩ := exists_parse_of_datumFrom casing hc hx
    rw [hx] at h
    simp only [he] at h
    cases h

/-- Reading an expression fails because there is none or while it is cut out. -/
theorem fails_read {i k : Input} {f : Failure} (h : read casing i = (.error f, k)) :
    f.fault = .missingExpression ∨ FailsCutting f := by
  unfold read at h
  rcases hs : significant i with ⟨f' | _ | c, j⟩
  · rw [hs] at h
    cases h
    exact .inr (.unreadable (settles_significant hs))
  · rw [hs] at h
    cases h
    exact .inl rfl
  · rw [hs] at h
    exact .inr (fails_expressionFrom (settles_significant hs c rfl) h)

theorem message_unreadable_ne (name reason : String) :
    (Fault.unreadable name reason).message ≠ "could not parse expression" := by
  have hm : (Fault.unreadable name reason).message =
      "failed to read from '" ++ (name ++ ("': " ++ reason)) := by
    show "failed to read from '" ++ name ++ "': " ++ reason = _
    simp only [String.append_assoc]
  rw [hm]
  intro h
  have hhead := congrArg (fun s : String => s.toList.head?) h
  simp at hhead

/-- **The second stage cannot fail.**  From any input, with lines that cannot be read or without,
whatever text is cut out behind blanks and comments is a datum.  So reading an expression never
fails to parse one: its failures are that the input has ended, the four of cutting out a datum, and
that a line cannot be read. -/
theorem read_fails_cutting (casing : Casing) (i : Input) :
    (∀ start c j text k, significant i = (.ok (some c), j) →
      (datumFrom start c j).1 = (.ok text, k) →
      ∃ e, parse casing (String.ofList text) = .ok e) ∧
    (∀ f k, read casing i = (.error f, k) →
      f.fault.message ≠ "could not parse expression" ∧
      (f.fault = .missingExpression ∨
        f.fault.kind = .malformed ∧ f.fault.message ∈
          ["unbalanced list", "unexpected ')'", "unterminated string",
            "quote is not followed by an expression"] ∨
        ∃ name reason, f.fault = .unreadable name reason)) := by
  refine ⟨fun start c j text k hs hd => ?_, fun f k h => ?_⟩
  · exact exists_parse_of_datumFrom casing (settles_significant hs c rfl) hd
  · rcases fails_read h with h | h | h | ⟨b, h⟩ | h | ⟨name, reason, h⟩
    · rw [h]
      exact ⟨by decide, .inl rfl⟩
    · rw [h]
      exact ⟨by decide, .inr (.inl ⟨rfl, by decide⟩)⟩
    · rw [h]
      exact ⟨by decide, .inr (.inl ⟨rfl, by decide⟩)⟩
    · rw [h]
      have hm : (Fault.unterminatedString b).message = "unterminated string" := rfl
      rw [hm]
      exact ⟨by decide, .inr (.inl ⟨rfl, by decide⟩)⟩
    · rw [h]
      exact ⟨by decide, .inr (.inl ⟨rfl, by decide⟩)⟩
    · rw [h]
      exact ⟨message_unreadable_ne name reason, .inr (.inr ⟨name, reason, rfl⟩)⟩

/-- A no-break space, which is no blank of the grammar, before a line that cannot be read: the list
in front of it is cut out and is a datum, and behind it the failure is that of the line. -/
theorem read_fails_cutting_blank :
    let i : Input := { name := "t", lines := [.text "(a\u00a0b)\n".toList, .unreadable "torn"] }
    (∃ e, parse .keep "( a b)" = .ok e) ∧
    ∃ f k, read .keep (read .keep i).2 = (.error f, k) ∧
      f.fault.message ≠ "could not parse expression" := by
  intro i
  have hs : significant i = (.ok (some '('), (significant i).2) :=
    Prod.ext (by decide +kernel) rfl
  have hd : (datumFrom 0 '(' (significant i).2).1 =
      (.ok "( a b)".toList, (datumFrom 0 '(' (significant i).2).1.2) :=
    Prod.ext (by decide +kernel) rfl
  have hr : read .keep (read .keep i).2 =
      (.error (i.unreadable "torn"), (read .keep (read .keep i).2).2) :=
    Prod.ext (by decide +kernel) rfl
  exact ⟨(read_fails_cutting .keep i).1 0 '(' _ _ _ hs hd, _, _, hr,
    ((read_fails_cutting .keep (read .keep i).2).2 _ _ hr).1⟩

end Sigil.Datum
