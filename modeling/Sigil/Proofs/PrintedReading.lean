import Sigil.Proofs.Language
import Sigil.Proofs.Names

/-!
# Printed forms in a document

In a document all blanks of Unicode separate, so a name is read back from there only if it has none
of them.  `Datum.cut_printed`: the printed form of an expression with such names is taken off the
front of a text whole, and it spells the expression, its names cased; what follows is left.

1. A text starts with an expression if a datum can be cut out of its front that spells it (`Cut`);
   the items of a list are cut out one by one (`CutItems`).
2. Printed forms are cut out, by recursion on the expression (`cut_printed`,
   `cutItems_printedRest`).
3. All expressions of an input are read in turn (`readAll_of_end`, `exists_readAll`).
-/

namespace Sigil

/-- A name that can be read back from a document: it has a character, and none of its characters is
blank or a mark. -/
def Expr.DocumentName (name : String) : Prop :=
  name ≠ "" ∧ ∀ c ∈ name.toList, Text.isBlank c = false ∧ c ∉ ['(', ')', '"', ';', '\'']

instance : DecidablePred Expr.DocumentName := fun name =>
  decidable_of_iff
    (name ≠ "" ∧
      name.toList.all fun c => Text.isBlank c = false ∧ c ∉ ['(', ')', '"', ';', '\''])
    (by rw [Expr.DocumentName, List.all_eq_true]; simp only [decide_eq_true_eq])

mutual

/-- Names that do not change leave the expression as it is. -/
theorem Expr.mapNames_eq_self {f : String → String} : ∀ e : Expr,
    e.Only (fun name => f name = name) → e.mapNames f = e
  | .atom name, h => congrArg Expr.atom (h name (List.mem_singleton_self _))
  | .str _, _ => rfl
  | .list es, h => by rw [mapNames, mapItems_eq_self es h]

theorem Expr.mapItems_eq_self {f : String → String} : ∀ es : List Expr,
    (list es).Only (fun name => f name = name) → mapItems f es = es
  | [], _ => rfl
  | e :: es, h => by
    obtain ⟨he, hes⟩ := only_list_cons.1 h
    rw [mapItems, mapNames_eq_self e he, mapItems_eq_self es hes]

end

namespace Datum

open Text (Casing isBlank)
open Text.Quoted (encode literal)

/-! ## Atoms and strings -/

theorem isDelimiter_eq_false_iff {c : Char} :
    isDelimiter c = false ↔ isBlank c = false ∧ c ∉ ['(', ')', '"', ';', '\''] := by
  simp only [isDelimiter, isPunctuation, Bool.or_eq_false_iff, beq_eq_false_iff_ne, List.mem_cons,
    List.not_mem_nil, or_false, not_or, ne_eq, and_assoc]

theorem exists_cons_of_documentName {name : String} (h : Expr.DocumentName name) :
    ∃ c cs, name.toList = c :: cs ∧ ∀ x ∈ c :: cs, isDelimiter x = false := by
  rcases hn : name.toList with _ | ⟨c, cs⟩
  · exact absurd (String.toList_eq_nil_iff.1 hn) h.1
  · exact ⟨c, cs, rfl, fun x hx => isDelimiter_eq_false_iff.2 (h.2 x (hn ▸ hx))⟩

/-- A text that does not run on an atom in front of it, in a document. -/
def Delimited (s : List Char) : Prop := ∀ c ∈ s.head?, isDelimiter c = true

theorem delimited_cons {c : Char} (s : List Char) (h : isDelimiter c = true) :
    Delimited (c :: s) := by
  intro d hd
  cases hd
  exact h

theorem Plain.atomRest_append {cs s : List Char} (h : ∀ x ∈ cs, isDelimiter x = false)
    (hs : Delimited s) : Plain.atomRest (cs ++ s) = (cs, s) := by
  have hcs : ∀ x ∈ cs, (!isDelimiter x) = true := by simpa using h
  rw [Plain.atomRest, List.takeWhile_append_of_pos hcs, List.dropWhile_append_of_pos hcs]
  cases s with
  | nil => simp
  | cons c s => simp [hs c rfl]

theorem Plain.stringRest_encode (text s : List Char) :
    Plain.stringRest false (encode text ++ '"' :: s) = .ok (encode text ++ ['"'], s) := by
  have h := toOption_stringRest false (encode text ++ '"' :: s)
  rw [stringBody_encode] at h
  cases hr : Plain.stringRest false (encode text ++ '"' :: s) with
  | error f =>
    rw [hr] at h
    cases h
  | ok x =>
    rw [hr] at h
    exact congrArg _ (Option.some.inj h)

/-! ## Cutting out -/

variable {casing : Casing}

/-- The text `r` starts with a datum that spells `e`, and `s` follows it. -/
def Cut (casing : Casing) (r : List Char) (e : Expr) (s : List Char) : Prop :=
  ∃ c t ds, r = c :: t ∧ Significant c ∧ c ≠ ')' ∧ Plain.datum c t = .ok (ds, s) ∧
    Spells casing ds e

/-- The text `r` starts with items of a list that spell `es` and the end of the list, and `s`
follows. -/
def CutItems (casing : Casing) (r : List Char) (es : List Expr) (s : List Char) : Prop :=
  ∃ ds, Plain.items r = .ok (ds, s) ∧ SpellsItems casing ds es

/-- Nothing is skipped in front of a significant character. -/
theorem Significant.plain_skip_cons {c : Char} (h : Significant c) (r : List Char) :
    Plain.skip (c :: r) = c :: r := by
  simp [Plain.skip, Plain.skipFrom, h.blank, h.comment]

theorem Cut.skip_eq {r s : List Char} {e : Expr} (h : Cut casing r e s) : Plain.skip r = r := by
  obtain ⟨c, t, ds, rfl, hc, -⟩ := h
  exact hc.plain_skip_cons t

theorem CutItems.close (r : List Char) : CutItems casing (')' :: r) [] r := by
  have hs : Significant ')' := by constructor <;> decide
  exact ⟨[')'], Plain.items_close (hs.plain_skip_cons r), itemsOf_close casing⟩

theorem CutItems.of_skip {r t s : List Char} {es : List Expr} (h : CutItems casing r es s)
    (hr : Plain.skip t = Plain.skip r) : CutItems casing t es s := by
  obtain ⟨ds, hi, hds⟩ := h
  refine ⟨ds, ?_, hds⟩
  rw [Plain.items_eq, hr, ← Plain.items_eq]
  exact hi

/-- An item and those behind it. -/
theorem Cut.items {r t s : List Char} {e : Expr} {es : List Expr} (he : Cut casing r e t)
    (hes : CutItems casing t es s) : CutItems casing r (e :: es) s := by
  obtain ⟨c, u, cs, rfl, hc, hclose, hd, hcs⟩ := he
  obtain ⟨ds, hi, hds⟩ := hes
  obtain ⟨cs, rfl⟩ := exists_cons_of_datum hd
  refine ⟨' ' :: (c :: cs) ++ ds, ?_,
    .cons ⟨hc.isSpace, hc.comment, hclose⟩ hcs hds (closed_of_items hi)⟩
  rw [Plain.items_cons (hc.plain_skip_cons u) hclose, hd]
  show (Plain.items t).map _ = _
  rw [hi]
  rfl

theorem CutItems.list {r s : List Char} {es : List Expr} (h : CutItems casing r es s) :
    Cut casing ('(' :: r) (.list es) s := by
  obtain ⟨ds, hi, hds⟩ := h
  refine ⟨'(', r, '(' :: ds, rfl, by constructor <;> decide, by decide, ?_, .list hds⟩
  rw [Plain.datum_list, hi]
  rfl

/-- An expression is read if it is cut out behind the blanks and comments. -/
theorem Cut.read {r s t : List Char} {e : Expr} (h : Cut casing r e s) (ht : Plain.skip t = r) :
    Plain.read casing t = .ok (e, s) := by
  obtain ⟨c, u, cs, rfl, hc, -, hd, hcs⟩ := h
  obtain ⟨cs, rfl⟩ := exists_cons_of_datum hd
  rw [Plain.read, ht]
  show Plain.expression casing c u = _
  rw [Plain.expression, hd]
  simp only [parse?_of_spells hc hcs]

/-! ## Printed forms -/

theorem delimited_printedRest (es : List Expr) (s : List Char) :
    Delimited ((Expr.printedRest es).toList ++ s) := by
  cases es with
  | nil => exact delimited_cons s (by decide)
  | cons e es =>
    simp only [Expr.printedRest, String.toList_append, List.append_assoc]
    exact delimited_cons _ (by decide)

mutual

/-- **Printing.** A printed expression is cut out of the front of a text.  Only an atom may run on
into what follows. -/
theorem cut_printed (casing : Casing) : ∀ (e : Expr) (s : List Char), e.Only Expr.DocumentName →
    (e.name? ≠ none → Delimited s) → Cut casing (e.printed.toList ++ s) (e.mapNames casing.apply) s
  | .atom name, s, h, hs => by
    obtain ⟨c, cs, hn, hcs⟩ := exists_cons_of_documentName (Expr.only_atom.1 h)
    obtain ⟨hblank, hmark⟩ := isDelimiter_eq_false_iff.1 (hcs c (List.mem_cons_self ..))
    simp only [List.mem_cons, List.not_mem_nil, or_false, not_or] at hmark
    obtain ⟨h1, h2, h3, hsemi, h4⟩ := hmark
    have hrest : ∀ x ∈ cs, isDelimiter x = false := fun x hx => hcs x (List.mem_cons_of_mem _ hx)
    refine ⟨c, cs ++ s, c :: cs, by rw [Expr.printed, hn]; rfl, ⟨hblank, hsemi⟩, h2, ?_, ?_⟩
    · rw [Plain.datum_atom _ h1 h2 h3 h4, Plain.atomRest_append hrest (hs nofun)]
    · rw [Expr.mapNames, ← String.ofList_toList (s := name), hn]
      exact .atom casing fun x hx => isConstituent_of_not_isDelimiter (hcs x hx)
  | .str text, s, _, _ => by
    have hp : (Expr.str text).printed.toList = '"' :: (encode text.toList ++ ['"']) := by
      rw [Expr.printed, literal, String.toList_ofList]
      rfl
    have hspells := Spells.string casing (stringBody_encode text.toList s)
    rw [Text.Quoted.decode_encode, String.ofList_toList] at hspells
    refine ⟨'"', encode text.toList ++ '"' :: s, _, by rw [hp]; simp, by constructor <;> decide,
      by decide, ?_, hspells⟩
    rw [Plain.datum_string, Plain.stringRest_encode]
    rfl
  | .list [], s, _, _ => (CutItems.close s).list
  | .list (e :: es), s, h, _ => by
    obtain ⟨he, hes⟩ := Expr.only_list_cons.1 h
    have hx : (Expr.list (e :: es)).printed.toList ++ s =
        '(' :: (e.printed.toList ++ ((Expr.printedRest es).toList ++ s)) := by
      simp [Expr.printed]
    have hfirst := cut_printed casing e _ he fun _ => delimited_printedRest es s
    rw [hx]
    exact (hfirst.items (cutItems_printedRest casing es s hes)).list

/-- The items of a printed list behind its first one. -/
theorem cutItems_printedRest (casing : Casing) : ∀ (es : List Expr) (s : List Char),
    (Expr.list es).Only Expr.DocumentName →
    CutItems casing ((Expr.printedRest es).toList ++ s) (Expr.mapItems casing.apply es) s
  | [], s, _ => .close s
  | e :: es, s, h => by
    obtain ⟨he, hes⟩ := Expr.only_list_cons.1 h
    have hx : (Expr.printedRest (e :: es)).toList ++ s =
        ' ' :: (e.printed.toList ++ ((Expr.printedRest es).toList ++ s)) := by
      simp [Expr.printedRest]
    have hfirst := cut_printed casing e _ he fun _ => delimited_printedRest es s
    rw [hx]
    exact (hfirst.items (cutItems_printedRest casing es s hes)).of_skip rfl

end

/-- An expression whose names the reader does not change is read back. -/
theorem read_printed {e : Expr} {s : List Char} (h : e.Only Expr.DocumentName)
    (hcase : e.Only fun name => casing.apply name = name) (hs : e.name? ≠ none → Delimited s) :
    Plain.read casing (e.printed.toList ++ s) = .ok (e, s) := by
  have hcut := cut_printed casing e s h hs
  rw [Expr.mapNames_eq_self e hcase] at hcut
  exact hcut.read hcut.skip_eq

/-! ## Reading all expressions -/

/-- An input without expressions. -/
theorem readAll_of_end {i : Input} (hi : i.Legible) (h : Plain.skip i.remaining = []) :
    (readAll casing i).1 = .ok [] := by
  have hn := reads_significant hi
  rw [h] at hn
  rw [readAll]
  split
  · next f j hj => exact (hj ▸ hn).ne_error.elim
  · rfl
  · next c j hj => cases (hj ▸ hn).of_some.1

/-- An input that starts with an expression. -/
theorem exists_readAll {i : Input} (hi : i.Legible) {e : Expr} {s : List Char}
    (h : Plain.read casing i.remaining = .ok (e, s)) :
    ∃ k : Input, k.Legible ∧ k.remaining = s ∧
      (readAll casing i).1 = (readAll casing k).1.map (e :: ·) := by
  have hn := reads_significant hi
  rw [readAll]
  split
  · next f j hj => exact (hj ▸ hn).ne_error.elim
  · next j hj =>
    have hend := (hj ▸ hn).of_none.1
    rw [Plain.read, hend] at h
    cases h
  · next c j hj =>
    obtain ⟨hr, hl⟩ := (hj ▸ hn).of_some
    rw [Plain.read, hr] at h
    -- the mark does not matter
    have hx : Agrees (expressionFrom casing c { j with mark := j.behind c }).1
      (Plain.expression casing c j.remaining) := agrees_expressionFrom casing c hl
    rw [show Plain.expression casing c j.remaining = .ok (e, s) from h] at hx
    obtain ⟨k, hk, hlk, hrk⟩ := hx.exists_ok
    refine ⟨k, hlk, hrk, ?_⟩
    split
    · next hf =>
      rw [hf] at hk
      cases hk
    · next hf =>
      rw [hf] at hk
      cases hk
      rcases readAll casing k with ⟨f | es, l⟩ <;> rfl

end Datum

end Sigil
