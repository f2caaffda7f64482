import Sigil.Input
import Mathlib.Data.List.Basic
import Mathlib.Tactic.SplitIfs

/-!
# What is left of an input

An input is a stack of ready characters on top of lines that are not yet pulled.  Where all these
lines can be read, all of this is one text, `Input.remaining`, and the operations are those of a
text: reading takes its first character off (`Input.reads_next`), giving back puts one in front.
When lines are pulled does not show.
-/

namespace Sigil

open Text (Line)

/-! ## Lines -/

namespace Text

theorem breakLines_ne_nil {α : Type} {endsLine : α → Bool} {l line : List α}
    (h : line ∈ breakLines endsLine l) : line ≠ [] := by
  induction l generalizing line with
  | nil => cases h
  | cons a r ih =>
    rw [breakLines] at h
    split at h
    · rcases List.mem_cons.1 h with rfl | h
      · exact List.cons_ne_nil _ _
      · exact ih h
    · split at h
      · rw [List.mem_singleton.1 h]
        exact List.cons_ne_nil _ _
      · next hr =>
        rcases List.mem_cons.1 h with rfl | h
        · exact List.cons_ne_nil _ _
        · exact ih (hr ▸ List.mem_cons_of_mem _ h)

/-- A run of elements that end no line goes in front of the first line. -/
theorem breakLines_append {α : Type} {endsLine : α → Bool} {l : List α} (hl : l ≠ [])
    (h : ∀ a ∈ l, endsLine a = false) (r : List α) :
    breakLines endsLine (l ++ r) =
      match breakLines endsLine r with
      | [] => [l]
      | line :: lines => (l ++ line) :: lines := by
  induction l with
  | nil => exact absurd rfl hl
  | cons a l ih =>
    have ha : endsLine a = false := h a (List.mem_cons_self ..)
    rw [List.cons_append, breakLines, ha, if_neg Bool.false_ne_true]
    by_cases hn : l = []
    · subst hn
      rfl
    · rw [ih hn fun b hb => h b (List.mem_cons_of_mem a hb)]
      cases breakLines endsLine r <;> rfl

/-- The byte of a line feed stands in the encoding of no other character. -/
theorem lineFeed_not_mem_utf8EncodeChar {c : Char} (hc : c ≠ '\n') :
    (10 : UInt8) ∉ String.utf8EncodeChar c := by
  have hv : c.val.toNat ≠ 10 := fun hx => hc (Char.ext (UInt32.toNat_inj.1 hx))
  -- every byte of a longer encoding is at least 128
  fun_cases String.utf8EncodeChar c <;>
    simp only [List.mem_cons, List.not_mem_nil, or_false, ← UInt8.toNat_inj, UInt8.toNat_ofNat',
      UInt8.reduceToNat] <;> omega

theorem breakLines_utf8 (cs : List Char) :
    breakLines (· == (10 : UInt8)) (cs.flatMap String.utf8EncodeChar) =
      (breakLines (· == '\n') cs).map (·.flatMap String.utf8EncodeChar) := by
  induction cs with
  | nil => rfl
  | cons c cs ih =>
    rw [List.flatMap_cons, breakLines]
    by_cases hc : c = '\n'
    · subst hc
      rw [if_pos (beq_self_eq_true '\n'), List.map_cons, ← ih]
      rfl
    · have hb : ∀ b ∈ String.utf8EncodeChar c, (b == (10 : UInt8)) = false :=
        fun b hb => beq_false_of_ne fun he => lineFeed_not_mem_utf8EncodeChar hc (he ▸ hb)
      rw [breakLines_append String.utf8EncodeChar_ne_nil hb, ih, if_neg (by simpa using hc)]
      cases breakLines (· == '\n') cs with
      | nil => rw [List.map_nil, List.map_singleton, List.flatMap_singleton]
      | cons line lines => rw [List.map_cons, List.map_cons, List.flatMap_cons]

theorem Line.ofBytes_utf8 (cs : List Char) :
    Line.ofBytes (cs.flatMap String.utf8EncodeChar) = .text cs := by
  have hv : (⟨(cs.flatMap String.utf8EncodeChar).toArray⟩ : ByteArray) =
      (String.ofList cs).toByteArray := by
    rw [String.toByteArray_ofList, List.utf8Encode]
    exact ByteArray.ext (List.data_toByteArray).symm
  have hs : String.fromUTF8? (String.ofList cs).toByteArray = some (String.ofList cs) :=
    dif_pos (String.ofList cs).isValidUTF8
  rw [ofBytes, hv, hs]
  dsimp only
  rw [String.toList_ofList]

theorem toUTF8_data_toList (text : String) :
    text.toUTF8.data.toList = text.toList.flatMap String.utf8EncodeChar := by
  rw [← String.ofList_toList (s := text), String.toUTF8_eq_toByteArray,
    String.toByteArray_ofList, List.utf8Encode, List.data_toByteArray, String.toList_ofList]

/-- The bytes of a text have the lines of the text. -/
theorem linesOfBytes_toUTF8 (text : String) : linesOfBytes text.toUTF8 = linesOfText text := by
  rw [linesOfBytes, linesOfText, toUTF8_data_toList, breakLines_utf8, List.map_map]
  exact List.map_congr_left fun cs _ => Line.ofBytes_utf8 cs

end Text

/-- The characters of a line; a line that cannot be read has none. -/
def Text.Line.chars : Line → List Char
  | .text cs => cs
  | .unreadable _ => []

theorem Text.Line.length_chars (l : Line) : l.chars.length = l.size := by cases l <;> rfl

/-- A line as a text is cut into: it can be read and is not empty. -/
def Text.Line.Legible (l : Line) : Prop := ∃ cs, l = .text cs ∧ cs ≠ []

namespace Input

/-- The text that is still to be read. -/
def remaining (i : Input) : List Char := i.ready ++ i.lines.flatMap Line.chars

/-- All lines that are not yet pulled can be read. -/
def Legible (i : Input) : Prop := ∀ l ∈ i.lines, l.Legible

/-! ## Fresh inputs -/

theorem length_remaining (i : Input) : i.remaining.length = i.size := by
  have h : ∀ ls : List Line, (ls.flatMap Line.chars).length = linesSize ls := by
    intro ls
    induction ls with
    | nil => rfl
    | cons l ls ih =>
      rw [List.flatMap_cons, List.length_append, ih, Line.length_chars]
      rfl
  rw [remaining, List.length_append, h, size]

theorem remaining_ofText (name text : String) : (ofText name text).remaining = text.toList := by
  show ((Text.breakLines (· == '\n') text.toList).map Line.text).flatMap Line.chars = _
  rw [List.flatMap_map, show (fun cs => Line.chars (.text cs)) = id from rfl, List.flatMap_id]
  exact Text.flatten_breakLines _ _

theorem legible_ofText (name text : String) : (ofText name text).Legible := by
  intro l hl
  obtain ⟨cs, hcs, rfl⟩ := List.mem_map.1 hl
  exact ⟨cs, rfl, Text.breakLines_ne_nil hcs⟩

/-- It does not matter whether a text comes as such or as bytes. -/
theorem ofBytes_toUTF8 (name text : String) : ofBytes name text.toUTF8 = ofText name text := by
  rw [ofBytes, ofText, Text.linesOfBytes_toUTF8]

/-! ## Operations -/

@[simp] theorem remaining_unread (i : Input) (c : Char) :
    (i.unread c).remaining = c :: i.remaining := rfl

theorem Legible.unread {i : Input} (h : i.Legible) (c : Char) : (i.unread c).Legible := h

@[simp] theorem remaining_setMark (i : Input) : i.setMark.remaining = i.remaining := rfl

theorem Legible.setMark {i : Input} (h : i.Legible) : i.setMark.Legible := h

/-- The outcome of an operation that reads the first character of the text `r`. -/
structure ReadsFrom (x : Except Failure (Option Char) × Input) (r : List Char) : Prop where
  value : x.1 = .ok r.head?
  legible : x.2.Legible
  remaining : x.2.remaining = r.tail

namespace ReadsFrom

variable {r : List Char} {j : Input} {c : Char} {f : Failure}

theorem ne_error (h : ReadsFrom (.error f, j) r) : False := nomatch h.value

theorem of_none (h : ReadsFrom (.ok none, j) r) : r = [] ∧ j.Legible ∧ j.remaining = [] := by
  have hr : r = [] := List.head?_eq_none_iff.1 (Except.ok.inj h.value).symm
  subst hr
  exact ⟨rfl, h.legible, h.remaining⟩

theorem of_some (h : ReadsFrom (.ok (some c), j) r) : r = c :: j.remaining ∧ j.Legible := by
  have hr : r = c :: r.tail := List.eq_cons_of_mem_head? (Except.ok.inj h.value).symm
  exact ⟨by rw [h.remaining]; exact hr, h.legible⟩

end ReadsFrom

theorem pull_of_ready {i : Input} (h : i.ready ≠ []) : i.pull = (.ok (), i) := by
  unfold pull
  split
  · next hr _ => exact absurd hr h
  · next hr _ => exact absurd hr h
  · rfl

theorem reads_pop {i : Input} (h : i.Legible) (hr : i.ready = [] → i.lines = []) :
    ReadsFrom (.ok i.pop.1, i.pop.2) i.remaining := by
  unfold pop remaining
  split
  · next he =>
    have hl := hr he
    refine ⟨?_, h, ?_⟩
    · rw [he, hl]; rfl
    · show i.remaining = _
      rw [remaining, he, hl]; rfl
  · next c r he =>
    refine ⟨?_, h, ?_⟩
    · rw [he]; rfl
    · rw [he]; rfl

/-- Reading takes the first character off the remaining text. -/
theorem reads_next {i : Input} (h : i.Legible) : ReadsFrom i.next i.remaining := by
  by_cases hr : i.ready = []
  · rcases hl : i.lines with _ | ⟨l, ls⟩
    · have hp : i.pull = (.ok (), i) := by simp only [pull, hr, hl]
      rw [next, hp]
      exact reads_pop h fun _ => hl
    · obtain ⟨cs, rfl, hcs⟩ := h l (hl ▸ List.mem_cons_self ..)
      have hp : i.pull = (.ok (), i.refill cs ls) := by simp only [pull, hr, hl]
      have hrem : i.remaining = (i.refill cs ls).remaining := by
        rw [remaining, hr, hl, List.nil_append, List.flatMap_cons]
        rfl
      rw [next, hp, hrem]
      refine reads_pop (fun l' hl' => h l' ?_) fun he => absurd he hcs
      rw [hl]
      exact List.mem_cons_of_mem _ hl'
  · rw [next, pull_of_ready hr]
    exact reads_pop h fun he => absurd he hr

end Input

end Sigil
