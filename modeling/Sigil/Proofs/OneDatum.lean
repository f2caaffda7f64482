import Sigil.Proofs.PrintedReading
import Sigil.Proofs.Reaching

/-!
# Exactly one datum

`Datum.read_takes_printed`: in front of blanks and comments a printed expression is read whole and
nothing behind it, whatever follows.  The input then stands right behind it: the offset counts the
bytes up to there, and what is read to the end is the text that follows.

1. What is read to the end of an input is what remains of it (`Input.drain_eq`).
2. Blanks and comments are skipped whatever follows them (`Blanks.skip_append`).
3. Reading an expression moves the cursor over the text that the plain reader takes (`read_at`).
-/

namespace Sigil

/-! ## Reading to the end -/

/-- All characters up to the end of the input. -/
def Input.drain (i : Input) : Except Failure (List Char) :=
  match h : i.next with
  | (.error f, _) => .error f
  | (.ok none, _) => .ok []
  | (.ok (some c), j) =>
    have := Input.size_next_lt h
    j.drain.map (c :: ·)
termination_by i.size

theorem Input.drain_eq {i : Input} (h : i.Legible) : i.drain = .ok i.remaining := by
  have hn := reads_next h
  fun_induction drain i with
  | case1 i f j hj => exact (hj ▸ hn).ne_error.elim
  | case2 i j hj =>
    obtain ⟨hr, -⟩ := (hj ▸ hn).of_none
    rw [hr]
  | case3 i c j hj _ ih =>
    obtain ⟨hr, hl⟩ := (hj ▸ hn).of_some
    rw [hr, ih hl (reads_next hl)]
    rfl

namespace Datum

open Text (Casing isBlank)

/-! ## Blanks and comments -/

/-- Blanks and comments, each comment with the line feed that ends it. -/
inductive Blanks : List Char → Prop
  | nil : Blanks []
  | blank {c : Char} {r : List Char} (hc : isBlank c = true) (h : Blanks r) : Blanks (c :: r)
  | comment {cs r : List Char} (hcs : '\n' ∉ cs) (h : Blanks r) : Blanks (';' :: cs ++ '\n' :: r)

/-- Within a comment all but the line feed is skipped. -/
theorem skipFrom_comment {cs : List Char} (h : '\n' ∉ cs) (r : List Char) :
    Plain.skipFrom true (cs ++ r) = Plain.skipFrom true r := by
  induction cs with
  | nil => rfl
  | cons c cs ih =>
    rw [List.mem_cons, not_or] at h
    have hrun : (c != '\n') = true := bne_iff_ne.2 (Ne.symm h.1)
    rw [List.cons_append, Plain.skipFrom, if_pos rfl, hrun]
    exact ih h.2

theorem skip_comment {cs : List Char} (h : '\n' ∉ cs) (r : List Char) :
    Plain.skip (';' :: cs ++ '\n' :: r) = Plain.skip r := by
  show Plain.skipFrom true (cs ++ '\n' :: r) = _
  rw [skipFrom_comment h]
  rfl

theorem skip_blank {c : Char} (h : isBlank c = true) (r : List Char) :
    Plain.skip (c :: r) = Plain.skip r := by
  have hc : c ≠ ';' := by
    rintro rfl
    exact absurd h (by decide)
  simp [Plain.skip, Plain.skipFrom, h, hc]

theorem Blanks.skip_append {w : List Char} (h : Blanks w) (r : List Char) :
    Plain.skip (w ++ r) = Plain.skip r := by
  induction h with
  | nil => rfl
  | blank hc _ ih => rw [List.cons_append, skip_blank hc, ih]
  | comment hcs _ ih =>
    rw [List.append_assoc]
    exact (skip_comment hcs _).trans ih

/-! ## Reading -/

/-- **Reading.** The cursor moves over the text that the plain reader takes. -/
theorem read_at {casing : Casing} {i : Input} {P R r s : List Char} {e : Expr}
    (h : i.At ⟨P, R, r⟩) (hr : Plain.read casing r = .ok (e, s)) :
    ∃ d j, r = d ++ s ∧ read casing i = (.ok e, j) ∧ j.At ⟨P, R ++ d, s⟩ := by
  have hagrees := agrees_read casing h.legible
  rw [h.remaining, hr] at hagrees
  obtain ⟨j, hj, -, hrj⟩ := hagrees.exists_ok
  obtain ⟨d, hreach⟩ := reaches_read casing i
  rw [hj] at hreach
  obtain ⟨rest, hrest, hat⟩ := hreach.at_cursor h
  have hs : rest = s := hat.remaining.symm.trans hrj
  subst hs
  exact ⟨d, j, hrest, hj, hat⟩

/-- The printed form of an expression is read behind blanks and comments. -/
theorem plain_read_printed (casing : Casing) {w s : List Char} {e : Expr} (hw : Blanks w)
    (he : e.Only Expr.DocumentName) (hs : e.name? ≠ none → Delimited s) :
    Plain.read casing (w ++ e.printed.toList ++ s) = .ok (e.mapNames casing.apply, s) := by
  have hcut := cut_printed casing e s he hs
  refine hcut.read ?_
  rw [List.append_assoc, hw.skip_append, hcut.skip_eq]

/-- **Exactly one datum.**  Behind blanks and comments and in front of any text, but for an atom in
front of one that does not run it on, the printed form of an expression is read as the expression
with its names cased.  The offset is then the number of bytes up to its end, and the characters that
are read from there on are those of the text that follows. -/
theorem read_takes_printed (casing : Casing) (name : String) {w s : String} {e : Expr}
    (hw : Blanks w.toList) (he : e.Only Expr.DocumentName)
    (hs : e.name? ≠ none → Delimited s.toList) :
    ∃ j : Input,
      read casing (.ofText name (w ++ e.printed ++ s)) = (.ok (e.mapNames casing.apply), j) ∧
      j.offset = (w ++ e.printed).utf8ByteSize ∧ j.drain = .ok s.toList := by
  have hread := plain_read_printed casing hw he hs
  rw [← String.toList_append, ← String.toList_append] at hread
  obtain ⟨d, j, hd, hj, hat⟩ := read_at (Input.at_start name (w ++ e.printed ++ s)) hread
  rw [String.toList_append] at hd
  obtain rfl := List.append_cancel_right hd
  refine ⟨j, hj, ?_, by rw [Input.drain_eq hat.legible, hat.remaining]⟩
  rw [hat.offset]
  exact Input.byteLength_toList (w ++ e.printed)

/-- A list over two lines between a comment and an atom that follows at once. -/
theorem read_takes_printed_list :
    let e : Expr := .list [.atom "Été", .str "\n\"(;", .list []]
    (Blanks "\u00a0;(\n".toList ∧ e.Only Expr.DocumentName ∧
      (e.name? ≠ none → Delimited "x".toList)) ∧
    ∃ j : Input,
      read (.fold .upper) (.ofText "document" ("\u00a0;(\n" ++ e.printed ++ "x")) =
        (.ok (.list [.atom "ÉTÉ", .str "\n\"(;", .list []]), j) ∧
      j.offset = 23 ∧ j.drain = .ok ['x'] := by
  intro e
  have hcomment : Blanks (';' :: ['('] ++ ['\n']) := .comment (by decide) .nil
  have hw : Blanks "\u00a0;(\n".toList := .blank (by decide) hcomment
  have he : e.Only Expr.DocumentName := by decide
  have hs : e.name? ≠ none → Delimited "x".toList := fun h => absurd rfl h
  obtain ⟨j, hj, ho, hd⟩ := read_takes_printed (.fold .upper) "document" hw he hs
  exact ⟨⟨hw, he, hs⟩, j, hj, ho.trans (by decide), hd⟩

end Datum

end Sigil
