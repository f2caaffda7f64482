import Sigil.Proofs.Remaining

/-!
# An input is a cursor in a text

`Input.performAll_at_cursor`: whatever is read, looked at, marked and given back, as long as only
the last character is given back and none from before the mark, an input does what a cursor in its
text does.  Its offset counts the bytes before the cursor, its window is a piece of the text that
reaches from the mark or before to the last byte pulled, and its spans select in the window what the
same offsets select in the text.

1. `Input.At` ties an input to a cursor.  The window is what is left of the text before the mark,
   the text from there to the cursor, and the characters that are ready.
2. Each move keeps the tie (`Input.At.perform`).  When a line is pulled nothing is ready, so that the
   part of the window before the mark is cut off exactly there (`Input.At.refill`).
3. The bounds and the spans follow from the tie alone.
-/

namespace Sigil

open Text (Line)

/-! ## Bytes -/

namespace Input

@[simp] theorem byteLength_nil : byteLength [] = 0 := rfl

@[simp] theorem byteLength_cons (c : Char) (cs : List Char) :
    byteLength (c :: cs) = c.utf8Size + byteLength cs := rfl

@[simp] theorem byteLength_append (cs ds : List Char) :
    byteLength (cs ++ ds) = byteLength cs + byteLength ds := by
  induction cs with
  | nil => simp
  | cons c cs ih => simp [ih, Nat.add_assoc]

/-- Dropping the bytes of the first part of a text leaves the second one. -/
theorem dropBytes_append (cs ds : List Char) : dropBytes (byteLength cs) (cs ++ ds) = ds := by
  induction cs with
  | nil =>
    unfold dropBytes
    rfl
  | cons c cs ih =>
    have hc : 0 < c.utf8Size := c.utf8Size_pos
    obtain ⟨n, hn⟩ : ∃ n, byteLength (c :: cs) = n + 1 :=
      ⟨byteLength (c :: cs) - 1, by rw [byteLength_cons]; omega⟩
    rw [hn, List.cons_append, dropBytes, ← hn, byteLength_cons, Nat.add_sub_cancel_left, ih]
    omega

theorem eq_nil_of_byteLength {cs : List Char} (h : byteLength cs = 0) : cs = [] := by
  cases cs with
  | nil => rfl
  | cons c cs =>
    have hc : 0 < c.utf8Size := c.utf8Size_pos
    rw [byteLength_cons] at h
    omega

theorem size_toUTF8_ofList (cs : List Char) : (String.ofList cs).toUTF8.size = byteLength cs := by
  induction cs with
  | nil => rfl
  | cons c cs ih =>
    have hsplit : String.ofList (c :: cs) = String.singleton c ++ String.ofList cs := by
      rw [String.singleton_eq_ofList, ← String.ofList_append, List.singleton_append]
    have hone : (String.singleton c).toUTF8.size = c.utf8Size := String.utf8ByteSize_singleton ..
    rw [hsplit, String.toUTF8_eq_toByteArray, String.toByteArray_append, ByteArray.size_append,
      byteLength_cons, ← ih]
    exact congrArg (· + _) hone

theorem byteLength_toList (s : String) : byteLength s.toList = s.utf8ByteSize := by
  rw [← size_toUTF8_ofList, String.ofList_toList]
  rfl

end Input

/-! ## Cursors -/

/-- A place in a text with a mark before it. -/
structure Cursor where
  /-- The text before the mark. -/
  passed : List Char := []
  /-- The text from the mark to the cursor. -/
  read : List Char := []
  /-- The text behind the cursor. -/
  ahead : List Char

/-- What can be done with a source of characters. -/
inductive Move where
  | next
  | peek
  | mark
  | unread (c : Char)

namespace Cursor

/-- The text before the cursor. -/
def before (k : Cursor) : List Char := k.passed ++ k.read

/-- A cursor at the start of a text. -/
def start (text : String) : Cursor := { ahead := text.toList }

/-- Only the last character that was read since the mark can be given back. -/
def Permits (k : Cursor) : Move → Prop
  | .unread c => k.read.getLast? = some c
  | _ => True

/-- The character that a move shows: that at the cursor, for a move that reads or looks. -/
def shown (k : Cursor) : Move → Option Char
  | .next | .peek => k.ahead.head?
  | .mark | .unread _ => none

/-- The cursor behind the next character. -/
def forward (k : Cursor) : Cursor :=
  match k.ahead with
  | [] => k
  | c :: r => { k with read := k.read ++ [c], ahead := r }

/-- The cursor after a move. -/
def after (k : Cursor) : Move → Cursor
  | .next => k.forward
  | .peek => k
  | .mark => { passed := k.before, ahead := k.ahead }
  | .unread c => { k with read := k.read.dropLast, ahead := c :: k.ahead }

/-- All moves are permitted in turn. -/
def PermitsAll (k : Cursor) : List Move → Prop
  | [] => True
  | m :: ms => k.Permits m ∧ (k.after m).PermitsAll ms

/-- What moves show in turn, and the cursor behind them. -/
def follow (k : Cursor) : List Move → List (Option Char) × Cursor
  | [] => ([], k)
  | m :: ms => (k.shown m :: ((k.after m).follow ms).1, ((k.after m).follow ms).2)

instance decidablePermits (k : Cursor) : (m : Move) → Decidable (k.Permits m)
  | .unread _ => inferInstanceAs (Decidable (_ = _))
  | .next | .peek | .mark => .isTrue trivial

instance decidablePermitsAll : (k : Cursor) → (ms : List Move) → Decidable (k.PermitsAll ms)
  | _, [] => .isTrue trivial
  | k, m :: ms =>
    have := decidablePermitsAll (k.after m) ms
    inferInstanceAs (Decidable (_ ∧ _))

theorem forward_of_ahead {k : Cursor} {c : Char} {r : List Char} (h : k.ahead = c :: r) :
    k.forward = { k with read := k.read ++ [c], ahead := r } := by rw [forward, h]

/-- Looking at a character is reading it and giving it back. -/
theorem after_unread_forward {k : Cursor} {c : Char} {r : List Char} (h : k.ahead = c :: r) :
    k.forward.after (.unread c) = k := by
  rw [forward_of_ahead h, after, List.dropLast_concat, ← h]

theorem permits_unread_forward {k : Cursor} {c : Char} {r : List Char} (h : k.ahead = c :: r) :
    k.forward.Permits (.unread c) := by
  rw [forward_of_ahead h]
  exact List.getLast?_concat

/-- No move changes the text. -/
theorem text_after {k : Cursor} {m : Move} (h : k.Permits m) :
    (k.after m).before ++ (k.after m).ahead = k.before ++ k.ahead := by
  cases m with
  | next =>
    show k.forward.before ++ k.forward.ahead = _
    rcases hk : k.ahead with _ | ⟨c, r⟩
    · rw [forward, hk, hk]
    · rw [forward_of_ahead hk]
      simp [before]
  | peek => rfl
  | mark => simp [after, before]
  | unread c =>
    obtain ⟨cs, hcs⟩ := List.getLast?_eq_some_iff.1 h
    simp [after, before, hcs]

end Cursor

namespace Input

/-- Makes a move. -/
def perform (i : Input) : Move → Except Failure (Option Char) × Input
  | .next => i.next
  | .peek => i.peek
  | .mark => (.ok none, i.setMark)
  | .unread c => (.ok none, i.unread c)

/-- Makes moves in turn. -/
def performAll (i : Input) : List Move → List (Except Failure (Option Char)) × Input
  | [] => ([], i)
  | m :: ms =>
    ((i.perform m).1 :: ((i.perform m).2.performAll ms).1, ((i.perform m).2.performAll ms).2)

/-! ## Inputs at cursors -/

/-- The input stands at the cursor. -/
structure At (i : Input) (k : Cursor) : Prop where
  legible : i.Legible
  remaining : i.remaining = k.ahead
  offset : i.offset = byteLength k.before
  mark : i.mark = byteLength k.passed
  window : ∃ dropped kept, k.passed = dropped ++ kept ∧ byteLength dropped = i.windowStart ∧
    i.window = kept ++ k.read ++ i.ready

theorem at_start (name text : String) : (ofText name text).At (.start text) where
  legible := legible_ofText name text
  remaining := remaining_ofText name text
  offset := rfl
  mark := rfl
  window := ⟨[], [], rfl, rfl, rfl⟩

namespace At

variable {i : Input} {k : Cursor}

/-- Pulling a line cuts the window off at the mark. -/
theorem refill (h : i.At k) (hr : i.ready = []) {line : List Char} {rest : List Line}
    (hl : i.lines = .text line :: rest) : (i.refill line rest).At k := by
  obtain ⟨dropped, kept, hp, hd, hw⟩ := h.window
  have hreleased : min (i.mark - i.windowStart) (byteLength i.window) = byteLength kept := by
    rw [h.mark, hp, ← hd, hw, hr]
    simp only [byteLength_append, byteLength_nil]
    omega
  refine ⟨fun l hm => h.legible l ?_, ?_, h.offset, h.mark, k.passed, [], ?_, ?_, ?_⟩
  · rw [hl]
    exact List.mem_cons_of_mem _ hm
  · show line ++ rest.flatMap Line.chars = k.ahead
    rw [← h.remaining, Input.remaining, hr, hl]
    rfl
  · rw [List.append_nil]
  · show byteLength k.passed = i.windowStart + min (i.mark - i.windowStart) (byteLength i.window)
    rw [hreleased, hp, byteLength_append, hd]
  · show dropBytes (min (i.mark - i.windowStart) (byteLength i.window)) i.window ++ line = _
    rw [hreleased, hw, hr, List.append_nil, dropBytes_append]
    rfl

/-- Pulling keeps the place, and afterwards a character is ready unless the text is at its end. -/
theorem pull (h : i.At k) : i.pull.1 = .ok () ∧ i.pull.2.At k ∧
    (i.pull.2.ready = [] → k.ahead = []) := by
  by_cases hr : i.ready = []
  · rcases hl : i.lines with _ | ⟨l, ls⟩
    · have hp : i.pull = (.ok (), i) := by simp only [Input.pull, hr, hl]
      rw [hp]
      refine ⟨rfl, h, fun _ => ?_⟩
      rw [← h.remaining, Input.remaining, hr, hl]
      rfl
    · obtain ⟨cs, rfl, hcs⟩ := h.legible l (hl ▸ List.mem_cons_self ..)
      have hp : i.pull = (.ok (), i.refill cs ls) := by simp only [Input.pull, hr, hl]
      rw [hp]
      exact ⟨rfl, h.refill hr hl, fun he => absurd he hcs⟩
  · rw [pull_of_ready hr]
    exact ⟨rfl, h, fun he => absurd he hr⟩

theorem pop (h : i.At k) (hr : i.ready = [] → k.ahead = []) :
    i.pop.1 = k.ahead.head? ∧ i.pop.2.At k.forward := by
  rcases he : i.ready with _ | ⟨c, r⟩
  · have hk := hr he
    rw [Input.pop, he, Cursor.forward, hk]
    exact ⟨rfl, h⟩
  · have hk : k.ahead = c :: (r ++ i.lines.flatMap Line.chars) := by
      rw [← h.remaining, Input.remaining, he]
      rfl
    obtain ⟨dropped, kept, hp, hd, hw⟩ := h.window
    rw [Input.pop, he, Cursor.forward_of_ahead hk, hk]
    refine ⟨rfl, h.legible, rfl, ?_, h.mark, dropped, kept, hp, hd, ?_⟩
    · show i.offset + c.utf8Size = byteLength (k.passed ++ (k.read ++ [c]))
      rw [h.offset, Cursor.before]
      simp only [byteLength_append, byteLength_cons, byteLength_nil]
      omega
    · show i.window = kept ++ (k.read ++ [c]) ++ r
      rw [hw, he]
      simp only [List.append_assoc, List.cons_append, List.nil_append]

theorem next (h : i.At k) : i.next.1 = .ok k.ahead.head? ∧ i.next.2.At k.forward := by
  obtain ⟨hok, hat, hready⟩ := h.pull
  obtain ⟨hc, hat⟩ := hat.pop hready
  have hn : i.next = (.ok i.pull.2.pop.1, i.pull.2.pop.2) := by
    rw [Input.next]
    split
    · next f j hj => rw [hj] at hok; cases hok
    · next j hj => rw [hj]
  rw [hn]
  exact ⟨congrArg Except.ok hc, hat⟩

/-- A character that may be given back is counted in the offset. -/
theorem utf8Size_le_offset (h : i.At k) {c : Char} (hc : k.Permits (.unread c)) :
    c.utf8Size ≤ i.offset := by
  obtain ⟨cs, hcs⟩ := List.getLast?_eq_some_iff.1 hc
  rw [h.offset, Cursor.before, hcs]
  simp only [byteLength_append, byteLength_cons]
  omega

theorem unread (h : i.At k) {c : Char} (hc : k.Permits (.unread c)) :
    (i.unread c).At (k.after (.unread c)) := by
  obtain ⟨dropped, kept, hp, hd, hw⟩ := h.window
  obtain ⟨cs, hcs⟩ := List.getLast?_eq_some_iff.1 hc
  refine ⟨h.legible, congrArg (c :: ·) h.remaining, ?_, h.mark, dropped, kept, hp, hd, ?_⟩
  · show i.offset - c.utf8Size = byteLength (k.passed ++ k.read.dropLast)
    rw [h.offset, Cursor.before, hcs, List.dropLast_concat]
    simp only [byteLength_append, byteLength_cons, byteLength_nil]
    omega
  · show i.window = kept ++ k.read.dropLast ++ c :: i.ready
    rw [hw, hcs, List.dropLast_concat]
    simp only [List.append_assoc, List.cons_append, List.nil_append]

theorem peek (h : i.At k) : i.peek.1 = .ok k.ahead.head? ∧ i.peek.2.At k := by
  obtain ⟨hc, hat⟩ := h.next
  rcases hn : i.next with ⟨f | _ | c, j⟩
  · rw [hn] at hc
    cases hc
  · rw [hn] at hc hat
    have hk : k.ahead = [] := List.head?_eq_none_iff.1 (Except.ok.inj hc).symm
    rw [Cursor.forward, hk] at hat
    rw [Input.peek, hn]
    exact ⟨hc, hat⟩
  · rw [hn] at hc hat
    have hk : k.ahead = c :: k.ahead.tail := List.eq_cons_of_mem_head? (Except.ok.inj hc).symm
    rw [Input.peek, hn]
    exact ⟨hc, Cursor.after_unread_forward hk ▸ hat.unread (Cursor.permits_unread_forward hk)⟩

theorem setMark (h : i.At k) : i.setMark.At (k.after .mark) := by
  obtain ⟨dropped, kept, hp, hd, hw⟩ := h.window
  refine ⟨h.legible, h.remaining, ?_, h.offset, dropped, kept ++ k.read, ?_, hd, ?_⟩
  · show i.offset = byteLength (k.before ++ [])
    rw [List.append_nil]
    exact h.offset
  · show k.before = _
    rw [Cursor.before, hp, List.append_assoc]
  · show i.window = kept ++ k.read ++ [] ++ i.ready
    rw [List.append_nil]
    exact hw

/-- **One move.** -/
theorem perform (h : i.At k) {m : Move} (hm : k.Permits m) :
    (i.perform m).1 = .ok (k.shown m) ∧ (i.perform m).2.At (k.after m) := by
  cases m with
  | next => exact h.next
  | peek => exact h.peek
  | mark => exact ⟨rfl, h.setMark⟩
  | unread c => exact ⟨rfl, h.unread hm⟩

/-- **Moves.** -/
theorem performAll (h : i.At k) {ms : List Move} (hms : k.PermitsAll ms) :
    (i.performAll ms).1 = (k.follow ms).1.map .ok ∧ (i.performAll ms).2.At (k.follow ms).2 := by
  induction ms generalizing i k with
  | nil => exact ⟨rfl, h⟩
  | cons m ms ih =>
    obtain ⟨hc, hat⟩ := h.perform hms.1
    obtain ⟨hcs, hat⟩ := ih hat hms.2
    refine ⟨?_, hat⟩
    rw [Input.performAll, Cursor.follow, List.map_cons, hc, hcs]

/-! ## Bounds and spans -/

/-- The bytes pulled so far are those before the cursor and those that are ready. -/
theorem windowStart_add (h : i.At k) :
    i.windowStart + byteLength i.window = i.offset + byteLength i.ready := by
  obtain ⟨dropped, kept, hp, hd, hw⟩ := h.window
  rw [h.offset, Cursor.before, hp, ← hd, hw]
  simp only [byteLength_append]
  omega

theorem windowStart_le_mark (h : i.At k) : i.windowStart ≤ i.mark := by
  obtain ⟨dropped, kept, hp, hd, -⟩ := h.window
  rw [h.mark, hp, ← hd, byteLength_append]
  omega

theorem mark_le_offset (h : i.At k) : i.mark ≤ i.offset := by
  rw [h.mark, h.offset, Cursor.before, byteLength_append]
  omega

/-- The mark is on the boundary of a character in the window. -/
theorem released (h : i.At k) : ∃ released kept, i.window = released ++ kept ∧
    byteLength released = min (i.mark - i.windowStart) (byteLength i.window) := by
  obtain ⟨dropped, kept, hp, hd, hw⟩ := h.window
  refine ⟨kept, k.read ++ i.ready, by rw [hw, List.append_assoc], ?_⟩
  rw [h.mark, hp, ← hd, hw]
  simp only [byteLength_append]
  omega

/-- The text up to the last line pulled, from the start of the window on, is the window. -/
theorem exists_pulled (h : i.At k) : ∃ dropped, byteLength dropped = i.windowStart ∧
    k.before ++ k.ahead = dropped ++ i.window ++ i.lines.flatMap Line.chars := by
  obtain ⟨dropped, kept, hp, hd, hw⟩ := h.window
  refine ⟨dropped, hd, ?_⟩
  rw [← h.remaining, Input.remaining, Cursor.before, hp, hw]
  simp only [List.append_assoc]

/-- A place that is not before the mark in bytes is not before it in characters. -/
theorem exists_read_eq (h : i.At k) {a b : List Char} (hk : k.before = a ++ b)
    (ha : i.mark ≤ byteLength a) : ∃ c, a = k.passed ++ c ∧ k.read = c ++ b := by
  rcases List.append_eq_append_iff.1 hk with ⟨c, hac, hb⟩ | ⟨c, hpc, hb⟩
  · exact ⟨c, hac, hb⟩
  · have hc : c = [] := by
      rw [h.mark, hpc, byteLength_append] at ha
      exact eq_nil_of_byteLength (by omega)
    subst hc
    exact ⟨[], by rw [hpc, List.append_nil, List.append_nil], hb.symm⟩

/-- A span from a place behind the mark selects in the window the text from there to the cursor. -/
theorem spanFrom (h : i.At k) {a b : List Char} (hk : k.before = a ++ b)
    (ha : i.mark ≤ byteLength a) :
    ∃ w v, i.window = w ++ b ++ v ∧
      i.spanFrom (byteLength a) = ⟨byteLength w, byteLength (w ++ b)⟩ := by
  obtain ⟨c, hac, hread⟩ := h.exists_read_eq hk ha
  obtain ⟨dropped, kept, hp, hd, hw⟩ := h.window
  refine ⟨kept ++ c, i.ready, ?_, ?_⟩
  · rw [hw, hread]
    simp only [List.append_assoc]
  · have hstart : byteLength a - i.windowStart = byteLength (kept ++ c) := by
      rw [hac, hp, ← hd]
      simp only [byteLength_append]
      omega
    have hstop : i.offset - i.windowStart = byteLength (kept ++ c ++ b) := by
      rw [h.offset, hk, hac, hp, ← hd]
      simp only [byteLength_append]
      omega
    rw [Input.spanFrom, Input.span, hstart, hstop]

end At

/-- The number of bytes that were pulled from the lines of a text. -/
def pulled (i : Input) (text : String) : Nat :=
  text.utf8ByteSize - byteLength (i.lines.flatMap Line.chars)

namespace At

variable {i : Input} {k : Cursor} {text : String}

theorem pulled_eq (h : i.At k) (ht : k.before ++ k.ahead = text.toList) :
    i.pulled text = i.windowStart + byteLength i.window := by
  obtain ⟨dropped, hd, hp⟩ := h.exists_pulled
  rw [pulled, ← byteLength_toList, ← ht, hp]
  simp only [byteLength_append]
  omega

/-- **The window.** It holds the bytes of the text from its start to the last one pulled. -/
theorem source_bytes (h : i.At k) (ht : k.before ++ k.ahead = text.toList) :
    i.source.text.toUTF8 = text.toUTF8.extract i.windowStart (i.pulled text) := by
  obtain ⟨dropped, hd, hp⟩ := h.exists_pulled
  have htext : text = String.ofList dropped ++ String.ofList i.window ++
      String.ofList (i.lines.flatMap Line.chars) := by
    rw [← String.ofList_append, ← String.ofList_append, ← hp, ht, String.ofList_toList]
  have hbytes : text.toUTF8 = (String.ofList dropped).toUTF8 ++ (String.ofList i.window).toUTF8 ++
      (String.ofList (i.lines.flatMap Line.chars)).toUTF8 := by
    conv => lhs; rw [htext]
    simp only [String.toUTF8_eq_toByteArray, String.toByteArray_append]
  have hstart : (String.ofList dropped).toUTF8.size = i.windowStart := by
    rw [size_toUTF8_ofList, hd]
  have hstop : ((String.ofList dropped).toUTF8 ++ (String.ofList i.window).toUTF8).size =
      i.pulled text := by
    rw [ByteArray.size_append, hstart, size_toUTF8_ofList, h.pulled_eq ht]
  rw [hbytes, ← hstop, ByteArray.extract_append_size_left, ByteArray.extract_append_eq_right
    hstart.symm (ByteArray.size_append ..)]
  rfl

theorem offset_le_pulled (h : i.At k) (ht : k.before ++ k.ahead = text.toList) :
    i.offset ≤ i.pulled text := by
  rw [h.pulled_eq ht, h.windowStart_add]
  omega

/-- A span from any offset behind the mark selects in the window what it stands for in the text. -/
theorem spanFrom_bytes (h : i.At k) (ht : k.before ++ k.ahead = text.toList) {s : Nat}
    (hs : i.mark ≤ s) :
    i.source.text.toUTF8.extract (i.spanFrom s).start (i.spanFrom s).stop =
      text.toUTF8.extract s i.offset := by
  have hw := h.windowStart_le_mark
  have ho := h.mark_le_offset
  have hp := h.offset_le_pulled ht
  rw [h.source_bytes ht, ByteArray.extract_extract]
  show text.toUTF8.extract (i.windowStart + (s - i.windowStart))
    (min (i.windowStart + (i.offset - i.windowStart)) (i.pulled text)) = _
  congr 1 <;> omega

end At

end Input

theorem Cursor.text_follow {k : Cursor} {ms : List Move} (h : k.PermitsAll ms) :
    (k.follow ms).2.before ++ (k.follow ms).2.ahead = k.before ++ k.ahead := by
  induction ms generalizing k with
  | nil => rfl
  | cons m ms ih => exact (ih h.2).trans (text_after h.1)

/-- **An input is a cursor.**  After any moves that give back only what was read last and not before
the mark: the moves have shown the characters at the cursor; the offset counts the bytes before it;
the window holds the bytes of the text from its start to the last one pulled, with the mark and the
offset in between; the part of the window that the next line releases ends with a character; and
spans select in the window what they stand for in the text.  No difference of offsets is cut off. -/
theorem Input.performAll_at_cursor (name text : String) {input : Input}
    (hinput : input = .ofText name text ∨ input = .ofBytes name text.toUTF8) {moves : List Move}
    (h : (Cursor.start text).PermitsAll moves) :
    let i := (input.performAll moves).2
    let k := ((Cursor.start text).follow moves).2
    (input.performAll moves).1 = ((Cursor.start text).follow moves).1.map .ok ∧
    k.before ++ k.ahead = text.toList ∧
    i.offset = byteLength k.before ∧
    (∀ c, k.Permits (.unread c) → c.utf8Size ≤ i.offset) ∧
    i.source.text.toUTF8 = text.toUTF8.extract i.windowStart (i.pulled text) ∧
    i.mark = byteLength k.passed ∧
    (i.windowStart ≤ i.mark ∧ i.mark ≤ i.offset ∧ i.offset ≤ i.pulled text) ∧
    (∃ released kept, i.window = released ++ kept ∧
      byteLength released = min (i.mark - i.windowStart) (byteLength i.window)) ∧
    (∀ s, i.mark ≤ s →
      i.source.text.toUTF8.extract (i.spanFrom s).start (i.spanFrom s).stop =
        text.toUTF8.extract s i.offset) ∧
    (∀ a b, k.before = a ++ b → i.mark ≤ byteLength a →
      ∃ w v, i.window = w ++ b ++ v ∧
        i.spanFrom (byteLength a) = ⟨byteLength w, byteLength (w ++ b)⟩) := by
  have hstart : input.At (.start text) := by
    rcases hinput with rfl | rfl
    · exact at_start name text
    · rw [ofBytes_toUTF8]
      exact at_start name text
  obtain ⟨hshown, hat⟩ := hstart.performAll h
  have ht : ((Cursor.start text).follow moves).2.before ++ _ = text.toList := Cursor.text_follow h
  exact ⟨hshown, ht, hat.offset, fun _ => hat.utf8Size_le_offset, hat.source_bytes ht, hat.mark,
    ⟨hat.windowStart_le_mark, hat.mark_le_offset, hat.offset_le_pulled ht⟩, hat.released,
    fun _ => hat.spanFrom_bytes ht, fun _ _ => hat.spanFrom⟩

/-- A mark in the middle of a line, a look across its end and back. -/
theorem Input.performAll_at_cursor_marked :
    let moves := [.next, .mark, .next, .next, .peek, .unread '\n', .next]
    let i := ((ofText "t" "aé\nb").performAll moves).2
    (Cursor.start "aé\nb").PermitsAll moves ∧
      ((ofText "t" "aé\nb").performAll moves).1 =
        [.ok (some 'a'), .ok none, .ok (some 'é'), .ok (some '\n'), .ok (some 'b'), .ok none,
          .ok (some '\n')] ∧
      (i.offset = 4 ∧ i.source.text = "é\nb") ∧
      i.source.text.toUTF8.extract (i.spanFrom 1).start (i.spanFrom 1).stop =
        "aé\nb".toUTF8.extract 1 4 := by
  intro moves i
  have hp : (Cursor.start "aé\nb").PermitsAll moves := by decide
  obtain ⟨hshown, -, ho, -, -, -, -, -, hspan, -⟩ := performAll_at_cursor "t" "aé\nb" (.inl rfl) hp
  have hoffset : i.offset = 4 := ho.trans (by decide)
  refine ⟨hp, hshown.trans (by decide), ⟨hoffset, by decide⟩, ?_⟩
  exact (hspan 1 (by decide)).trans (by rw [← hoffset])

end Sigil
