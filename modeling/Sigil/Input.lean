import Sigil.Failure
import Sigil.Text.Lines

/-!
# Input

A source of characters that takes characters back.  Lines are pulled one at a time; what was pulled
since the last mark is kept as a window, so that diagnostics have a text to point into, while a long
run holds no more than the construct being read.

`Input.size` is the number of characters that can still be read.  Reading a character lowers it, and
giving that character back restores it; the readers of expressions end by it.
-/

namespace Sigil

open Text (Line)

/-- Unread input with its window.  Offsets count bytes from the start of the input. -/
structure Input where
  name : String
  /-- Characters that are pulled or given back and not yet read. -/
  ready : List Char := []
  /-- Lines that are not yet pulled. -/
  lines : List Line
  /-- The text pulled since the mark that held when the current line was pulled. -/
  window : List Char := []
  /-- The offset at which the window starts. -/
  windowStart : Nat := 0
  /-- The offset before which the window may be dropped. -/
  mark : Nat := 0
  /-- The offset of the next character. -/
  offset : Nat := 0
deriving DecidableEq

namespace Input

/-- A fresh input over a text. -/
def ofText (name text : String) : Input := { name, lines := Text.linesOfText text }

/-- A fresh input over raw bytes. -/
def ofBytes (name : String) (bytes : ByteArray) : Input :=
  { name, lines := Text.linesOfBytes bytes }

/-- The number of characters in lines. -/
def linesSize (ls : List Line) : Nat := ls.foldr (fun l n => l.size + n) 0

/-- The number of characters that can still be read. -/
def size (i : Input) : Nat := i.ready.length + linesSize i.lines

/-! ## Moving -/

/-- The failure to read a line. -/
def unreadable (i : Input) (reason : String) : Failure :=
  (Failure.plain (.unreadable i.name reason)).withOrigin (.device reason)

/-- The characters of a text behind its first `n` bytes. -/
def dropBytes : Nat → List Char → List Char
  | 0, cs => cs
  | _, [] => []
  | n, c :: cs => dropBytes (n - c.utf8Size) cs

/-- The number of bytes of a text. -/
def byteLength (cs : List Char) : Nat := cs.foldr (fun c n => c.utf8Size + n) 0

/-- The input after the line `line` was pulled, before `rest`.  The part of the window before the
mark is dropped at this moment. -/
def refill (i : Input) (line : List Char) (rest : List Line) : Input :=
  let released := min (i.mark - i.windowStart) (byteLength i.window)
  { i with
    ready := line
    lines := rest
    window := dropBytes released i.window ++ line
    windowStart := i.windowStart + released }

/-- Pulls a line if no character is ready.  A line that cannot be read is given up. -/
def pull (i : Input) : Except Failure Unit × Input :=
  match i.ready, i.lines with
  | [], .text line :: rest => (.ok (), i.refill line rest)
  | [], .unreadable reason :: rest => (.error (i.unreadable reason), { i with lines := rest })
  | _, _ => (.ok (), i)

/-- Takes the next ready character. -/
def pop (i : Input) : Option Char × Input :=
  match i.ready with
  | [] => (none, i)
  | c :: r => (some c, { i with ready := r, offset := i.offset + c.utf8Size })

/-- Reads the next character; there is none at the end of the input. -/
def next (i : Input) : Except Failure (Option Char) × Input :=
  match i.pull with
  | (.error f, i) => (.error f, i)
  | (.ok (), i) => (.ok i.pop.1, i.pop.2)

/-- Gives a character back, to be read next. -/
def unread (i : Input) (c : Char) : Input :=
  { i with ready := c :: i.ready, offset := i.offset - c.utf8Size }

/-- Gives several characters back, the first of them to be read next. -/
def unreadAll (i : Input) (cs : List Char) : Input := cs.foldr (fun c i => i.unread c) i

/-- The next character, which stays unread. -/
def peek (i : Input) : Except Failure (Option Char) × Input :=
  match i.next with
  | (.ok (some c), i) => (.ok (some c), i.unread c)
  | r => r

/-- Lets go of the text before the next character. -/
def setMark (i : Input) : Input := { i with mark := i.offset }

/-- The offset of the character `c` that has just been read. -/
def behind (i : Input) (c : Char) : Nat := i.offset - c.utf8Size

/-! ## Diagnostics -/

/-- A range of offsets as a range of the window. -/
def span (i : Input) (start stop : Nat) : Span := ⟨start - i.windowStart, stop - i.windowStart⟩

/-- The range from `start` to the next character. -/
def spanFrom (i : Input) (start : Nat) : Span := i.span start i.offset

/-- The window as a text that diagnostics point into. -/
def source (i : Input) : Source := ⟨i.name, String.ofList i.window⟩

/-- A fault between `start` and the next character. -/
def failure (i : Input) (fault : Fault) (start : Nat) : Failure :=
  .located fault i.source (i.spanFrom start)

/-! ## Size -/

@[simp] theorem size_unread (i : Input) (c : Char) : (i.unread c).size = i.size + 1 := by
  simp [size, unread]; omega

@[simp] theorem size_setMark (i : Input) : i.setMark.size = i.size := rfl

theorem size_pull_le (i : Input) : i.pull.2.size ≤ i.size := by
  unfold pull
  split
  · next hr hl => simp [size, linesSize, refill, hr, hl, Line.size]
  · next hr hl => simp [size, linesSize, hr, hl, Line.size]
  · exact Nat.le_refl _

theorem size_pop (i : Input) : i.pop.2.size + i.pop.1.toList.length = i.size := by
  unfold pop
  split
  · simp
  · next h => simp [size, h]; omega

/-- A character that was read is no longer there. -/
theorem size_next (i : Input) (r : Except Failure (Option Char) × Input) (h : i.next = r) :
    r.2.size ≤ i.size ∧ ∀ c, r.1 = .ok (some c) → r.2.size + 1 ≤ i.size := by
  have hp := size_pull_le i
  subst h
  unfold next
  split
  · next f j hj => rw [hj] at hp; exact ⟨hp, nofun⟩
  · next j hj =>
    rw [hj] at hp
    have hq := size_pop j
    refine ⟨by simp only at *; omega, fun c hc => ?_⟩
    simp only [Except.ok.injEq] at hc
    simp only [hc, Option.toList_some, List.length_cons, List.length_nil] at hq hp ⊢
    omega

theorem size_next_lt {i j : Input} {c : Char} (h : i.next = (.ok (some c), j)) :
    j.size < i.size := (size_next i _ h).2 c rfl

end Input

end Sigil
