/-!
# Lines and blanks

Input arrives a line at a time.  A line keeps its line feed, so the lines of a text concatenate to
the text; the last one may lack it.  A line of raw bytes that is no UTF-8 cannot be read, but it
does not spoil its neighbours.

Blank characters separate tokens in a document: the `White_Space` property of Unicode, a closed set
of twenty-five code points.  Diagnostics also trim their quotations by it.
-/

namespace Sigil.Text

/-- Cuts a list behind each element that ends a line. -/
def breakLines {α : Type} (endsLine : α → Bool) : List α → List (List α)
  | [] => []
  | a :: r =>
    if endsLine a then [a] :: breakLines endsLine r
    else
      match breakLines endsLine r with
      | [] => [[a]]
      | l :: ls => (a :: l) :: ls

/-- The lines of a text are the text. -/
theorem flatten_breakLines {α : Type} (endsLine : α → Bool) (l : List α) :
    (breakLines endsLine l).flatten = l := by
  induction l with
  | nil => rfl
  | cons a r ih =>
    simp only [breakLines]
    split
    · simp [ih]
    · split
      · next h => simp [h] at ih; simp [← ih]
      · next h => simp [h] at ih; simp [← ih]

/-- One line of input. -/
inductive Line where
  | text (chars : List Char)
  /-- A line that cannot be read, and why. -/
  | unreadable (reason : String)
deriving DecidableEq, Repr

namespace Line

/-- The number of characters that a line can give. -/
def size : Line → Nat
  | .text chars => chars.length
  | .unreadable _ => 0

/-- Why raw bytes cannot be read. -/
def noText : String := "stream did not contain valid UTF-8"

/-- A line of raw bytes. -/
def ofBytes (bytes : List UInt8) : Line :=
  match String.fromUTF8? ⟨bytes.toArray⟩ with
  | some s => .text s.toList
  | none => .unreadable noText

end Line

/-- The lines of a text. -/
def linesOfText (text : String) : List Line :=
  (breakLines (· == '\n') text.toList).map .text

/-- The lines of raw bytes. -/
def linesOfBytes (bytes : ByteArray) : List Line :=
  (breakLines (· == 10) bytes.data.toList).map Line.ofBytes

/-! ## Blanks -/

/-- The code points of the `White_Space` property. -/
def isBlank (c : Char) : Bool :=
  let n := c.toNat
  (9 ≤ n && n ≤ 13) || n == 0x20 || n == 0x85 || n == 0xA0 || n == 0x1680
    || (0x2000 ≤ n && n ≤ 0x200A) || n == 0x2028 || n == 0x2029 || n == 0x202F
    || n == 0x205F || n == 0x3000

/-- `s` without the blanks at its two ends. -/
def trim (s : String) : String :=
  String.ofList ((s.toList.dropWhile isBlank).reverse.dropWhile isBlank).reverse

/-- A text of blanks only. -/
def allBlank (s : String) : Bool := s.toList.all isBlank

end Sigil.Text
