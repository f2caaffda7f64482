/-!
# Quoted strings

The literal form of a string: double quotes around it, and a backslash before each double quote and
each backslash inside.  Reading a literal drops one backslash before any character.
-/

namespace Sigil.Text.Quoted

/-- The characters between the quotes. -/
def encode : List Char → List Char
  | [] => []
  | c :: r => if c = '"' ∨ c = '\\' then '\\' :: c :: encode r else c :: encode r

/-- The string that the characters between the quotes stand for; `escaped` says that a backslash
stands before them. -/
def decodeFrom (escaped : Bool) : List Char → List Char
  | [] => []
  | c :: r =>
    if escaped then c :: decodeFrom false r
    else if c = '\\' then decodeFrom true r
    else c :: decodeFrom false r

/-- The string that the characters between the quotes stand for. -/
def decode : List Char → List Char := decodeFrom false

/-- The literal of a string. -/
def literal (s : String) : String := String.ofList ('"' :: encode s.toList ++ ['"'])

/-- A string is read back from the inside of its literal. -/
theorem decode_encode (s : List Char) : decode (encode s) = s := by
  unfold decode
  induction s with
  | nil => rfl
  | cons c r ih =>
    by_cases hq : c = '"'
    · simp [encode, decodeFrom, hq, ih]
    · by_cases hb : c = '\\' <;> simp [encode, decodeFrom, hq, hb, ih]

end Sigil.Text.Quoted
