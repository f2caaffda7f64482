import Sigil.Failure
import Sigil.Text.Casing

/-!
# The grammar of a datum

A text that holds one expression, with blanks and comments around its tokens.  Four characters
separate here: space, tab, carriage return and line feed; every other character outside the five
punctuation marks belongs to an atom.  `parse` reads a whole text or nothing.
-/

namespace Sigil.Datum

open Text (Casing)

/-! ## Characters -/

/-- The separating characters of a datum. -/
def isSpace (c : Char) : Bool := c == ' ' || c == '\t' || c == '\r' || c == '\n'

/-- The marks that end an atom: parentheses, the double quote, the comment sign and the quote. -/
def isPunctuation (c : Char) : Bool :=
  c == '(' || c == ')' || c == '"' || c == ';' || c == '\''

/-- The characters that an atom consists of. -/
def isConstituent (c : Char) : Bool := !isSpace c && !isPunctuation c

/-! ## Tokens -/

/-- Drops separators and comments; `inComment` says that a comment is running.  A comment ends
before its line feed. -/
def skipFrom (inComment : Bool) : List Char → List Char
  | [] => []
  | c :: r =>
    if inComment then skipFrom (c != '\n') r
    else if c = ';' then skipFrom true r
    else if isSpace c then skipFrom false r
    else c :: r

/-- Drops separators and comments. -/
def skip : List Char → List Char := skipFrom false

theorem length_skipFrom_le (b : Bool) (cs : List Char) : (skipFrom b cs).length ≤ cs.length := by
  induction cs generalizing b with
  | nil => simp [skipFrom]
  | cons c r ih =>
    have := ih true
    have := ih false
    have := ih (c != '\n')
    simp only [skipFrom]
    split
    · simp only [List.length_cons]; omega
    · split
      · simp only [List.length_cons]; omega
      · split <;> simp only [List.length_cons] <;> omega

theorem length_skip_le (cs : List Char) : (skip cs).length ≤ cs.length := length_skipFrom_le _ _

/-- Splits the inside of a string from what follows its closing quote; `escaped` says that a
backslash stands before the text. -/
def stringBody (escaped : Bool) : List Char → Option (List Char × List Char)
  | [] => none
  | c :: r =>
    if escaped then (stringBody false r).map fun (body, rest) => (c :: body, rest)
    else if c = '"' then some ([], r)
    else (stringBody (c == '\\') r).map fun (body, rest) => (c :: body, rest)

theorem length_stringBody_lt {b : Bool} {cs body rest : List Char}
    (h : stringBody b cs = some (body, rest)) : rest.length < cs.length := by
  induction cs generalizing b body rest with
  | nil => simp [stringBody] at h
  | cons c r ih =>
    simp only [stringBody] at h
    split at h
    · obtain ⟨⟨x, y⟩, hxy, he⟩ := Option.map_eq_some_iff.1 h
      cases he
      exact Nat.lt_succ_of_lt (ih hxy)
    · split at h
      · cases h
        exact Nat.lt_succ_self _
      · obtain ⟨⟨x, y⟩, hxy, he⟩ := Option.map_eq_some_iff.1 h
        cases he
        exact Nat.lt_succ_of_lt (ih hxy)

theorem length_dropWhile_le {α : Type} (p : α → Bool) (l : List α) :
    (l.dropWhile p).length ≤ l.length :=
  (List.dropWhile_suffix p).length_le

/-! ## Expressions -/

/-- What is left of `cs` behind a token. -/
abbrev Rest (cs : List Char) := { r : List Char // r.length < cs.length }

mutual

/-- The expression at the front of a text, and what follows it. -/
def term (casing : Casing) (cs : List Char) : Option (Expr × Rest cs) :=
  match cs with
  | [] => none
  | c :: r =>
    if c = '(' then
      (items casing r).map fun (es, rest) => (.list es, ⟨rest.1, Nat.lt_succ_of_lt rest.2⟩)
    else if c = '\'' then
      have := length_skip_le r
      (term casing (skip r)).map fun (e, rest) =>
        (e.quoted, ⟨rest.1, by have := rest.2; simp only [List.length_cons]; omega⟩)
    else if c = '"' then
      match h : stringBody false r with
      | none => none
      | some (body, rest) =>
        some (.str (String.ofList (Text.Quoted.decode body)),
          ⟨rest, Nat.lt_succ_of_lt (length_stringBody_lt h)⟩)
    else if isConstituent c then
      some (.atom (casing.apply (String.ofList (c :: r.takeWhile isConstituent))),
        ⟨r.dropWhile isConstituent, Nat.lt_succ_of_le (length_dropWhile_le _ _)⟩)
    else none
termination_by 2 * cs.length
decreasing_by all_goals simp only [List.length_cons] at *; omega

/-- The elements of a list up to its closing parenthesis, and what follows that. -/
def items (casing : Casing) (cs : List Char) : Option (List Expr × Rest cs) :=
  have hs := length_skip_le cs
  match h : skip cs with
  | [] => none
  | c :: r =>
    if c = ')' then some ([], ⟨r, by rw [h] at hs; exact hs⟩)
    else
      match term casing (c :: r) with
      | none => none
      | some (e, rest) =>
        have hr : rest.1.length < cs.length := by have := rest.2; rw [h] at hs; omega
        (items casing rest.1).map fun (es, rest') =>
          (e :: es, ⟨rest'.1, Nat.lt_trans rest'.2 hr⟩)
termination_by 2 * cs.length + 1
decreasing_by
  · rw [h] at hs; omega
  · omega

end

/-- The one expression of a text, if the text is a datum. -/
def parse? (casing : Casing) (text : String) : Option Expr :=
  match term casing (skip text.toList) with
  | some (e, rest) => if (skip rest.1).isEmpty then some e else none
  | none => none

/-- The one expression of a text. -/
def parse (casing : Casing) (text : String) : Except Failure Expr :=
  match parse? casing text with
  | some e => .ok e
  | none => .error ((Failure.plain (.notADatum text)).withOrigin .grammar)

end Sigil.Datum
