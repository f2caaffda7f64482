import Sigil.Datum.Grammar
import Sigil.Input

/-!
# Reading a datum from an input

Exactly one expression is taken from the input, which is left right behind it.  The text of the
datum is cut out first, character by character; whether the input ends too early and whether the
parentheses balance is decided there.  The text is then parsed by the grammar of a datum.  Here all
blanks of Unicode separate, and a cut-out text separates its tokens by single spaces.

An input that ends before a datum begins lacks an expression; one that ends inside a datum is
malformed, and so is a stray closing parenthesis.
-/

namespace Sigil.Datum

open Text (Casing isBlank)

/-- The characters that end an atom in a document. -/
def isDelimiter (c : Char) : Bool := isBlank c || isPunctuation c

/-! ## Blanks and comments -/

/-- Reads up to the first character that is neither blank nor in a comment, and returns it;
`inComment` says that a comment is running. -/
def significantFrom (inComment : Bool) (i : Input) : Except Failure (Option Char) × Input :=
  match h : i.next with
  | (.ok (some c), j) =>
    have := Input.size_next_lt h
    if inComment then significantFrom (c != '\n') j
    else if c = ';' then significantFrom true j
    else if isBlank c then significantFrom false j
    else (.ok (some c), j)
  | r => r
termination_by i.size

/-- Reads up to the first character that is neither blank nor in a comment, and returns it. -/
def significant (i : Input) : Except Failure (Option Char) × Input := significantFrom false i

theorem size_significantFrom (b : Bool) (i : Input) (r : Except Failure (Option Char) × Input)
    (h : significantFrom b i = r) :
    r.2.size ≤ i.size ∧ ∀ c, r.1 = .ok (some c) → r.2.size + 1 ≤ i.size := by
  induction hn : i.size using Nat.strongRecOn generalizing b i with
  | ind n ih =>
    have step : ∀ {b' c j}, i.next = (.ok (some c), j) → significantFrom b' j = r →
        r.2.size ≤ n ∧ ∀ c, r.1 = .ok (some c) → r.2.size + 1 ≤ n := by
      intro b' c j hj hr
      have hlt := Input.size_next_lt hj
      have := ih j.size (by omega) b' j hr rfl
      exact ⟨by omega, fun c hc => by have := this.2 c hc; omega⟩
    rw [significantFrom] at h
    split at h
    · next c j hj =>
      split at h
      · exact step hj h
      · split at h
        · exact step hj h
        · split at h
          · exact step hj h
          · subst h
            exact hn ▸ Input.size_next i _ hj
    · subst h
      exact hn ▸ Input.size_next i _ rfl

theorem size_significant (i : Input) (r : Except Failure (Option Char) × Input)
    (h : significant i = r) :
    r.2.size ≤ i.size ∧ ∀ c, r.1 = .ok (some c) → r.2.size + 1 ≤ i.size :=
  size_significantFrom false i r h

theorem size_significant_lt {i j : Input} {c : Char} (h : significant i = (.ok (some c), j)) :
    j.size < i.size := (size_significant i _ h).2 c rfl

/-- Skips blanks and comments. -/
def skipBlanks (i : Input) : Except Failure Unit × Input :=
  match significant i with
  | (.error f, j) => (.error f, j)
  | (.ok none, j) => (.ok (), j)
  | (.ok (some c), j) => (.ok (), j.unread c)

/-! ## Cutting out a datum -/

/-- The outcome of reading from `i`: a result, and no more input than before. -/
abbrev Outcome (α : Type) (i : Input) := { r : Except Failure α × Input // r.2.size ≤ i.size }

/-- An outcome with its result changed. -/
def Outcome.map {α β : Type} {i : Input} (f : α → β) (r : Outcome α i) : Outcome β i :=
  ⟨(r.1.1.map f, r.1.2), r.2⟩

/-- The outcome of reading from what is left of `i`. -/
def Outcome.from {α : Type} {i j : Input} (r : Outcome α j) (h : j.size ≤ i.size) : Outcome α i :=
  ⟨r.1, Nat.le_trans r.2 h⟩

/-- The rest of an atom. -/
def atomRest (i : Input) : Outcome (List Char) i :=
  match h : i.next with
  | (.error f, j) => ⟨(.error f, j), (Input.size_next i _ h).1⟩
  | (.ok none, j) => ⟨(.ok [], j), (Input.size_next i _ h).1⟩
  | (.ok (some c), j) =>
    have hj := Input.size_next_lt h
    if isDelimiter c then ⟨(.ok [], j.unread c), by rw [Input.size_unread]; exact hj⟩
    else ((atomRest j).map (c :: ·)).from (Nat.le_of_lt hj)
termination_by i.size

/-- The rest of a string that starts at offset `start`, with its closing quote; `escaped` says that
a backslash was read last. -/
def stringRest (start : Nat) (escaped : Bool) (i : Input) : Outcome (List Char) i :=
  match h : i.next with
  | (.error f, j) => ⟨(.error f, j), (Input.size_next i _ h).1⟩
  | (.ok none, j) =>
    ⟨(.error (j.failure (.unterminatedString escaped) start), j), (Input.size_next i _ h).1⟩
  | (.ok (some c), j) =>
    have hj := Input.size_next_lt h
    if !escaped && c == '"' then ⟨(.ok [c], j), Nat.le_of_lt hj⟩
    else
      ((stringRest start (!escaped && c == '\\') j).map (c :: ·)).from (Nat.le_of_lt hj)
termination_by i.size

mutual

/-- The text of the datum whose first character `c` has just been read.  The whole expression
starts at offset `start`. -/
def datumFrom (start : Nat) (c : Char) (i : Input) : Outcome (List Char) i :=
  if c = '(' then (itemsFrom start (i.behind c) i).map (c :: ·)
  else if c = ')' then ⟨(.error (i.failure .strayClose (i.behind c)), i), Nat.le_refl _⟩
  else if c = '"' then (stringRest (i.behind c) false i).map (c :: ·)
  else if c = '\'' then
    match h : significant i with
    | (.error f, j) => ⟨(.error f, j), (size_significant i _ h).1⟩
    | (.ok none, j) =>
      ⟨(.error (j.failure .danglingQuote start), j), (size_significant i _ h).1⟩
    | (.ok (some d), j) =>
      have hj := size_significant_lt h
      ((datumFrom start d j).map (c :: ·)).from (Nat.le_of_lt hj)
  else (atomRest i).map (c :: ·)
termination_by 2 * i.size + 1

/-- The elements of a list up to its closing parenthesis, a space before each.  The list was opened
at offset `opened`. -/
def itemsFrom (start opened : Nat) (i : Input) : Outcome (List Char) i :=
  match h : significant i with
  | (.error f, j) => ⟨(.error f, j), (size_significant i _ h).1⟩
  | (.ok none, j) =>
    ⟨(.error (j.failure .unbalancedList opened), j), (size_significant i _ h).1⟩
  | (.ok (some c), j) =>
    have hj := size_significant_lt h
    if c = ')' then ⟨(.ok [c], j), Nat.le_of_lt hj⟩
    else
      match datumFrom start c j with
      | ⟨(.error f, k), hk⟩ => ⟨(.error f, k), Nat.le_trans hk (Nat.le_of_lt hj)⟩
      | ⟨(.ok cs, k), hk⟩ =>
        have hk : k.size < i.size := Nat.lt_of_le_of_lt hk hj
        ((itemsFrom start opened k).map (' ' :: cs ++ ·)).from (Nat.le_of_lt hk)
termination_by 2 * i.size

end

/-! ## Reading -/

/-- The expression whose first character `c` has just been read. -/
def expressionFrom (casing : Casing) (c : Char) (i : Input) : Outcome Expr i :=
  match datumFrom (i.behind c) c i with
  | ⟨(.error f, j), hj⟩ => ⟨(.error f, j), hj⟩
  | ⟨(.ok text, j), hj⟩ =>
    match parse casing (String.ofList text) with
    | .ok e => ⟨(.ok e, j), hj⟩
    | .error f =>
      ⟨(.error ((j.failure .unreadDatum (i.behind c)).withOrigin (.fault f.fault)), j), hj⟩

/-- Reads one expression. -/
def read (casing : Casing) (i : Input) : Except Failure Expr × Input :=
  match significant i with
  | (.error f, j) => (.error f, j)
  | (.ok none, j) => (.error (j.failure .missingExpression j.offset), j)
  | (.ok (some c), j) => (expressionFrom casing c j).1

/-- Reads expressions to the end of the input, with a mark at the start of each. -/
def readAll (casing : Casing) (i : Input) : Except Failure (List Expr) × Input :=
  match h : significant i with
  | (.error f, j) => (.error f, j)
  | (.ok none, j) => (.ok [], j.setMark)
  | (.ok (some c), j) =>
    have hj : j.size < i.size := size_significant_lt h
    match expressionFrom casing c { j with mark := j.behind c } with
    | ⟨(.error f, k), _⟩ => (.error f, k)
    | ⟨(.ok e, k), hk⟩ =>
      have : k.size < i.size := Nat.lt_of_le_of_lt hk hj
      match readAll casing k with
      | (.error f, l) => (.error f, l)
      | (.ok es, l) => (.ok (e :: es), l)
termination_by i.size

end Sigil.Datum
