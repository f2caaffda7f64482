import Sigil.Directive

/-!
# Sigils

The table of sigils and their directives.  At each character of a document the sigils are tried in
the order of the table, and the first that stands there wins.  A sigil that does not match gives
back what it has read, so the next one sees the same input.  Where the input ends inside a sigil and
no other one matches, the run fails.
-/

namespace Sigil

/-- A sigil with its directive.  A sigil has at least one character. -/
structure Entry where
  first : Char
  rest : List Char
  directive : Directive

namespace Entry

/-- The sigil of an entry. -/
def sigil (e : Entry) : String := String.ofList (e.first :: e.rest)

/-- An entry for a sigil that is given as a text. -/
def ofSigil (sigil : String) (directive : Directive) : Except Failure Entry :=
  match sigil.toList with
  | [] => .error (.plain .emptySigil)
  | first :: rest => .ok { first, rest, directive }

end Entry

/-- The built-in sigils. -/
def standardSigils : List (String × Handler) :=
  [("#.", .evaluateSilently), ("#:", .printExpanded), ("#e:", .renderEvaluated),
    ("#c:", .renderExpanded)]

/-- The table of the given sigils. -/
def sigilTable (sigils : List (String × Directive)) : Except Failure (List Entry) :=
  sigils.mapM fun (sigil, directive) => Entry.ofSigil sigil directive

/-- The table of the built-in sigils. -/
def standardTable : List Entry :=
  standardSigils.filterMap fun (sigil, handler) =>
    (Entry.ofSigil sigil handler.directive).toOption

/-! ## Matching -/

/-- How far a sigil matches. -/
inductive Match where
  | full
  | differs
  /-- The input ends inside the sigil, at the given offset. -/
  | cutShort (stop : Nat)
deriving DecidableEq, Repr

/-- Reads the characters of a sigil behind its first one, and gives them back if they differ. -/
def matchRest : List Char → Input → Except Failure Match × Input
  | [], i => (.ok .full, i)
  | want :: more, i =>
    match i.next with
    | (.error f, j) => (.error f, j)
    | (.ok none, j) => (.ok (.cutShort j.offset), j)
    | (.ok (some c), j) =>
      if c = want then
        match matchRest more j with
        | (.error f, k) => (.error f, k)
        | (.ok .full, k) => (.ok .full, k)
        | (.ok m, k) => (.ok m, k.unread c)
      else (.ok .differs, j.unread c)

/-- The first sigil that was cut short, and where. -/
abbrev CutShort := Option (String × Nat)

/-- Tries the sigils of a table at the character `c`, which has just been read from offset `start`,
and runs the directive of the first that matches.  `cut` remembers a sigil that was cut short. -/
def dispatchFrom (cx : Context) (start : Nat) (c : Char) (cut : CutShort) :
    List Entry → Run Bool
  | [] =>
    match cut with
    | none => pure false
    | some (sigil, stop) => do
      let s ← Run.state
      Run.fail (.located (.sigilCutShort sigil) s.input.source (s.input.span start stop))
  | e :: es =>
    if e.first = c then do
      match ← Run.onInput (matchRest e.rest) with
      | .full =>
        e.directive.run cx e.sigil
        pure true
      | .differs => dispatchFrom cx start c cut es
      | .cutShort stop => dispatchFrom cx start c (cut.or (some (e.sigil, stop))) es
    else dispatchFrom cx start c cut es

/-- Runs the directive whose sigil starts with the character `c`, which has just been read, and
says whether there is one. -/
def dispatch (cx : Context) (table : List Entry) (c : Char) : Run Bool := do
  let s ← Run.state
  dispatchFrom cx (s.input.behind c) c none table

end Sigil
