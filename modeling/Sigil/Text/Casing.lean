import Sigil.Text.CaseTable

/-!
# Casing

Full case mapping of texts, and the two ways a reader can treat the case of a name: keep it, or fold
it to one side.  A capital sigma becomes `ς` at the end of a word and `σ` elsewhere.
-/

namespace Sigil.Text

/-- The direction in which names are folded. -/
inductive Fold where
  | lower
  | upper
deriving DecidableEq, Repr

namespace Fold

/-- The name of a direction in configurations. -/
def label : Fold → String
  | .lower => "lower"
  | .upper => "upper"

/-- The direction of a given name. -/
def ofLabel? : String → Option Fold
  | "lower" => some .lower
  | "upper" => some .upper
  | _ => none

theorem ofLabel?_label (f : Fold) : ofLabel? f.label = some f := by cases f <;> rfl

end Fold

/-! ## Single characters -/

/-- The mapping of one character by a table of runs and a table of sequences. -/
def mapped (runs : List CaseRun) (sequences : List (Nat × List Nat)) (c : Char) : List Char :=
  match sequences.lookup c.toNat with
  | some ns => ns.map Char.ofNat
  | none =>
    match runs.find? (·.contains c.toNat) with
    | some r => [Char.ofNat (r.image c.toNat)]
    | none => [c]

/-- The small form of a character, whatever stands around it. -/
def lowerChar (c : Char) : List Char :=
  if c.toNat < 0x80 then [c.toLower] else mapped CaseTable.lowerRuns CaseTable.lowerSequences c

/-- The capital form of a character. -/
def upperChar (c : Char) : List Char :=
  if c.toNat < 0x80 then [c.toUpper] else mapped CaseTable.upperRuns CaseTable.upperSequences c

/-- Membership in a list of closed ranges. -/
def inRanges (ranges : List (Nat × Nat)) (c : Char) : Bool :=
  ranges.any fun (lo, hi) => decide (lo ≤ c.toNat) && decide (c.toNat ≤ hi)

/-- Letters that have case. -/
def isCased (c : Char) : Bool := inRanges CaseTable.cased c

/-- Characters that do not interrupt a word: marks, modifiers, apostrophes. -/
def isCaseIgnorable (c : Char) : Bool := inRanges CaseTable.ignorable c

/-! ## Texts -/

/-- The first character that is not ignorable is a cased letter. -/
def meetsCased (cs : List Char) : Bool :=
  match cs.dropWhile isCaseIgnorable with
  | [] => false
  | c :: _ => isCased c

/-- A sigma between `before` (nearest character first) and `after` ends its word. -/
def endsWord (before after : List Char) : Bool := meetsCased before && !meetsCased after

/-- Small forms of a text that stands behind `before` (nearest character first). -/
def lowerChars (before : List Char) : List Char → List Char
  | [] => []
  | c :: after =>
    (if c = 'Σ' then [if endsWord before after then 'ς' else 'σ'] else lowerChar c)
      ++ lowerChars (c :: before) after

/-- A text in small letters. -/
def lowerText (s : String) : String := String.ofList (lowerChars [] s.toList)

/-- A text in capitals. -/
def upperText (s : String) : String := String.ofList (s.toList.flatMap upperChar)

/-- A text folded to one side. -/
def Fold.apply : Fold → String → String
  | .lower => lowerText
  | .upper => upperText

/-- How a reader treats the case of names. -/
inductive Casing where
  | keep
  | fold (side : Fold)
deriving DecidableEq, Repr

/-- The name that a reader makes of a text. -/
def Casing.apply : Casing → String → String
  | .keep, s => s
  | .fold f, s => f.apply s

@[simp] theorem Casing.apply_keep (s : String) : Casing.keep.apply s = s := rfl

end Sigil.Text
