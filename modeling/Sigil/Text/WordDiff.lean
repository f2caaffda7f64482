/-!
# Differences word by word

Two texts are compared as lists of words, a word being what stands between single spaces.  First a
common subsequence of the words is found by the usual table of lengths; then both lists are walked
along it, and what lies between common words is removed from one side and added on the other.

The way back through the table reads the cell to the left of a row's first cell as the last cell of
the row before.  This only decides between subsequences, so the outcome is a common subsequence all
the same.
-/

namespace Sigil.Text

/-- A piece of a difference. -/
inductive Change where
  | same (text : String)
  | removed (text : String)
  | added (text : String)
deriving DecidableEq, Repr

namespace WordDiff

/-! ## Words -/

/-- The pieces of a text between single spaces. -/
def splitSpaces : List Char → List (List Char)
  | [] => [[]]
  | c :: r =>
    match splitSpaces r with
    | [] => [[c]]
    | w :: ws => if c = ' ' then [] :: w :: ws else (c :: w) :: ws

/-- The words of a text; an empty word stands between two neighbouring spaces. -/
def words (text : String) : List String := (splitSpaces text.toList).map String.ofList

/-- The words of a text, none for the empty text. -/
def wordsOrNone (text : String) : List String := if text.isEmpty then [] else words text

/-- Words with spaces between them. -/
def unwords (ws : List String) : String := " ".intercalate ws

/-! ## A common subsequence -/

/-- The cells of a row of the table from the word `x`, behind `left` and below the row `up`;
`diagonal` is the cell before `up`. -/
def rowFrom (x : String) (left diagonal : Nat) : List String → List Nat → List Nat
  | [], _ => []
  | y :: ys, up =>
    let above := up.head?.getD 0
    let cell := if x = y then diagonal + 1 else max left above
    cell :: rowFrom x cell above ys up.tail

/-- The rows of the table: cell `(i, j)` is the length of a longest common subsequence of the words
up to `i` and the words up to `j`. -/
def rows (ys : List String) (up : List Nat) : List String → List (List Nat)
  | [] => []
  | x :: xs =>
    let row := rowFrom x 0 0 ys up
    row :: rows ys row xs

/-- The way back through the table from row `p` and column `q`, counted from one.  The common words
met on it come last first. -/
def back (xs ys : Array String) (cells : Array Nat) (p q : Nat) : List String :=
  match p, q with
  | 0, _ => []
  | _, 0 => []
  | i + 1, j + 1 =>
    let x := xs.getD i ""
    if x = ys.getD j "" then x :: back xs ys cells i j
    else if i = 0 ∧ j = 0 then []
    else if i = 0 ∨ cells.getD (i * ys.size + j - 1) 0 > cells.getD ((i - 1) * ys.size + j) 0 then
      back xs ys cells (i + 1) j
    else back xs ys cells i (j + 1)
termination_by p + q

/-- Common words of two lists, in order. -/
def common (xs ys : List String) : List String :=
  let cells := (rows ys [] xs).flatten
  (back xs.toArray ys.toArray cells.toArray xs.length ys.length).reverse

/-! ## Walking along the common words -/

/-- The number of words at the front that all three lists share. -/
def shared : List String → List String → List String → Nat
  | x :: xs, y :: ys, z :: zs => if x = z ∧ y = z then shared xs ys zs + 1 else 0
  | _, _, _ => 0

/-- The pieces of the walk; an empty piece is left out. -/
def walk (left right along : List String) : List Change :=
  let n := shared left right along
  let along' := along.drop n
  let differs := fun w => along'.head? != some w
  let removed := (left.drop n).takeWhile differs
  let added := (right.drop n).takeWhile differs
  let left' := (left.drop n).dropWhile differs
  let right' := (right.drop n).dropWhile differs
  let pieces :=
    (if n = 0 then [] else [Change.same (unwords (left.take n))])
      ++ (if removed.isEmpty then [] else [.removed (unwords removed)])
      ++ (if added.isEmpty then [] else [.added (unwords added)])
  if _h : left'.length + right'.length < left.length + right.length then
    pieces ++ walk left' right' along'
  else pieces
termination_by left.length + right.length
decreasing_by exact _h

end WordDiff

/-- The pieces by which `after` differs from `before`. -/
def wordDiff (before after : String) : List Change :=
  let common := WordDiff.unwords (WordDiff.common (WordDiff.words before) (WordDiff.words after))
  WordDiff.walk (WordDiff.wordsOrNone before) (WordDiff.wordsOrNone after)
    (WordDiff.wordsOrNone common)

end Sigil.Text
