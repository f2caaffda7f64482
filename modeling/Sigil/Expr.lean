import Sigil.Text.Quoted

/-!
# Expressions

What a directive reads, expands, evaluates and renders: atoms, strings and lists of expressions.
Expressions carry no positions, so two of them are equal exactly when they have the same shape and
the same contents.  `Expr.printed` is the form that reads back.
-/

namespace Sigil

/-- An expression. -/
inductive Expr where
  | atom (name : String)
  | str (text : String)
  | list (items : List Expr)
deriving Repr, Inhabited

namespace Expr

/-! ## Equality -/

mutual

/-- Equality of expressions is decided by their shape. -/
def decEq : (a b : Expr) → Decidable (a = b)
  | .atom m, .atom n =>
    if h : m = n then .isTrue (by rw [h]) else .isFalse fun e => h (Expr.atom.inj e)
  | .str s, .str t =>
    if h : s = t then .isTrue (by rw [h]) else .isFalse fun e => h (Expr.str.inj e)
  | .list xs, .list ys =>
    match decEqList xs ys with
    | .isTrue h => .isTrue (by rw [h])
    | .isFalse h => .isFalse fun e => h (Expr.list.inj e)
  | .atom _, .str _ => .isFalse nofun
  | .atom _, .list _ => .isFalse nofun
  | .str _, .atom _ => .isFalse nofun
  | .str _, .list _ => .isFalse nofun
  | .list _, .atom _ => .isFalse nofun
  | .list _, .str _ => .isFalse nofun

/-- Equality of lists of expressions, element by element. -/
def decEqList : (xs ys : List Expr) → Decidable (xs = ys)
  | [], [] => .isTrue rfl
  | [], _ :: _ => .isFalse nofun
  | _ :: _, [] => .isFalse nofun
  | x :: xs, y :: ys =>
    match decEq x y with
    | .isFalse h => .isFalse fun e => h (List.cons.inj e).1
    | .isTrue h =>
      match decEqList xs ys with
      | .isTrue hs => .isTrue (by rw [h, hs])
      | .isFalse hs => .isFalse fun e => hs (List.cons.inj e).2

end

instance : DecidableEq Expr := decEq

/-! ## Induction -/

/-- Induction over expressions, with the hypothesis for every element of a list. -/
@[elab_as_elim]
theorem induct {P : Expr → Prop} (atom : ∀ name, P (.atom name)) (str : ∀ text, P (.str text))
    (list : ∀ items, (∀ e ∈ items, P e) → P (.list items)) : ∀ e, P e
  | .atom name => atom name
  | .str text => str text
  | .list items => list items fun e _ => induct atom str list e
termination_by e => sizeOf e

/-! ## Parts -/

/-- The conventional empty value. -/
def nil : Expr := .atom "nil"

/-- `(quote e)`. -/
def quoted (e : Expr) : Expr := .list [.atom "quote", e]

/-- The name at the head of a list: what is called if the list is a call. -/
def head? : Expr → Option String
  | .list (.atom name :: _) => some name
  | _ => none

/-- The elements of a list behind its head. -/
def arguments : Expr → List Expr
  | .list (_ :: rest) => rest
  | _ => []

/-- The name of an atom. -/
def name? : Expr → Option String
  | .atom name => some name
  | _ => none

/-- The elements of a list. -/
def items? : Expr → Option (List Expr)
  | .list items => some items
  | _ => none

/-- The word for the shape of an expression. -/
def shape : Expr → String
  | .atom _ => "atom"
  | .str _ => "string"
  | .list _ => "list"

/-! ## Printed form -/

mutual

/-- The form that reads back as the same expression. -/
def printed : Expr → String
  | .atom name => name
  | .str text => Text.Quoted.literal text
  | .list [] => "()"
  | .list (e :: es) => "(" ++ e.printed ++ printedRest es

/-- The elements of a list behind its first one, and the closing parenthesis. -/
def printedRest : List Expr → String
  | [] => ")"
  | e :: es => " " ++ e.printed ++ printedRest es

end

instance : ToString Expr := ⟨printed⟩

end Expr

end Sigil
