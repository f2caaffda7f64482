import Sigil.Decimal
import Sigil.Text.Unprintable

/-!
# What a plain scalar stands for

A scalar without quotes can be nothing, a truth value or a number; all else is text.  Integers may
be written in bases ten, sixteen, eight and two.  Digits behind a leading zero are text, and so are
digits with other marks between them.
-/

namespace Sigil.Yaml

/-- What a scalar stands for. -/
inductive Value where
  | unit
  | bool (b : Bool)
  | int (n : Int)
  /-- A number with a fraction, by its shortest text. -/
  | decimal (text : String)
  | text (s : String)
deriving DecidableEq, Repr

namespace Value

/-! ## Numbers -/

/-- The value of a digit. -/
def digit? (c : Char) : Option Nat :=
  if '0' ≤ c ∧ c ≤ '9' then some (c.toNat - 48)
  else if 'a' ≤ c ∧ c ≤ 'z' then some (c.toNat - 87)
  else if 'A' ≤ c ∧ c ≤ 'Z' then some (c.toNat - 55)
  else none

/-- The digits of a number in some base. -/
def ofDigits? (base : Nat) (ds : List Char) : Option Nat :=
  if ds.isEmpty then none
  else ds.foldlM (fun n c => do
    let d ← digit? c
    if d < base then some (n * base + d) else none) 0

/-- Digits with a leading zero. -/
def hasLeadingZero : List Char → Bool
  | '0' :: c :: r => (c :: r).all Char.isDigit
  | _ => false

/-- A magnitude in one of the four bases. -/
def magnitude? (cs : List Char) : Option Nat :=
  match cs with
  | '0' :: 'x' :: ds => ofDigits? 16 ds
  | '0' :: 'o' :: ds => ofDigits? 8 ds
  | '0' :: 'b' :: ds => ofDigits? 2 ds
  | ds => if hasLeadingZero ds then none else ofDigits? 10 ds

/-- The integers that are kept: 128 binary digits, without or with a sign. -/
def kept (n : Int) : Option Int :=
  if -(1 <<< 127 : Nat) ≤ n ∧ n < (1 <<< 128 : Nat) then some n else none

/-- An integer with or without a sign. -/
def int? (cs : List Char) : Option Int :=
  match cs with
  | '+' :: ds => (magnitude? ds).bind fun n => kept n
  | '-' :: ds => (magnitude? ds).bind fun n => kept (-n)
  | ds => (magnitude? ds).bind fun n => kept n

/-- A number that is no integer, by its shortest text. -/
def decimal? (text : String) : Option String :=
  match text with
  | ".inf" | ".Inf" | ".INF" | "+.inf" | "+.Inf" | "+.INF" => some "inf"
  | "-.inf" | "-.Inf" | "-.INF" => some "-inf"
  | ".nan" | ".NaN" | ".NAN" => some "NaN"
  | text =>
    let digits := match text.toList with
      | '+' :: r => r
      | '-' :: r => r
      | r => r
    if hasLeadingZero digits then none else Decimal.normalised? text

/-! ## Scalars -/

/-- What a scalar without quotes stands for. -/
def ofPlain (text : String) : Value :=
  if text = "" ∨ text = "~" ∨ text = "null" ∨ text = "Null" ∨ text = "NULL" then .unit
  else if text = "true" ∨ text = "True" ∨ text = "TRUE" then .bool true
  else if text = "false" ∨ text = "False" ∨ text = "FALSE" then .bool false
  else
    match int? text.toList with
    | some n => .int n
    | none =>
      match decimal? text with
      | some d => .decimal d
      | none => .text text

/-- What a scalar stands for. -/
def ofScalar (text : String) (plain : Bool) : Value := if plain then ofPlain text else .text text

/-- The value in words. -/
def described : Value → String
  | .unit => "unit value"
  | .bool b => "boolean `" ++ (if b then "true" else "false") ++ "`"
  | .int n =>
    "integer `" ++ s!"{n}" ++ "`"
      ++ (if n < -(1 <<< 63 : Nat) then " as i128"
        else if (1 <<< 64 : Nat) ≤ n then " as u128" else "")
  | .decimal shortest => "floating point `" ++ shortest ++ "`"
  | .text s => "string " ++ Text.escaped s

end Value

end Sigil.Yaml
