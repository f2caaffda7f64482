/-!
# Decimal numbers with a fraction

A number with a fraction is held in 53 binary digits.  It is written with the fewest decimal digits
that read back as the same number; of several such decimals the nearest one is taken.

All of this is exact arithmetic on natural numbers: a decimal `digits · 10 ^ exponent` is rounded to
`mantissa · 2 ^ exponent`, to the nearest and from the middle to the even mantissa, and `shortest`
tries one digit, two digits and so on until a decimal reads back.
-/

namespace Sigil.Decimal

/-- The value `mantissa · 2 ^ exponent`. -/
structure Binary where
  mantissa : Nat
  exponent : Int
deriving DecidableEq, Repr

/-- `num / den` rounded to the nearest integer, from the middle to the even one. -/
def roundDiv (num den : Nat) : Nat :=
  let q := num / den
  let r := num % den
  if 2 * r < den then q
  else if den < 2 * r then q + 1
  else if q % 2 = 0 then q else q + 1

/-- `num / den` divided by `2 ^ e`, as a numerator and a denominator. -/
def scaled (num den : Nat) (e : Int) : Nat × Nat :=
  if 0 ≤ e then (num, den * Nat.pow 2 e.toNat) else (num * Nat.pow 2 (-e).toNat, den)

/-- The least exponent of a number. -/
def leastExponent : Int := -1074

/-- The greatest exponent of a number. -/
def greatestExponent : Int := 971

/-- `num / den` rounded to 53 binary digits; too great numbers have no value. -/
def ofRatio (num den : Nat) : Option Binary :=
  if num = 0 then some ⟨0, 0⟩
  else
    let guess : Int := (num.log2 : Int) - den.log2 - 52
    -- the guess may be one too high
    let low := scaled num den (guess - 1)
    let e := if low.1 / low.2 < Nat.pow 2 53 then guess - 1 else guess
    let e := max e leastExponent
    let (n, d) := scaled num den e
    let m := roundDiv n d
    let b : Binary := if m = Nat.pow 2 53 then ⟨Nat.pow 2 52, e + 1⟩ else ⟨m, e⟩
    if greatestExponent < b.exponent then none else some b

/-- `digits · 10 ^ exponent` as a ratio. -/
def ratio (digits : Nat) (exponent : Int) : Nat × Nat :=
  if 0 ≤ exponent then (digits * Nat.pow 10 exponent.toNat, 1)
  else (digits, Nat.pow 10 (-exponent).toNat)

/-- The number of decimal digits. -/
def digitCount (n : Nat) : Nat := (Nat.toDigits 10 n).length

/-- `digits · 10 ^ exponent` rounded to 53 binary digits. -/
def toBinary (digits : Nat) (exponent : Int) : Option Binary :=
  let size : Int := digitCount digits + exponent
  if digits = 0 || size < -400 then some ⟨0, 0⟩
  else if 400 < size then none
  else
    let (num, den) := ratio digits exponent
    ofRatio num den

/-- The value of a number as a ratio. -/
def Binary.ratio (b : Binary) : Nat × Nat :=
  if 0 ≤ b.exponent then (b.mantissa * Nat.pow 2 b.exponent.toNat, 1)
  else (b.mantissa, Nat.pow 2 (-b.exponent).toNat)

/-- The exponent `k` of the power of ten with `10 ^ (k - 1) ≤ num / den < 10 ^ k`. -/
def magnitude (num den : Nat) : Int :=
  if den ≤ num then digitCount (num / den)
  else 1 - (((List.range 400).find? fun k => decide (den ≤ num * Nat.pow 10 k)).getD 400 : Nat)

/-- Of the two decimals with a step of `10 ^ exponent` around a number, the one that reads back as
the number; the nearer one if both do, and from the middle the upper one. -/
def onGrid (b : Binary) (exponent : Int) : Option (Nat × Int) :=
  let (num, den) := b.ratio
  let (n, d) := if 0 ≤ exponent then (num, den * Nat.pow 10 exponent.toNat)
    else (num * Nat.pow 10 (-exponent).toNat, den)
  let below := n / d
  let readsBack := fun digits => toBinary digits exponent == some b
  let nearerBelow := decide (2 * (n % d) < d)
  match readsBack below, readsBack (below + 1) with
  | true, true => some (if nearerBelow then below else below + 1, exponent)
  | true, false => some (below, exponent)
  | false, true => some (below + 1, exponent)
  | false, false => none

/-- The shortest decimal that reads back as a number. -/
def shortest (b : Binary) : Nat × Int :=
  if b.mantissa = 0 then (0, 0)
  else
    let (num, den) := b.ratio
    let k := magnitude num den
    ((List.range 17).findSome? fun (i : Nat) => onGrid b (k - 1 - i)).getD (num / den, 0)

/-- `digits · 10 ^ exponent` written out.  Zeros at the end of the places are left out, but one
place stays. -/
def writtenOut (digits : Nat) (exponent : Int) : String :=
  let ds := Nat.toDigits 10 digits
  if 0 ≤ exponent then String.ofList (ds ++ List.replicate exponent.toNat '0') ++ ".0"
  else
    let places := (-exponent).toNat
    let ds := List.replicate (places + 1 - ds.length) '0' ++ ds
    let fraction := ((ds.drop (ds.length - places)).reverse.dropWhile (· == '0')).reverse
    String.ofList (ds.take (ds.length - places)) ++ "."
      ++ (if fraction.isEmpty then "0" else String.ofList fraction)

/-- A digit string as a number. -/
def ofDigits (ds : List Char) : Nat := ds.foldl (fun n c => 10 * n + (c.toNat - 48)) 0

/-- The exponent behind its letter. -/
def exponent? : List Char → Option Int
  | '-' :: ds => if !ds.isEmpty && ds.all Char.isDigit then some (-(ofDigits ds)) else none
  | '+' :: ds => if !ds.isEmpty && ds.all Char.isDigit then some (ofDigits ds) else none
  | ds => if !ds.isEmpty && ds.all Char.isDigit then some (ofDigits ds) else none

/-- The digits and the exponent of an unsigned decimal: digits with or without a point among or
around them, and an exponent if there is one. -/
def parts? (cs : List Char) : Option (Nat × Int) :=
  let whole := cs.takeWhile Char.isDigit
  let rest := cs.dropWhile Char.isDigit
  let (fraction, rest) := match rest with
    | '.' :: r => (r.takeWhile Char.isDigit, r.dropWhile Char.isDigit)
    | r => ([], r)
  if whole.isEmpty && fraction.isEmpty then none
  else
    let digits := ofDigits (whole ++ fraction)
    let scale : Int := -fraction.length
    match rest with
    | [] => some (digits, scale)
    | e :: r =>
      if e = 'e' ∨ e = 'E' then (exponent? r).map fun x => (digits, scale + x) else none

/-- The shortest text of the number that a decimal text stands for, if it stands for one. -/
def normalised? (text : String) : Option String :=
  let (sign, cs) := match text.toList with
    | '-' :: r => ("-", r)
    | '+' :: r => ("", r)
    | r => ("", r)
  do
    let (digits, exponent) ← parts? cs
    let b ← toBinary digits exponent
    let (digits, exponent) := shortest b
    return sign ++ writtenOut digits exponent

end Sigil.Decimal
