import SolDeployer.Binary64
import SolDeployer.Text.Blank
import SolDeployer.Text.Integer

/-!
# Decimals

A decimal is kept as its digits and a power of ten, so that two decimals
of one value may have different digits. Every integer, every floating
point number and every text that spells a number is a decimal.
-/

namespace SolDeployer.Cbor

-- the plain ones, whatever other instances are around
attribute [local instance(high)] instPowNat

/-- A decimal. A finite one is `± digits * 10 ^ exponent`. -/
inductive Decimal where
  | finite (negative : Bool) (digits : Nat) (exponent : Int)
  | infinite (negative : Bool)
  | nan
  deriving Repr, DecidableEq, Inhabited

namespace Decimal

/-- The largest power of ten of a leading digit. -/
def maxExponent : Int := 999999999999999999

/-- The least power of ten of a last digit. -/
def minExponent : Int := -1999999999999999997

/-- Digits and a power of ten, if the power is within the limits. -/
def ofDigits? (negative : Bool) (digits : Nat) (exponent : Int) : Option Decimal :=
  let leading := exponent + (Binary64.decimalLength digits - 1 : Nat)
  if minExponent ≤ exponent ∧ leading ≤ maxExponent then some (.finite negative digits exponent)
  else none

/-- An integer. -/
def ofInt (value : Int) : Decimal := .finite (value < 0) value.natAbs 0

/-- A floating point number, with all its digits. -/
def ofBinary64 : Binary64 → Decimal
  | .finite negative mantissa exponent =>
    if 0 ≤ exponent then .finite negative (mantissa * 2 ^ exponent.toNat) 0
    else
      let places := (-exponent).toNat
      let common := Nat.gcd mantissa (2 ^ places)
      let places := places - Nat.log2 common
      .finite negative (mantissa / common * 5 ^ places) (-(places : Int))
  | .infinite negative => .infinite negative
  | .nan => .nan

/-! ## Arithmetic -/

/-- How many digits the result of an operation keeps. -/
def precision : Nat := 28

/-- The largest power of ten of the leading digit of a result. -/
def maxResultExponent : Int := 999999

/-- The least power of ten of the last digit of a result. -/
def minResultExponent : Int := -1000026

/-- Drop digits at the end and round to the nearest decimal, a half to the
even one. -/
def dropDigits (digits : Nat) (exponent : Int) (count : Nat) : Nat × Int :=
  (Binary64.roundedQuotient digits (10 ^ count), exponent + count)

/-- The result of an operation, from its exact value: `none` if it is too
large. -/
def result? (negative : Bool) (digits : Nat) (exponent : Int) : Option Decimal :=
  let length := Binary64.decimalLength digits
  let (digits, exponent) := dropDigits digits exponent
    (max (length - precision) (minResultExponent - exponent).toNat)
  let leading := exponent + (Binary64.decimalLength digits - 1 : Nat)
  if digits ≠ 0 ∧ maxResultExponent < leading then none
  else some (.finite negative digits exponent)

/-- A power of two: `none` if it is too large. A power far outside the
range is not computed. -/
def powerOfTwo? (exponent : Int) : Option Decimal :=
  if 4000000 < exponent then none
  else if exponent < -4000000 then some (.finite false 0 minResultExponent)
  else if 0 ≤ exponent then result? false (2 ^ exponent.toNat) 0
  else result? false (5 ^ (-exponent).toNat) exponent

/-- The product of two decimals, if it is a decimal. -/
def mul? : Decimal → Decimal → Option Decimal
  | .finite s m e, .finite t n f => result? (s != t) (m * n) (e + f)
  | .nan, _ | _, .nan => some .nan
  | .infinite s, .finite t n _ | .finite t n _, .infinite s =>
    if n = 0 then none else some (.infinite (s != t))
  | .infinite s, .infinite t => some (.infinite (s != t))

/-- The integer that a decimal is, if it is one and not huge. -/
def toInt? : Decimal → Option Int
  | .finite negative digits exponent =>
    let signed := fun (size : Nat) => if negative then -(size : Int) else (size : Int)
    if 0 ≤ exponent then
      if exponent ≤ 100 then some (signed (digits * 10 ^ exponent.toNat)) else none
    else if exponent < -100 then none
    else
      let scale := 10 ^ (-exponent).toNat
      if digits % scale = 0 then some (signed (digits / scale)) else none
  | _ => none

/-! ## Text -/

/-- The characters of a number: without blanks around it and underscores,
with the digits of every script as plain ones. -/
def plainCharacters (text : List Char) : List Char :=
  let trimmed := ((text.dropWhile Text.isBlank).reverse.dropWhile Text.isBlank).reverse
  (trimmed.filter (· != '_')).map fun c =>
    match Text.digitValue? c with
    | some digit => Char.ofNat (48 + digit)
    | none => c

def lowered (text : List Char) : List Char := text.map Char.toLower

/-- The power of ten after the digits, zero if there is none. -/
def power? : List Char → Option Int
  | [] => some 0
  | e :: rest =>
    if e ≠ 'e' ∧ e ≠ 'E' then none
    else
      let (negative, digits) := match rest with
        | '-' :: digits => (true, digits)
        | '+' :: digits => (false, digits)
        | digits => (false, digits)
      if digits.isEmpty ∨ !digits.all Char.isDigit then none
      else
        let size : Int := Text.ofDigits 10 (digits.map fun c => c.toNat - 48)
        some (if negative then -size else size)

/-- A number without a sign. -/
def unsigned? (negative : Bool) (text : List Char) : Option Decimal :=
  let word := String.ofList (lowered text)
  if word == "inf" || word == "infinity" then some (.infinite negative)
  else if (lowered text).take 3 == ['n', 'a', 'n'] then
    if (text.drop 3).all Char.isDigit then some .nan else none
  else
    let whole := text.takeWhile Char.isDigit
    let (places, rest) := match text.dropWhile Char.isDigit with
      | '.' :: rest => (rest.takeWhile Char.isDigit, rest.dropWhile Char.isDigit)
      | rest => ([], rest)
    if whole.isEmpty && places.isEmpty then none
    else
      match power? rest with
      | none => none
      | some power =>
        let digits := Text.ofDigits 10 ((whole ++ places).map fun c => c.toNat - 48)
        ofDigits? negative digits (power - places.length)

/-- The number that a text spells. -/
def ofText? (text : List Char) : Option Decimal :=
  match plainCharacters text with
  | '+' :: rest => unsigned? false rest
  | '-' :: rest => unsigned? true rest
  | rest => unsigned? false rest

end Decimal

end SolDeployer.Cbor
