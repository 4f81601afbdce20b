/-!
# Numbers of the binary64 format

A floating point number as exact data: a sign, a whole mantissa and a
power of two. Reading a decimal rounds to the nearest number of the
format, a half to the even mantissa, and all arithmetic on the way is on
natural numbers.
-/

namespace SolDeployer

-- the plain ones, whatever other instances are around
attribute [local instance(high)] instPowNat

/-- A number of the binary64 format. A finite one is
`± mantissa * 2 ^ exponent`, with `mantissa < 2 ^ 53` and
`-1074 ≤ exponent ≤ 971`. -/
inductive Binary64 where
  | finite (negative : Bool) (mantissa : Nat) (exponent : Int)
  | infinite (negative : Bool)
  | nan
  deriving Repr, DecidableEq

namespace Binary64

/-! ## Rounding -/

/-- The quotient rounded to the nearest whole number, a half to the even
one. -/
def roundedQuotient (num den : Nat) : Nat :=
  let quotient := num / den
  let twice := 2 * (num % den)
  if twice < den then quotient
  else if den < twice then quotient + 1
  else quotient + quotient % 2

/-- The power of two below or at a positive quotient. -/
def quotientLog2 (num den : Nat) : Int :=
  let guess : Int := (Nat.log2 num : Int) - (Nat.log2 den : Int)
  let atLeast :=
    if 0 ≤ guess then decide (den * 2 ^ guess.toNat ≤ num)
    else decide (den ≤ num * 2 ^ (-guess).toNat)
  if atLeast then guess else guess - 1

/-- The number nearest to a quotient of natural numbers. -/
def ofQuotient (negative : Bool) (num den : Nat) : Binary64 :=
  if num = 0 then .finite negative 0 (-1074)
  else
    let exponent := max (quotientLog2 num den - 52) (-1074)
    let mantissa :=
      if 0 ≤ exponent then roundedQuotient num (den * 2 ^ exponent.toNat)
      else roundedQuotient (num * 2 ^ (-exponent).toNat) den
    if mantissa = 2 ^ (53 : Nat) then
      if exponent + 1 ≤ 971 then .finite negative (2 ^ (52 : Nat)) (exponent + 1)
      else .infinite negative
    else if exponent ≤ 971 then .finite negative mantissa exponent
    else .infinite negative

/-- How many digits a number has in base ten. The power of two gives the
length up to two digits. -/
def decimalLength (n : Nat) : Nat :=
  let guess := Nat.log2 n * 30103 / 100000
  if n < 10 ^ guess then guess
  else if n < 10 ^ (guess + 1) then guess + 1
  else guess + 2

/-- The number nearest to `± digits * 10 ^ exponent`. A power far outside
the range of the format is not computed. -/
def ofDecimal (negative : Bool) (digits : Nat) (exponent : Int) : Binary64 :=
  let magnitude := exponent + decimalLength digits
  if digits = 0 ∨ magnitude < -330 then .finite negative 0 (-1074)
  else if 330 < magnitude then .infinite negative
  else if 0 ≤ exponent then ofQuotient negative (digits * 10 ^ exponent.toNat) 1
  else ofQuotient negative digits (10 ^ (-exponent).toNat)

/-! ## Words -/

/-- The number a word stands for, in a format with so many bits of
exponent and of fraction. -/
def ofFields (exponentBits fractionBits : Nat) (word : Nat) : Binary64 :=
  let fraction := word % 2 ^ fractionBits
  let biased := word / 2 ^ fractionBits % 2 ^ exponentBits
  let negative := word / 2 ^ (fractionBits + exponentBits) % 2 == 1
  let least : Int := 2 - 2 ^ (exponentBits - 1) - fractionBits
  if biased = 2 ^ exponentBits - 1 then
    if fraction = 0 then .infinite negative else .nan
  else
    let (mantissa, exponent) : Nat × Int :=
      if biased = 0 then (fraction, least)
      else (fraction + 2 ^ fractionBits, least + (biased - 1 : Nat))
    if 0 ≤ exponent then ofQuotient negative (mantissa * 2 ^ exponent.toNat) 1
    else ofQuotient negative mantissa (2 ^ (-exponent).toNat)

/-! ## Views -/

def isZero : Binary64 → Bool
  | .finite _ mantissa _ => mantissa == 0
  | _ => false

/-- The whole part of a finite number. -/
def truncate? : Binary64 → Option Int
  | .finite negative mantissa exponent =>
    let size : Nat :=
      if 0 ≤ exponent then mantissa * 2 ^ exponent.toNat else mantissa / 2 ^ (-exponent).toNat
    some (if negative then -(size : Int) else size)
  | _ => none

/-- The integer a number is equal to. -/
def toInt? : Binary64 → Option Int
  | .finite negative mantissa exponent =>
    if 0 ≤ exponent ∨ mantissa % 2 ^ (-exponent).toNat = 0 then
      truncate? (.finite negative mantissa exponent)
    else none
  | _ => none

end Binary64

end SolDeployer
