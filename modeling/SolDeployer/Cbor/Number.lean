import SolDeployer.Cbor.Decimal

/-!
# Numbers by value

One number may be written as an integer, as a floating point number, as a
decimal or as a fraction. To compare numbers they are brought to a form
that each value has once: the powers of two and of five are split off, so
that a decimal with a huge exponent stays small, and what is left is a
fraction in lowest terms.
-/

namespace SolDeployer.Cbor

/-- A number by its value. A finite one other than zero is
`± 2 ^ twos * 5 ^ fives * num / den`, where `num` and `den` have no factor
in common and none of two and five. -/
inductive Number where
  | nan
  | infinite (negative : Bool)
  | zero
  | finite (negative : Bool) (twos fives : Int) (num den : Nat)
  deriving Repr, DecidableEq, Inhabited

namespace Number

/-! ## The form of a value -/

/-- How often a number has a factor, and what is left without it. Squares
of the factor go first, so there are few steps; `fuel` bounds them. -/
def splitFactor (p : Nat) : (fuel : Nat) → Nat → Nat × Nat
  | 0, n => (0, n)
  | fuel + 1, n =>
    if n % p ≠ 0 then (0, n)
    else
      let (count, rest) := splitFactor (p * p) fuel n
      if rest % p = 0 then (2 * count + 1, rest / p) else (2 * count, rest)

/-- How often a number has a factor, and what is left without it. -/
def split (p n : Nat) : Nat × Nat := splitFactor p (Nat.log2 n + 1) n

/-- The number `± 2 ^ twos * 5 ^ fives * num / den`. -/
def ofParts (negative : Bool) (num den : Nat) (twos fives : Int) : Number :=
  if num = 0 then .zero
  else
    let common := Nat.gcd num den
    let (numTwos, num) := split 2 (num / common)
    let (numFives, num) := split 5 num
    let (denTwos, den) := split 2 (den / common)
    let (denFives, den) := split 5 den
    .finite negative (twos + numTwos - denTwos) (fives + numFives - denFives) num den

/-- An integer. -/
def ofInt (value : Int) : Number := ofParts (value < 0) value.natAbs 1 0 0

/-- A fraction. The denominator is not zero. -/
def ofRatio (num den : Int) : Number :=
  ofParts (decide (num < 0) != decide (den < 0)) num.natAbs den.natAbs 0 0

def ofDecimal : Decimal → Number
  | .finite negative digits exponent => ofParts negative digits 1 exponent exponent
  | .infinite negative => .infinite negative
  | .nan => .nan

/-- A floating point number. -/
def ofBinary64 : Binary64 → Number
  | .finite negative mantissa exponent => ofParts negative mantissa 1 exponent 0
  | .infinite negative => .infinite negative
  | .nan => .nan

/-! ## Views -/

/-- Are two numbers equal? What is not a number is equal to none. -/
def same (a b : Number) : Bool := a != .nan && a == b

end Number

end SolDeployer.Cbor
