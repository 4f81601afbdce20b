import SolDeployer.Binary64

/-!
# The shortest decimal of a number

Among the decimals that read back as a given binary64 number, those with
the fewest digits are the shortest, and of these the nearest to the
number is its text. If a decimal of so many digits reads back, so does
one of the number's two neighbours on that decimal grid, so it is enough
to try both neighbours on the grids of one digit, two digits, and so on
to seventeen.
-/

namespace SolDeployer.Binary64

-- the plain ones, whatever other instances are around
attribute [local instance(high)] instPowNat

/-! ## The decimal -/

/-- The power of ten below or at a positive quotient, found from a guess
that is not too large. -/
def log10From (num den : Nat) : (steps : Nat) → Int → Int
  | 0, guess => guess
  | steps + 1, guess =>
    let next := guess + 1
    let reached :=
      if 0 ≤ next then decide (den * 10 ^ next.toNat ≤ num)
      else decide (den ≤ num * 10 ^ (-next).toNat)
    if reached then log10From num den steps next else guess

/-- The power of ten below or at a positive quotient. -/
def quotientLog10 (num den : Nat) : Int :=
  log10From num den 4 ((quotientLog2 num den) * 30103 / 100000 - 2)

/-- The reals between two quotients over one denominator, all that round
to a number; the ends belong to them if the mantissa is even. -/
structure Rounding where
  low : Nat
  value : Nat
  high : Nat
  den : Nat
  closed : Bool

/-- The reals that round to a positive number. -/
def rounding (mantissa : Nat) (exponent : Int) : Rounding :=
  let below := if mantissa = 2 ^ (52 : Nat) ∧ -1074 < exponent then 1 else 2
  let up := 2 ^ exponent.toNat
  { low := (4 * mantissa - below) * up
    value := 4 * mantissa * up
    high := (4 * mantissa + 2) * up
    den := 4 * 2 ^ (-exponent).toNat
    closed := mantissa % 2 == 0 }

namespace Rounding

/-- Does `digits * 10 ^ power` round to the number? -/
def admits (r : Rounding) (digits : Nat) (power : Int) : Bool :=
  let num := digits * 10 ^ power.toNat * r.den
  let scale := 10 ^ (-power).toNat
  if r.closed then decide (r.low * scale ≤ num ∧ num ≤ r.high * scale)
  else decide (r.low * scale < num ∧ num < r.high * scale)

/-- The whole number of steps `10 ^ power` below the number, and how the
distance to it compares with half a step. -/
def stepsBelow (r : Rounding) (power : Int) : Nat × Ordering :=
  let num := r.value * 10 ^ (-power).toNat
  let den := r.den * 10 ^ power.toNat
  (num / den, compare (2 * (num % den)) den)

/-- The neighbour of the number on the grid of `10 ^ power` that reads
back, the nearer one if both do and the even one if they are as near. -/
def neighbour? (r : Rounding) (power : Int) : Option Nat :=
  let (down, distance) := r.stepsBelow power
  match r.admits down power, r.admits (down + 1) power with
  | true, true =>
    match distance with
    | .lt => some down
    | .gt => some (down + 1)
    | .eq => some (down + down % 2)
  | true, false => some down
  | false, true => some (down + 1)
  | false, false => none

/-- The first grid, of `count` digits or more, with a neighbour that reads
back. -/
def search (r : Rounding) (top : Int) : (tries : Nat) → (count : Nat) → Nat × Int
  | 0, _ => (0, 0)
  | tries + 1, count =>
    let power := top - count + 1
    match r.neighbour? power with
    | some digits => (digits, power)
    | none => r.search top tries (count + 1)

end Rounding

/-- The digits and the power of ten of the shortest decimal. -/
def shortest (mantissa : Nat) (exponent : Int) : Nat × Int :=
  let r := rounding mantissa exponent
  r.search (quotientLog10 r.value r.den) 17 1

/-! ## The text -/

/-- The text of a power of ten: a sign and two digits at least. -/
def exponentText (power : Int) : List Char :=
  let digits := Nat.toDigits 10 power.natAbs
  'e' :: (if power < 0 then '-' else '+') :: (if digits.length < 2 then '0' :: digits else digits)

/-- The text of a positive decimal: positional from `0.0001` to below
`10 ^ 16`, with a power of ten otherwise; a whole number has `.0`. -/
def decimalText (digits : Nat) (power : Int) : List Char :=
  let all := Nat.toDigits 10 digits
  let shown := (all.reverse.dropWhile (· = '0')).reverse
  let point : Int := all.length + power
  if -4 < point ∧ point ≤ 16 then
    if point ≤ 0 then '0' :: '.' :: List.replicate (-point).toNat '0' ++ shown
    else if shown.length ≤ point.toNat then
      shown ++ List.replicate (point.toNat - shown.length) '0' ++ ['.', '0']
    else shown.take point.toNat ++ '.' :: shown.drop point.toNat
  else
    match shown with
    | first :: second :: rest => first :: '.' :: second :: rest ++ exponentText (point - 1)
    | single => single ++ exponentText (point - 1)

def text : Binary64 → List Char
  | .nan => ['n', 'a', 'n']
  | .infinite negative => (if negative then ['-'] else []) ++ ['i', 'n', 'f']
  | .finite negative mantissa exponent =>
    (if negative then ['-'] else []) ++
      if mantissa = 0 then ['0', '.', '0']
      else
        let (digits, power) := shortest mantissa exponent
        decimalText digits power

end SolDeployer.Binary64
