import SolDeployer.Text.Blank
import SolDeployer.Text.Digit

/-!
# Integers in text

A lenient way to read an integer: blanks around it, a sign, the digits of
any script, and single underscores between digits. In base sixteen the
digits may follow `0x`. In base ten the number of digits is limited, for
reading and for writing, so that no document can ask for an unreasonable
amount of work.
-/

namespace SolDeployer.Text

def maxDecimalDigits : Nat := 4300

/-- Digits with at most one underscore between two of them. -/
def digitRun? (base : Nat) : List Char → Option (List Nat)
  | [] => none
  | [c] => (baseDigit? base c).map fun digit => [digit]
  | c :: d :: rest =>
    match baseDigit? base c with
    | none => none
    | some digit =>
      (if d = '_' then digitRun? base rest else digitRun? base (d :: rest)).map (digit :: ·)

/-- The number that digits stand for. -/
def ofDigits (base : Nat) (digits : List Nat) : Nat :=
  digits.foldl (fun total digit => total * base + digit) 0

/-- A blank that may stand around a number. -/
def isMargin (c : Char) : Bool := isPlainBlank c || (128 ≤ c.toNat && isBlank c)

/-- The text without the blanks around it. -/
def trimMargins (text : List Char) : List Char :=
  ((text.dropWhile isMargin).reverse.dropWhile isMargin).reverse

/-- The digits of a number in base sixteen, after `0x` if it is there. -/
def dropHexMark : List Char → List Char
  | a :: b :: rest =>
    if digitValue? a = some 0 ∧ (b = 'x' ∨ b = 'X') then
      match rest with
      | '_' :: digits => digits
      | digits => digits
    else a :: b :: rest
  | text => text

/-- A number without a sign. -/
def natural? (base : Nat) (text : List Char) : Option Nat :=
  match digitRun? base (if base = 16 then dropHexMark text else text) with
  | none => none
  | some digits =>
    if base = 10 ∧ maxDecimalDigits < digits.length then none else some (ofDigits base digits)

def integer? (base : Nat) (text : List Char) : Option Int :=
  match trimMargins text with
  | '+' :: rest => (natural? base rest).map Int.ofNat
  | '-' :: rest => (natural? base rest).map fun n => -Int.ofNat n
  | rest => (natural? base rest).map Int.ofNat

/-- An integer in base ten, if it has no more digits than allowed. -/
def decimal? (n : Int) : Option String :=
  if n.natAbs < Nat.pow 10 maxDecimalDigits then some (toString n) else none

end SolDeployer.Text
