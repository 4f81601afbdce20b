import SolDeployer.Cbor
import SolDeployer.Cbor.Moment
import SolDeployer.Cbor.Pattern

/-!
# What marks mean

A mark before an item gives it a meaning: a large integer, a fraction, a
moment, a set, an address. What does not fit its mark makes no sense. A
meaning that may be written under several marks is kept under one.
-/

namespace SolDeployer.Cbor

-- the plain ones, whatever other instances are around
attribute [local instance(high)] instPowNat

namespace Tag

/-- The mark that moments are kept under. -/
def moment : Nat := 1

/-- The mark that days are kept under. -/
def day : Nat := 100

/-- The mark that expressions are kept under. -/
def pattern : Nat := 35

/-- The mark that universal identifiers are kept under. -/
def identifier : Nat := 37

/-- The marks that addresses and networks of the two kinds are kept under,
with the number of bytes of an address. -/
def shortAddress : Nat × Nat := (52, 4)

/-- The mark and the number of bytes of the longer kind of address. -/
def longAddress : Nat × Nat := (54, 16)

/-- The mark of addresses of any kind. -/
def address : Nat := 260

end Tag

/-! ## Numbers -/

/-- The number that some bytes stand for. -/
def natOfBytes (bytes : List UInt8) : Nat :=
  bytes.foldl (fun total b => total * 256 + b.toNat) 0

/-- The decimal that a value is, or that a text spells. -/
def decimal? : Cbor → Option Decimal
  | .int value => some (.ofInt value)
  | .bool value => some (.ofInt (if value then 1 else 0))
  | .float value => some (.ofBinary64 value)
  | .decimal value => some value
  | .text value => Decimal.ofText? value.toList
  | _ => none

/-- The floating point number nearest to a value. -/
def float? : Cbor → Option Binary64
  | .float value => some value
  | .int value => finite? (.ofQuotient (value < 0) value.natAbs 1)
  | .bool value => some (.ofQuotient false (if value then 1 else 0) 1)
  | .decimal (.finite negative digits exponent) => some (.ofDecimal negative digits exponent)
  | .decimal (.infinite negative) => some (.infinite negative)
  | .decimal .nan => some .nan
  | .ratio num den =>
    finite? (.ofQuotient (decide (num < 0) != decide (den < 0)) num.natAbs den.natAbs)
  | _ => none
where
  /-- A number that did not become infinite. -/
  finite? : Binary64 → Option Binary64
    | .infinite _ => none
    | value => some value

/-- The numerator and the denominator of a fraction. -/
def ratio? : Cbor → Option (Int × Int)
  | .ratio num den => some (num, den)
  | value => (int? value).map fun n => (n, 1)

/-- A power of ten and the digits that it goes with. -/
def decimalFraction? (exponent digits : Cbor) : Option Cbor := do
  let exponent ← int? exponent
  match ← decimal? digits with
  | .finite negative digits _ => (Decimal.ofDigits? negative digits exponent).map .decimal
  | .infinite negative => (Decimal.ofDigits? negative 0 exponent).map .decimal
  | .nan => (Decimal.ofDigits? false 0 exponent).map .decimal

/-- A power of two and the number that it goes with. -/
def binaryFraction? (exponent digits : Cbor) : Option Cbor := do
  let power ← (← decimal? exponent).toInt?
  return .decimal (← (← decimal? digits).mul? (← Decimal.powerOfTwo? power))

/-- One fraction divided by another. -/
def quotient? (num den : Cbor) : Option Cbor := do
  let (a, b) ← ratio? num
  let (c, d) ← ratio? den
  if c = 0 then none else return .ratio (a * d) (b * c)

/-! ## Sets -/

/-- The items of a list without those that are equal to an earlier one. -/
def distinct (items : List Cbor) : List Cbor :=
  (Entries.ofList (items.map fun item => (item, ()))).keys

/-- What a set may be made of. -/
def elements? : Cbor → Option (List Cbor)
  | .array items | .set items => some items
  | .text value => some (value.toList.map fun c => .text (String.singleton c))
  | .bytes value => some (value.map fun b => .int b.toNat)
  | .map entries => some (entries.map Prod.fst)
  | _ => none

/-! ## Addresses -/

/-- An address: as many bytes as its kind has. -/
def address? (kind : Nat × Nat) : Cbor → Option Cbor
  | .bytes value => if value.length = kind.2 then some (.tagged kind.1 (.bytes value)) else none
  | _ => none

/-- The network of the addresses that begin with the same bits as one. -/
def network? (kind : Nat × Nat) (bits : Cbor) (address : Nat) : Option Cbor := do
  let width := 8 * kind.2
  let bits ← int? bits
  if bits < 0 ∨ width < bits ∨ 256 ^ kind.2 ≤ address then none
  else
    let rest := 2 ^ (width - bits.toNat)
    return .tagged kind.1 (.array [.int bits, .int (address / rest * rest : Nat)])

/-- An address, a network whose bytes may end early, or an address in a
network. -/
def addressing? (kind : Nat × Nat) : Cbor → Option Cbor
  | .array [.bytes value, bits] => do
    discard (address? kind (.bytes value))
    discard (network? kind bits (natOfBytes value))
    return .tagged kind.1 (.array [.bytes value, bits])
  | .array [bits, .bytes value] =>
    if kind.2 < value.length then none
    else network? kind bits (natOfBytes value * 256 ^ (kind.2 - value.length))
  | value => address? kind value

/-- An address of any kind. Six bytes are one of a device. -/
def anyAddress? : Cbor → Option Cbor
  | .bytes value =>
    if value.length = 6 then some (.tagged Tag.address (.bytes value))
    else (address? Tag.shortAddress (.bytes value)).or (address? Tag.longAddress (.bytes value))
  | _ => none

/-- A network by one of its addresses and the number of its bits. -/
def anyNetwork? : Cbor → Option Cbor
  | .map [(.bytes value, bits)] =>
    let kind := if value.length = Tag.shortAddress.2 then Tag.shortAddress else Tag.longAddress
    if value.length = kind.2 then network? kind bits (natOfBytes value) else none
  | .map [(.int value, bits)] =>
    if value < 0 then none
    else (network? Tag.shortAddress bits value.toNat).or (network? Tag.longAddress bits value.toNat)
  | _ => none

/-! ## All marks -/

/-- Is it a mark with a meaning of its own? -/
def isKnown (tag : Nat) : Bool :=
  [0, 1, 2, 3, 4, 5, 30, 35, 36, 37, 52, 54, 100, 258, 260, 261, 1004, 43000, 55799].contains tag

/-- The value of an item with a mark before it: `none` if the mark has a
meaning that the item does not fit. -/
def meaning? (tag : Nat) (content : Cbor) : Option Cbor :=
  match tag, content with
  | 0, .text value => (Moment.ofText? value.toList).map fun n => .tagged Tag.moment (.int n)
  | 1, .float value => (Moment.ofBinary64? value).map fun n => .tagged Tag.moment (.int n)
  | 1, value => ((int? value).bind Moment.ofSeconds?).map fun n => .tagged Tag.moment (.int n)
  | 2, .bytes value => some (.int (natOfBytes value))
  | 3, .bytes value => some (.int (-1 - (natOfBytes value : Int)))
  | 4, .array [exponent, digits] => decimalFraction? exponent digits
  | 5, .array [exponent, digits] => binaryFraction? exponent digits
  | 30, .array [num, den] => quotient? num den
  | 35, .text value =>
    if Pattern.isValid true value.toList then some (.tagged Tag.pattern (.text value)) else none
  | 35, .bytes value =>
    if Pattern.isValid false (value.map fun b => Char.ofNat b.toNat) then
      some (.tagged Tag.pattern (.bytes value))
    else none
  | 36, .text _ => some .message
  | 37, .bytes value =>
    if value.length = 16 then some (.tagged Tag.identifier (.bytes value)) else none
  | 52, value => addressing? Tag.shortAddress value
  | 54, value => addressing? Tag.longAddress value
  | 100, value =>
    (int? value).bind fun n =>
      if Calendar.hasDay n then some (.tagged Tag.day (.int n)) else none
  | 258, value => (elements? value).map fun items => .set (distinct items)
  | 260, value => anyAddress? value
  | 261, value => anyNetwork? value
  | 1004, .text value =>
    (Moment.dayOfText? value.toList).map fun n => .tagged Tag.day (.int n)
  | 43000, .array [re, im] => do return .complex (← float? re) (← float? im)
  | 55799, value => some value
  | tag, value => if isKnown tag then none else some (.tagged tag value)

end SolDeployer.Cbor
