import SolDeployer.Text.Blank

/-!
# Bytes in base sixteen

Two digits a byte, in either case. Text that people write may begin with
`0x`; text that is cut out of a bytecode may have blanks between two
bytes.
-/

namespace SolDeployer.Hex

def digit? (c : Char) : Option Nat :=
  if 48 ≤ c.toNat ∧ c.toNat ≤ 57 then some (c.toNat - 48)
  else if 97 ≤ c.toNat ∧ c.toNat ≤ 102 then some (c.toNat - 87)
  else if 65 ≤ c.toNat ∧ c.toNat ≤ 70 then some (c.toNat - 55)
  else none

def isLowerDigit (c : Char) : Bool :=
  (48 ≤ c.toNat && c.toNat ≤ 57) || (97 ≤ c.toNat && c.toNat ≤ 102)

/-- The bytes of a text of digits. -/
def bytes? : List Char → Option (List UInt8)
  | [] => some []
  | [_] => none
  | a :: b :: rest =>
    match digit? a, digit? b with
    | some high, some low => (bytes? rest).map (UInt8.ofNat (high * 16 + low) :: ·)
    | _, _ => none

/-- The bytes of a text of digits with blanks around and between them. -/
def spacedBytes? : List Char → Option (List UInt8)
  | [] => some []
  | a :: rest =>
    if Text.isPlainBlank a then spacedBytes? rest
    else
      match rest with
      | [] => none
      | b :: rest =>
        match digit? a, digit? b with
        | some high, some low => (spacedBytes? rest).map (UInt8.ofNat (high * 16 + low) :: ·)
        | _, _ => none

/-- The text without one `0x` at its start. -/
def dropMark : List Char → List Char
  | '0' :: 'x' :: rest => rest
  | '0' :: 'X' :: rest => rest
  | text => text

/-- The bytes of a text that may begin with `0x`. -/
def markedBytes? (text : List Char) : Option (List UInt8) := bytes? (dropMark text)

/-- The two digits of a byte. -/
def ofByte (b : UInt8) : List Char :=
  [Nat.digitChar (b.toNat / 16), Nat.digitChar (b.toNat % 16)]

/-- The digits of some bytes, in lower case. -/
def ofBytes (bytes : List UInt8) : List Char := bytes.flatMap ofByte

end SolDeployer.Hex
