import SolDeployer.Text.Half

/-!
# UTF-8

Text as bytes and back. The decoder takes one character at a time; the
first byte tells how many more follow and what the second may be, so
that every character has one form only.
-/

namespace SolDeployer.Text.Utf8

/-! ## Encoding -/

def encodeChar (c : Char) : List UInt8 :=
  let n := c.toNat
  if n < 0x80 then [UInt8.ofNat n]
  else if n < 0x800 then [UInt8.ofNat (0xC0 + n / 64), UInt8.ofNat (0x80 + n % 64)]
  else if n < 0x10000 then
    [UInt8.ofNat (0xE0 + n / 4096), UInt8.ofNat (0x80 + n / 64 % 64), UInt8.ofNat (0x80 + n % 64)]
  else
    [UInt8.ofNat (0xF0 + n / 262144), UInt8.ofNat (0x80 + n / 4096 % 64),
      UInt8.ofNat (0x80 + n / 64 % 64), UInt8.ofNat (0x80 + n % 64)]

/-- The bytes of a text whose parts all have some. -/
def encode (text : List Char) : List UInt8 := text.flatMap encodeChar

/-- The bytes of a text, if all its parts have some. -/
def encode? (text : List Char) : Option (List UInt8) :=
  if hasBytes text then some (encode text) else none

/-! ## Decoding -/

/-- Can the byte continue a character? -/
def isTail (b : UInt8) : Bool := 0x80 ≤ b && b ≤ 0xBF

/-- The first character of some bytes and the bytes after it. Halves of
surrogate pairs are taken only if `surrogates` says so. -/
def next? (surrogates : Bool) : List UInt8 → Option (Char × List UInt8)
  | [] => none
  | a :: rest =>
    if a < 0x80 then some (Char.ofNat a.toNat, rest)
    else
      match rest with
      | [] => none
      | b :: rest =>
        if 0xC2 ≤ a ∧ a ≤ 0xDF then
          if isTail b then some (Char.ofNat ((a.toNat - 0xC0) * 64 + (b.toNat - 0x80)), rest)
          else none
        else
          match rest with
          | [] => none
          | c :: rest =>
            if 0xE0 ≤ a ∧ a ≤ 0xEF then
              let n := (a.toNat - 0xE0) * 4096 + (b.toNat - 0x80) * 64 + (c.toNat - 0x80)
              if !isTail b || !isTail c || n < 0x800 then none
              else if 0xD800 ≤ n ∧ n ≤ 0xDFFF then
                if surrogates then some (half n, rest) else none
              else some (Char.ofNat n, rest)
            else
              match rest with
              | [] => none
              | d :: rest =>
                let n := (a.toNat - 0xF0) * 262144 + (b.toNat - 0x80) * 4096 +
                  (c.toNat - 0x80) * 64 + (d.toNat - 0x80)
                if 0xF0 ≤ a ∧ a ≤ 0xF4 ∧ isTail b ∧ isTail c ∧ isTail d ∧
                    0x10000 ≤ n ∧ n < 0x110000 then
                  some (Char.ofNat n, rest)
                else none

/-- Decode at most `fuel` characters onto those already read, which are in
reverse. -/
def decodeOnto (surrogates : Bool) : (fuel : Nat) → List Char → List UInt8 → Option (List Char)
  | _, done, [] => some done.reverse
  | 0, _, _ :: _ => none
  | fuel + 1, done, bytes =>
    match next? surrogates bytes with
    | some (c, rest) => decodeOnto surrogates fuel (c :: done) rest
    | none => none

/-- The text of some bytes, if all of them are characters. Every character
takes a byte at least, so there are no more characters than bytes. -/
def decode? (bytes : List UInt8) (surrogates : Bool := false) : Option (List Char) :=
  decodeOnto surrogates bytes.length [] bytes

/-- A byte shown by its value. -/
def escapedByte (b : UInt8) : List Char :=
  [Char.ofNat 92, 'x', Nat.digitChar (b.toNat / 16), Nat.digitChar (b.toNat % 16)]

/-- Decode at most `fuel` characters, showing the value of each byte that
belongs to none. -/
def decodeEscapingOnto : (fuel : Nat) → List Char → List UInt8 → List Char
  | _, done, [] => done.reverse
  | 0, done, _ :: _ => done.reverse
  | fuel + 1, done, b :: bytes =>
    match next? false (b :: bytes) with
    | some (c, rest) => decodeEscapingOnto fuel (c :: done) rest
    | none => decodeEscapingOnto fuel ((escapedByte b).reverse ++ done) bytes

/-- The text of some bytes, with the value of each byte that belongs to no
character. -/
def decodeEscaping (bytes : List UInt8) : List Char :=
  decodeEscapingOnto bytes.length [] bytes

end SolDeployer.Text.Utf8
