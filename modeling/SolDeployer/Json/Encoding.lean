import SolDeployer.Json.Reader

/-!
# Documents in bytes

A document in bytes tells its encoding by a mark at the start, or by
where the zero bytes of its first four bytes are: the first character of
a document is always one of ASCII.
-/

namespace SolDeployer.Json

/-- An encoding of text in bytes. -/
inductive Encoding where
  | utf8
  | utf16 (bigEndian : Bool)
  | utf32 (bigEndian : Bool)
  deriving Repr, DecidableEq

namespace Encoding

def word (bigEndian : Bool) (bytes : List UInt8) : Nat :=
  (if bigEndian then bytes else bytes.reverse).foldl (fun total b => total * 256 + b.toNat) 0

/-- The words of two bytes. -/
def words16? (bigEndian : Bool) : List UInt8 → Option (List Nat)
  | [] => some []
  | [_] => none
  | a :: b :: rest => (words16? bigEndian rest).map (word bigEndian [a, b] :: ·)

/-- The words of four bytes. -/
def words32? (bigEndian : Bool) : List UInt8 → Option (List Nat)
  | [] => some []
  | a :: b :: c :: d :: rest => (words32? bigEndian rest).map (word bigEndian [a, b, c, d] :: ·)
  | _ => none

/-- The characters of words of two bytes. -/
def join16 : List Nat → List Char
  | [] => []
  | [unit] => [Text.ofCodePoint unit]
  | unit :: low :: rest =>
    if 0xD800 ≤ unit ∧ unit ≤ 0xDBFF ∧ 0xDC00 ≤ low ∧ low ≤ 0xDFFF then
      Char.ofNat (0x10000 + (unit - 0xD800) * 1024 + (low - 0xDC00)) :: join16 rest
    else Text.ofCodePoint unit :: join16 (low :: rest)

/-- The character of a word of four bytes. -/
def char32? (n : Nat) : Option Char := if 0x110000 ≤ n then none else some (Text.ofCodePoint n)

/-- The text of some bytes. -/
def decode? : Encoding → List UInt8 → Option (List Char)
  | .utf8, bytes => Text.Utf8.decode? bytes true
  | .utf16 bigEndian, bytes => (words16? bigEndian bytes).map join16
  | .utf32 bigEndian, bytes => (words32? bigEndian bytes).bind (·.mapM char32?)

/-- The encoding of a document and its bytes after the mark. -/
def detect (bytes : List UInt8) : Encoding × List UInt8 :=
  match bytes with
  | 0x00 :: 0x00 :: 0xFE :: 0xFF :: rest => (.utf32 true, rest)
  | 0xFF :: 0xFE :: 0x00 :: 0x00 :: rest => (.utf32 false, rest)
  | 0xFE :: 0xFF :: rest => (.utf16 true, rest)
  | 0xFF :: 0xFE :: rest => (.utf16 false, rest)
  | 0xEF :: 0xBB :: 0xBF :: rest => (.utf8, rest)
  | a :: b :: c :: d :: _ =>
    if a = 0 then (if b = 0 then .utf32 true else .utf16 true, bytes)
    else if b = 0 then (if c = 0 ∧ d = 0 then .utf32 false else .utf16 false, bytes)
    else (.utf8, bytes)
  | [a, b] => (if a = 0 then .utf16 true else if b = 0 then .utf16 false else .utf8, bytes)
  | _ => (.utf8, bytes)

end Encoding

/-- The document in some bytes. -/
def readBytes (bytes : List UInt8) (levels : Nat := usualLevels) : Except ReadError Json :=
  let (encoding, content) := Encoding.detect bytes
  match encoding.decode? content with
  | some text => read text levels
  | none => .error .undecodable

end SolDeployer.Json
