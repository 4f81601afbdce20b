import SolDeployer.Hex
import SolDeployer.Json
import SolDeployer.Text.Integer
import SolDeployer.Text.Utf8

/-!
# Reading documents

A reader for documents in text or in bytes. It takes the usual grammar
with three more numbers (`NaN`, `Infinity` and `-Infinity`); a number
with a fraction or an exponent is a floating point number, every other
one an integer of any size up to a limit on its digits.

The reader works on the list of characters that are left. Every call
reads a character at least before the next, so the number of characters
bounds the depth of the calls; that bound is the `fuel`. Apart from it
there is a limit to how many lists and objects are open at once, the
`levels`: an opening bracket at the last level ends the reading.
-/

namespace SolDeployer.Json

/-- Why a document cannot be read. -/
inductive ReadError where
  /-- The bytes are not text. -/
  | undecodable
  /-- The text does not follow the grammar. -/
  | malformed
  /-- An integer has too many digits. -/
  | integerTooLong
  /-- Too many lists and objects are inside one another. -/
  | tooDeep
  deriving Repr, DecidableEq

namespace Reader

/-- What a step reads, and the characters after it. -/
abbrev Step (α : Type) := Except ReadError (α × List Char)

/-- The characters between the parts of a document. -/
def isSpace (c : Char) : Bool := c == ' ' || c == '\t' || c == '\n' || c == '\r'

def skipSpace (text : List Char) : List Char := text.dropWhile isSpace

/-! ## Texts -/

/-- The digits of numbers: those of ASCII only. -/
def isDigit (c : Char) : Bool := 48 ≤ c.toNat && c.toNat ≤ 57

/-- The code unit that four digits stand for. -/
def codeUnit? : List Char → Option (Nat × List Char)
  | a :: b :: c :: d :: rest => do
    let a ← Hex.digit? a
    let b ← Hex.digit? b
    let c ← Hex.digit? c
    let d ← Hex.digit? d
    return (((a * 16 + b) * 16 + c) * 16 + d, rest)
  | _ => none

/-- The low half of a surrogate pair, in an escape. -/
def lowHalf? : List Char → Option (Nat × List Char)
  | a :: 'u' :: rest =>
    if a = Char.ofNat 92 then
      (codeUnit? rest).filter fun (unit, _) => 0xDC00 ≤ unit && unit ≤ 0xDFFF
    else none
  | _ => none

/-- The character of an escape with four digits. A high half of a pair
takes the low half with it if it is there. -/
def unitChar? (text : List Char) : Option (Char × List Char) :=
  match codeUnit? text with
  | none => none
  | some (unit, rest) =>
    if 0xD800 ≤ unit ∧ unit ≤ 0xDBFF then
      match lowHalf? rest with
      | some (low, rest) =>
        some (Char.ofNat (0x10000 + (unit - 0xD800) * 1024 + (low - 0xDC00)), rest)
      | none => some (Text.half unit, rest)
    else some (Text.ofCodePoint unit, rest)

/-- The character of an escape, after the backslash. -/
def escaped? : List Char → Option (Char × List Char)
  | [] => none
  | c :: rest =>
    if c = Char.ofNat 34 ∨ c = Char.ofNat 92 ∨ c = '/' then some (c, rest)
    else if c = 'b' then some (Char.ofNat 8, rest)
    else if c = 'f' then some (Char.ofNat 12, rest)
    else if c = 'n' then some ('\n', rest)
    else if c = 'r' then some ('\r', rest)
    else if c = 't' then some ('\t', rest)
    else if c = 'u' then unitChar? rest
    else none

/-- The rest of a text after its opening quote, onto the characters read
so far in reverse. -/
def quotedRest : (fuel : Nat) → List Char → List Char → Step String
  | 0, _, _ => .error .malformed
  | _, _, [] => .error .malformed
  | fuel + 1, done, c :: rest =>
    if c = Char.ofNat 34 then .ok (String.ofList done.reverse, rest)
    else if c = Char.ofNat 92 then
      match escaped? rest with
      | some (c, rest) => quotedRest fuel (c :: done) rest
      | none => .error .malformed
    else if c.toNat < 32 then .error .malformed
    else quotedRest fuel (c :: done) rest

/-! ## Numbers -/

/-- The digits of a whole part: a zero, or digits that do not begin with
one. -/
def wholePart? : List Char → Option (List Char × List Char)
  | [] => none
  | c :: rest =>
    if c = '0' then some (['0'], rest)
    else if isDigit c then some (c :: rest.takeWhile isDigit, rest.dropWhile isDigit)
    else none

/-- The digits after a point, none if there is no fraction. -/
def fraction (text : List Char) : List Char × List Char :=
  match text with
  | '.' :: rest =>
    if (rest.takeWhile isDigit).isEmpty then ([], text)
    else (rest.takeWhile isDigit, rest.dropWhile isDigit)
  | _ => ([], text)

def decimal (digits : List Char) : Nat := Text.ofDigits 10 (digits.map fun c => c.toNat - 48)

/-- The power of ten after the digits, if there is one. -/
def power? : List Char → Option (Int × List Char)
  | mark :: rest =>
    if mark = 'e' ∨ mark = 'E' then
      let (negative, rest) := match rest with
        | '-' :: rest => (true, rest)
        | '+' :: rest => (false, rest)
        | rest => (false, rest)
      let digits := rest.takeWhile isDigit
      if digits.isEmpty then none
      else
        let size : Int := decimal digits
        some (if negative then -size else size, rest.dropWhile isDigit)
    else none
  | [] => none

/-- A number, after its sign. -/
def number (negative : Bool) (text : List Char) : Step Json :=
  match wholePart? text with
  | none => .error .malformed
  | some (whole, rest) =>
    let (places, rest) := fraction rest
    match power? rest with
    | some (power, rest) =>
      .ok (.float (.ofDecimal negative (decimal (whole ++ places)) (power - places.length)), rest)
    | none =>
      if !places.isEmpty then
        .ok (.float (.ofDecimal negative (decimal (whole ++ places)) (-places.length)), rest)
      else if Text.maxDecimalDigits < whole.length then .error .integerTooLong
      else
        let size : Int := decimal whole
        .ok (.int (if negative then -size else size), rest)

/-! ## Values -/

/-- Does a character open a list or an object? -/
def opens (c : Char) : Bool := c == '[' || c == Char.ofNat 123

/-- The characters after a word that stands for a value. -/
def word? : (word : List Char) → List Char → Option (List Char)
  | [], rest => some rest
  | _ :: _, [] => none
  | c :: word, d :: rest => if c = d then word? word rest else none

/-- The words that stand for values. -/
def words : List (List Char × Json) :=
  [("null".toList, .null), ("true".toList, .bool true), ("false".toList, .bool false),
    ("NaN".toList, .float .nan), ("Infinity".toList, .float (.infinite false)),
    ("-Infinity".toList, .float (.infinite true))]

/-- A value that holds no others and is not a text. -/
def scalar (text : List Char) : Step Json :=
  match words.findSome? fun (word, value) => (word? word text).map (value, ·) with
  | some found => .ok found
  | none =>
    match text with
    | '-' :: rest => number true rest
    | rest => number false rest

mutual

def value : (fuel : Nat) → (levels : Nat) → List Char → Step Json
  | 0, _, _ => .error .malformed
  | _, _, [] => .error .malformed
  | fuel + 1, levels, c :: rest =>
    if c = Char.ofNat 34 then
      match quotedRest (rest.length + 1) [] rest with
      | .ok (text, rest) => .ok (.str text, rest)
      | .error e => .error e
    else if opens c && levels == 0 then .error .tooDeep
    else if c = '[' then
      match skipSpace rest with
      | ']' :: rest => .ok (.arr [], rest)
      | rest => items fuel (levels - 1) [] rest
    else if c = Char.ofNat 123 then
      match skipSpace rest with
      | d :: rest =>
        if d = Char.ofNat 125 then .ok (.obj [], rest) else fields fuel (levels - 1) [] (d :: rest)
      | [] => .error .malformed
    else scalar (c :: rest)

/-- The items of a list from the next one on, onto those read so far in
reverse. -/
def items : (fuel : Nat) → (levels : Nat) → List Json → List Char → Step Json
  | 0, _, _, _ => .error .malformed
  | fuel + 1, levels, done, text =>
    match value fuel levels text with
    | .error e => .error e
    | .ok (item, rest) =>
      match skipSpace rest with
      | ',' :: rest => items fuel levels (item :: done) (skipSpace rest)
      | ']' :: rest => .ok (.arr (item :: done).reverse, rest)
      | _ => .error .malformed

/-- The fields of an object from the next one on, onto those read so far
in reverse. -/
def fields : (fuel : Nat) → (levels : Nat) → List (String × Json) → List Char → Step Json
  | 0, _, _, _ => .error .malformed
  | _, _, _, [] => .error .malformed
  | fuel + 1, levels, done, c :: rest =>
    if c = Char.ofNat 34 then
      match quotedRest (rest.length + 1) [] rest with
      | .error e => .error e
      | .ok (key, rest) =>
        match skipSpace rest with
        | ':' :: rest =>
          match value fuel levels (skipSpace rest) with
          | .error e => .error e
          | .ok (item, rest) =>
            match skipSpace rest with
            | ',' :: rest => fields fuel levels ((key, item) :: done) (skipSpace rest)
            | d :: rest =>
              if d = Char.ofNat 125 then
                .ok (.obj (Entries.ofList ((key, item) :: done).reverse), rest)
              else .error .malformed
            | [] => .error .malformed
        | _ => .error .malformed
    else .error .malformed

end

end Reader

/-- About as many levels as the reader usually has. -/
def usualLevels : Nat := 990

/-- The document in a text. No more lists and objects may be inside one
another than there are levels. -/
def read (text : List Char) (levels : Nat := usualLevels) : Except ReadError Json :=
  let start := Reader.skipSpace text
  match Reader.value (2 * start.length + 1) levels start with
  | .error e => .error e
  | .ok (document, rest) =>
    if (Reader.skipSpace rest).isEmpty then .ok document else .error .malformed

end SolDeployer.Json
