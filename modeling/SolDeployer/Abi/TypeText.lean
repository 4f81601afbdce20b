import SolDeployer.Text.Blank
import SolDeployer.Text.Digit

/-!
# Texts of types

The text of a type is a base and the dimensions of an array: `[2][]`. The
texts come from a document, so the end of a line may follow the last
dimension and the digits may be those of any script.
-/

namespace SolDeployer.Abi.TypeText

/-! ## Array dimensions -/

/-- Is the text nothing but dimensions, up to the end of a line? The flag
says whether a dimension has been opened. -/
def areDimensions : (opened : Bool) → List Char → Bool
  | false, [] => true
  | false, ['\n'] => true
  | false, '[' :: rest => areDimensions true rest
  | true, ']' :: rest => areDimensions false rest
  | true, c :: rest => Text.isDigit c && areDimensions true rest
  | _, _ => false

/-- Does the text begin with a dimension and hold nothing else? -/
def startsDimensions : List Char → Bool
  | '[' :: rest => areDimensions true rest
  | _ => false

/-- The end of the line at the end of a text. -/
def lineEnd (text : List Char) : List Char :=
  if text.getLast? = some '\n' then ['\n'] else []

def stripDimensions : List Char → List Char
  | [] => []
  | c :: rest =>
    if startsDimensions (c :: rest) then lineEnd (c :: rest) else c :: stripDimensions rest

def hasDimensions : List Char → Bool
  | [] => false
  | c :: rest => startsDimensions (c :: rest) || hasDimensions rest

/-! ## Names and words -/

def after? : (word : List Char) → List Char → Option (List Char)
  | [], text => some text
  | _ :: _, [] => none
  | c :: word, d :: text => if c = d then after? word text else none

def startsWith (word : String) (text : List Char) : Bool := (after? word.toList text).isSome

/-- The text after the last point. -/
def unqualified (text : List Char) : List Char :=
  (text.reverse.takeWhile (· != '.')).reverse

/-- The text without the word `struct` and the blanks after it. -/
def dropStruct (text : List Char) : List Char :=
  match after? "struct".toList text with
  | some (c :: rest) => if Text.isBlank c then rest.dropWhile Text.isBlank else text
  | _ => text

/-- The name of a structure, without its qualifier and its dimensions. -/
def structName (text : List Char) : List Char := unqualified (stripDimensions (dropStruct text))

/-! ## Elementary types -/

/-- What follows the sizes of a fixed point type, if there are any. -/
def afterPlaces (text : List Char) : List Char :=
  match text.dropWhile Text.isDigit with
  | 'x' :: rest =>
    if (text.takeWhile Text.isDigit).isEmpty || (rest.takeWhile Text.isDigit).isEmpty then text
    else rest.dropWhile Text.isDigit
  | _ => text

/-- The words of the elementary types, and what may follow each of them
before the dimensions. -/
def elementaryWords : List (String × (List Char → List Char)) :=
  let size := fun (text : List Char) => text.dropWhile Text.isDigit
  let payable := fun (text : List Char) => (after? " payable".toList text).getD text
  [("uint", size), ("int", size), ("address", payable), ("bool", id), ("string", id),
    ("bytes", size), ("ufixed", afterPlaces), ("fixed", afterPlaces), ("function", id)]

/-- Is the text an elementary type or an array of one? -/
def isElementary (text : List Char) : Bool :=
  elementaryWords.any fun (word, skip) =>
    match after? word.toList text with
    | some rest => areDimensions false (skip rest)
    | none => false

/-- Is the type one of the two that need a data location without being an
array or a structure? -/
def isDynamicWord (text : List Char) : Bool :=
  text == "string".toList || text == "bytes".toList

def needsMemory (text : List Char) : Bool := isDynamicWord text || hasDimensions text

/-- Is the type one of the structures, or an array of one? -/
def isStruct (structs : List String) (text : List Char) : Bool :=
  structs.contains (String.ofList (stripDimensions text))

end SolDeployer.Abi.TypeText
