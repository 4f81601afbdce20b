import SolDeployer.Files.Disk

/-!
# Patterns for files

A pattern is a path with wild cards: a star stands for any characters of
a name, a question mark for one, brackets for one of a set, and two stars
alone for any directories on the way. Selecting the files below a
directory that match gives a list of paths.
-/

namespace SolDeployer.Files

namespace Glob

/-! ## Sets of characters -/

/-- A character of a set as it is written. A dash that joins two
characters to a range is marked. -/
structure Mark where
  char : Char
  joins : Bool
  deriving Repr, DecidableEq

def plain (c : Char) : Mark := ⟨c, false⟩

/-- The chunks of the text of a set between the dashes that make ranges.
The next `skip` characters cannot be such a dash, nor can the last one. -/
def chunks : (skip : Nat) → (chunk : List Char) → List Char → List (List Char)
  | _, chunk, [] => [chunk]
  | skip + 1, chunk, c :: rest => chunks skip (chunk ++ [c]) rest
  | 0, chunk, c :: rest =>
    if c = '-' && !rest.isEmpty then chunk :: chunks 2 [] rest else chunks 0 (chunk ++ [c]) rest

/-- Chunks without the ranges that are empty: the ends of such a range
fall away and its chunks become one. -/
def dropEmptyRanges : List (List Char) → List (List Char)
  | [] => []
  | chunk :: rest =>
    match dropEmptyRanges rest with
    | [] => [chunk]
    | next :: others =>
      match chunk.getLast?, next.head? with
      | some low, some high =>
        if high < low then (chunk.dropLast ++ next.drop 1) :: others
        else chunk :: next :: others
      | _, _ => chunk :: next :: others

/-- The text of a set, with a marked dash between two chunks. -/
def joinChunks : List (List Char) → List Mark
  | [] => []
  | [chunk] => chunk.map plain
  | chunk :: rest => chunk.map plain ++ ⟨'-', true⟩ :: joinChunks rest

/-- The text of a set with its ranges marked. -/
def marks (body : List Char) : List Mark :=
  if body.contains '-' then
    let skip := if body.head? = some '!' then 2 else 1
    joinChunks (dropEmptyRanges (chunks skip [] body))
  else body.map plain

def inMarks (c : Char) : List Mark → Bool
  | low :: dash :: high :: rest =>
    if dash.joins then (low.char ≤ c && c ≤ high.char) || inMarks c rest
    else c == low.char || inMarks c (dash :: high :: rest)
  | mark :: rest => c == mark.char || inMarks c rest
  | [] => false

/-- Does a set, written with its marks, admit a character? A set that
begins with an exclamation mark admits what it does not list. -/
def admits (c : Char) : List Mark → Bool
  | ⟨'!', _⟩ :: rest => !inMarks c rest
  | set => inMarks c set

/-! ## Names -/

/-- A part of a pattern for names. -/
inductive Item where
  | char (c : Char)
  | any
  | star
  | set (marks : List Mark)
  deriving Repr, DecidableEq

/-- The text of a set after its opening bracket, and what follows its
closing one. A bracket at the start does not close. -/
def setBody? (text : List Char) : Option (List Char × List Char) :=
  let head := if text.head? = some '!' then text.take 1 else []
  let afterHead := text.drop head.length
  let head := if afterHead.head? = some ']' then head ++ [']'] else head
  let afterHead := text.drop head.length
  match afterHead.dropWhile (· ≠ ']') with
  | [] => none
  | _ :: rest => some (head ++ afterHead.takeWhile (· ≠ ']'), rest)

/-- The parts of a pattern, at most `fuel` of them. -/
def itemsUpTo : (fuel : Nat) → List Char → List Item
  | 0, _ => []
  | _, [] => []
  | fuel + 1, c :: rest =>
    if c = '*' then .star :: itemsUpTo fuel rest
    else if c = '?' then .any :: itemsUpTo fuel rest
    else if c = '[' then
      match setBody? rest with
      | some (body, rest) => .set (marks body) :: itemsUpTo fuel rest
      | none => .char c :: itemsUpTo fuel rest
    else .char c :: itemsUpTo fuel rest

/-- The parts of a pattern. Each takes a character at least. -/
def items (text : List Char) : List Item := itemsUpTo text.length text

/-- Does a part of a pattern stand for a character? -/
def Item.takes (c : Char) : Item → Bool
  | .char d => c == d
  | .any | .star => true
  | .set marks => admits c marks

/-- The answers for the ends of a text, if the answer for an end is that it
passes a test with its first character and the end after it with `rest`. -/
def afterOne (test : Char → Bool) : List Char → (rest : List Bool) → List Bool
  | c :: text, _ :: rest => (test c && rest.headD false) :: afterOne test text rest
  | _, _ => [false]

/-- For each of some answers: is it or one of those that follow a yes? -/
def orLater : List Bool → List Bool
  | [] => []
  | answer :: rest =>
    let later := orLater rest
    (answer || later.headD false) :: later

/-- Which ends of a text match the parts of a pattern? The answers are for
the whole text, the text without its first character, and so on. Each part
goes through the text once, however many stars there are. -/
def matchingEnds : List Item → List Char → List Bool
  | [], text => text.map (fun _ => false) ++ [true]
  | .star :: rest, text => orLater (matchingEnds rest text)
  | item :: rest, text => afterOne item.takes text (matchingEnds rest text)

/-- Does a name match the parts of a pattern? -/
def matchesItems (items : List Item) (text : List Char) : Bool :=
  (matchingEnds items text).headD false

/-! ## Paths -/

/-- A part of a pattern for paths. -/
inductive Part where
  /-- Any directories, or none. -/
  | anywhere
  | wild (items : List Item)
  | exact (name : String)
  deriving Repr, DecidableEq

/-- Does a text hold two stars in a row? -/
def hasDoubleStar : List Char → Bool
  | '*' :: '*' :: _ => true
  | _ :: rest => hasDoubleStar rest
  | [] => false

/-- The part that a name of a pattern stands for. -/
def Part.ofName (name : String) : Except Failure Part :=
  let text := name.toList
  if name == "**" then .ok .anywhere
  else if hasDoubleStar text then .error .badPattern
  else if text.any fun c => c == '*' || c == '?' || c == '[' then .ok (.wild (items text))
  else .ok (.exact name)

/-- The parts of a pattern that does not begin at the root. -/
def partsOf (pattern : String) : Except Failure (List Part) :=
  let path := Path.ofText pattern
  if path.root != "" then .error .absolutePattern else path.parts.mapM Part.ofName

/-- A place and the names by which it was reached. -/
structure Found where
  names : List String
  place : Place
  deriving Repr, DecidableEq

/-- The places in a directory by their names. -/
def entriesOf (disk : Disk) (found : Found) : List Found :=
  (disk.children found.place).map fun name => ⟨found.names ++ [name], found.place ++ [name]⟩

/-- The items without repetitions, each at its first place. -/
def distinct : List Found → List Found
  | [] => []
  | found :: rest => found :: (distinct rest).filter fun other => other.names != found.names

/-- The path that some names lead to from a base. -/
def pathFrom (base : Path) (names : List String) : Path := ⟨base.root, base.parts ++ names⟩

/-- Is the path that some names lead to from a base too long to look at? -/
def isTooFar (base : Path) (names : List String) : Bool :=
  Disk.isTooLong (pathFrom base names).text

/-- Where one name leads to. -/
def step (disk : Disk) (base : Path) (found : Found) (name : String) :
    Except Failure (Option Found) :=
  let next := found.names ++ [name]
  if Disk.hasForeign name then .ok none
  else if isTooFar base next then .error .fileSystem
  else
    match disk.follow found.place name with
    | .error .nameTooLong => .error .fileSystem
    | .error _ => .ok none
    | .ok place => .ok (some ⟨next, place⟩)

/-- The places that a pattern leads to from a directory. The path to where
the search began is `base`; a directory is looked at by its path, so that
a path that is too long is a failure. -/
def select (disk : Disk) (base : Path) : List Part → Found → Except Failure (List Found)
  | [], found => .ok [found]
  | part :: rest, found =>
    let admissible := fun (next : Found) => rest.isEmpty || disk.isDirectory next.place
    match part with
    | .exact name =>
      match step disk base found name with
      | .error failure => .error failure
      | .ok none => .ok []
      | .ok (some next) => if admissible next then select disk base rest next else .ok []
    | .wild items =>
      let entries := (entriesOf disk found).filter fun next =>
        matchesItems items ((next.names.getLast?.getD "").toList) && admissible next
      if isTooFar base found.names then .error .fileSystem
      else (entries.mapM (select disk base rest)).map List.flatten
    | .anywhere =>
      let starts := (disk.directoriesFrom found.place).map fun place =>
        (⟨found.names ++ place.drop found.place.length, place⟩ : Found)
      if starts.any fun start => isTooFar base start.names then .error .fileSystem
      else (starts.mapM (select disk base rest)).map fun found => distinct found.flatten

end Glob

/-- The paths below a directory that match a pattern, in order. -/
def Disk.glob (disk : Disk) (base : Path) (place : Place) (pattern : String) :
    Except Failure (List Path) := do
  let parts ← Glob.partsOf pattern
  let found ← Glob.select disk base (.anywhere :: parts) ⟨[], place⟩
  return sortBy Path.before (found.map fun found => Glob.pathFrom base found.names)

end SolDeployer.Files
