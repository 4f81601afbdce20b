import SolDeployer.Entries
import SolDeployer.Failure
import SolDeployer.Files.Path
import SolDeployer.Sorting
import SolDeployer.Text.Utf8

/-!
# Disks

Files and directories, and the directory that paths begin from. A place
on the disk is the list of names that lead to it from the root. A text
leads to a place if every name on the way but the last is that of a
directory; two points lead to the directory around.
-/

namespace SolDeployer.Files

-- the plain ones, whatever other instances are around
attribute [local instance(high)] Zero.ofOfNat0

/-- The names that lead to a place from the root. -/
abbrev Place := List String

/-- What is at a place. -/
inductive Node where
  | file (content : List UInt8)
  | directory
  deriving Repr, DecidableEq, Inhabited

/-- Why a text leads nowhere. -/
inductive Obstacle where
  | missing
  | notDirectory
  | nameTooLong
  | badCharacter
  deriving Repr, DecidableEq

/-- Files and directories by place, and the current directory. -/
structure Disk where
  nodes : Entries Place Node
  current : Place
  deriving Repr, Inhabited

def maxNameBytes : Nat := 255

/-- The most bytes the text of a path may have. -/
def maxPathBytes : Nat := 4095

namespace Disk

/-! ## Looking -/

/-- What is at a place. The root is a directory. -/
def node? (disk : Disk) (place : Place) : Option Node :=
  if place.isEmpty then some .directory else disk.nodes.get? place

def isDirectory (disk : Disk) (place : Place) : Bool := disk.node? place == some .directory

/-- The names in a directory. -/
def children (disk : Disk) (place : Place) : List String :=
  disk.nodes.filterMap fun (other, _) =>
    if other.dropLast == place then other.getLast? else none

/-- The places of the directories below a place, and the place itself. -/
def directoriesFrom (disk : Disk) (place : Place) : List Place :=
  place :: disk.nodes.filterMap fun (other, node) =>
    if node == .directory && place.isPrefixOf other && place != other then some other else none

def filesFrom (disk : Disk) (place : Place) : List Place :=
  disk.nodes.filterMap fun (other, node) =>
    if node != .directory && place.isPrefixOf other && place != other then some other else none

def size (disk : Disk) : Nat :=
  (disk.nodes.map fun (_, node) =>
    match node with
    | .file content => content.length
    | .directory => 0).sum

/-! ## Following paths -/

def follow (disk : Disk) (here : Place) (name : String) : Except Obstacle Place :=
  if !disk.isDirectory here then .error .notDirectory
  else if name == "" || name == "." then .ok here
  else if name == ".." then .ok here.dropLast
  else if maxNameBytes < name.utf8ByteSize then .error .nameTooLong
  else if (disk.node? (here ++ [name])).isSome then .ok (here ++ [name])
  else .error .missing

def followAll (disk : Disk) (here : Place) : List String → Except Obstacle Place
  | [] => .ok here
  | name :: rest =>
    match disk.follow here name with
    | .error obstacle => .error obstacle
    | .ok here => followAll disk here rest

/-- Is the text of a path longer than any path may be? -/
def isTooLong (text : String) : Bool := maxPathBytes < text.utf8ByteSize

/-- Where the text of a path begins. -/
def origin (disk : Disk) (text : String) : Place :=
  if isAbsolute text then [] else disk.current

/-- Can no path hold the character? The second half of a pair can stand for a
byte that belongs to no character, and such a byte can be in a path. -/
def isForeign (c : Char) : Bool :=
  c == Char.ofNat 0 || Text.isHalf c && !(Text.half 0xDC80 ≤ c && c ≤ Text.half 0xDCFF)

/-- Does the text hold a character that no path holds? -/
def hasForeign (text : String) : Bool := text.toList.any isForeign

def locate (disk : Disk) (text : String) : Except Obstacle Place :=
  if hasForeign text then .error .badCharacter
  else if text == "" then .error .missing
  else if isTooLong text then .error .nameTooLong
  else disk.followAll (disk.origin text) (namesOf text)

/-- What a text leads to, nothing if it leads nowhere. -/
def lookUp? (disk : Disk) (text : String) : Option Node :=
  match disk.locate text with
  | .ok place => disk.node? place
  | .error _ => none

/-- What a path leads to. A text or a name that is too long is a failure;
all other obstacles mean that nothing is there. -/
def inspect (disk : Disk) (path : Path) : Except Failure (Option Node) :=
  match disk.locate path.text with
  | .ok place => .ok (disk.node? place)
  | .error .nameTooLong => .error .fileSystem
  | .error _ => .ok none

def hasDirectory (disk : Disk) (path : Path) : Except Failure Bool :=
  (disk.inspect path).map (· == some .directory)

def hasFile (disk : Disk) (path : Path) : Except Failure Bool :=
  (disk.inspect path).map fun node =>
    match node with
    | some (.file _) => true
    | _ => false

/-- The names that lead from the root to where some names lead, the disk
left out of account. -/
def resolveNames (here : Place) : List String → Place
  | [] => here
  | name :: rest => resolveNames (if name == ".." then here.dropLast else here ++ [name]) rest

/-- The path from the root to where a path leads. -/
def resolve (disk : Disk) (path : Path) : Except Failure Path :=
  if path.parts.any hasForeign then .error .badPath
  else .ok ⟨"/", resolveNames (if path.root == "" then disk.current else []) path.parts⟩

/-! ## Reading -/

/-- A text with the ends of its lines written in one way. -/
def plainLines : List Char → List Char
  | [] => []
  | '\r' :: '\n' :: rest => '\n' :: plainLines rest
  | '\r' :: rest => '\n' :: plainLines rest
  | c :: rest => c :: plainLines rest

def readText (disk : Disk) (path : String) : Except Failure (List Char) :=
  match disk.locate path with
  | .error .badCharacter => .error .badPath
  | .error _ => .error .fileSystem
  | .ok place =>
    match disk.node? place with
    | some (.file content) =>
      match Text.Utf8.decode? content with
      | some text => .ok (plainLines text)
      | none => .error .undecodable
    | _ => .error .fileSystem

/-! ## Writing -/

def put (disk : Disk) (place : Place) (node : Node) : Disk :=
  { disk with nodes := disk.nodes.insert place node }

/-- Put a directory at every place on the way to a place where nothing is. -/
def putParents (disk : Disk) (place : Place) : Disk :=
  (List.range place.length).foldl
    (fun disk count =>
      if (disk.node? (place.take count)).isSome then disk
      else disk.put (place.take count) .directory)
    disk

/-- Put a file at a place, with the directories on the way. -/
def putFile (disk : Disk) (place : Place) (content : List UInt8) : Disk :=
  (disk.putParents place).put place (.file content)

/-- Take away what is at a place. -/
def remove (disk : Disk) (place : Place) : Disk :=
  { disk with nodes := disk.nodes.filter fun (other, _) => other != place }

/-- The directory in which the last name of a text stands, and that name. -/
def target (disk : Disk) (text : String) : Except Failure (Place × String) :=
  if hasForeign text then .error .badPath
  else if isTooLong text then .error .fileSystem
  else
    let names := (namesOf text).filter (· != "")
    match names.getLast? with
    | none => .error .fileSystem
    | some name =>
      match disk.followAll (disk.origin text) names.dropLast with
      | .error _ => .error .fileSystem
      | .ok place => if disk.isDirectory place then .ok (place, name) else .error .fileSystem

/-- How making a directory ends. -/
inductive Made where
  | made
  | alreadyThere
  | failed (cause : Failure)
  deriving Repr, DecidableEq

def makeDirectory (disk : Disk) (text : String) : Disk × Made :=
  match disk.target text with
  | .error cause => (disk, .failed cause)
  | .ok (place, name) =>
    match disk.follow place name with
    | .ok _ => (disk, .alreadyThere)
    | .error .missing => (disk.put (place ++ [name]) .directory, .made)
    | .error _ => (disk, .failed .fileSystem)

def dropSlashes (text : List Char) : List Char :=
  (text.reverse.dropWhile (· = '/')).reverse

/-- The text before the last slash and the text after it. -/
def splitLast (text : String) : String × String :=
  let chars := text.toList
  let tail := (chars.reverse.takeWhile (· ≠ '/')).reverse
  let head := chars.take (chars.length - tail.length)
  (String.ofList (if head.all (· = '/') then head else dropSlashes head), String.ofList tail)

/-- Make a directory and those around it that are missing, as many levels
up as `fuel` says. A text is longer than that of the directory around, so
its length is enough. What is made before a failure stays. -/
def makeDirectoriesUpTo (disk : Disk) : (fuel : Nat) → String → Disk × Made
  | 0, text => disk.makeDirectory text
  | fuel + 1, text =>
    let (head, tail) := splitLast text
    let (head, tail) := if tail == "" then splitLast head else (head, tail)
    if head != "" && tail != "" && (disk.lookUp? head).isNone then
      match makeDirectoriesUpTo disk fuel head with
      | (disk, .failed cause) => (disk, .failed cause)
      | (disk, _) => if tail == "." then (disk, .made) else disk.makeDirectory text
    else disk.makeDirectory text

/-- Make a directory and those around it that are missing. -/
def makeDirectories (disk : Disk) (text : String) : Disk × Made :=
  disk.makeDirectoriesUpTo text.length text

/-- Write a file at a path, in a directory that is there. -/
def writeBytes (disk : Disk) (path : String) (bytes : List UInt8) : Except Failure Disk :=
  match disk.target path with
  | .error cause => .error cause
  | .ok (place, name) =>
    match disk.follow place name with
    | .ok found =>
      if disk.isDirectory found || path.toList.getLast? == some '/' then .error .fileSystem
      else .ok (disk.put found (.file bytes))
    | .error .missing =>
      if path.toList.getLast? == some '/' then .error .fileSystem
      else .ok (disk.put (place ++ [name]) (.file bytes))
    | .error _ => .error .fileSystem

/-- Write a text to the file at a path, in a directory that is there. The
file is made before the text is looked at, so it is left empty by a text
that has no bytes. -/
def writeText (disk : Disk) (path : String) (text : List Char) : Disk × Except Failure Unit :=
  match disk.writeBytes path ((Text.Utf8.encode? text).getD []) with
  | .error failure => (disk, .error failure)
  | .ok disk => (disk, if Text.hasBytes text then .ok () else .error .undecodable)

end Disk

/-- A path that goes on from another one, both as texts. -/
def joinTexts (base path : String) : String :=
  if isAbsolute path then path
  else if base == "" || base.toList.getLast? == some '/' then base ++ path
  else base ++ "/" ++ path

end SolDeployer.Files
