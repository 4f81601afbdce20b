import SolDeployer.Compiler
import SolDeployer.Files.Glob
import SolDeployer.Platform
import SolDeployer.Text.Digit

/-!
# Looking up artifacts

The artifact of a contract among the files of a project. Several files
may hold a contract of the name: from other sources, or from other
versions of the compiler. They are narrowed down by the source and then
by the version, and what is left has to be one file.
-/

namespace SolDeployer.Platform

/-! ## Names of artifacts -/

/-- What follows a point and a number. -/
def afterNumber? : List Char → Option (List Char)
  | '.' :: rest =>
    if (rest.takeWhile Text.isDigit).isEmpty then none else some (rest.dropWhile Text.isDigit)
  | _ => none

/-- What follows a version of three numbers. -/
def afterVersion? (text : List Char) : Option (List Char) :=
  ((afterNumber? text).bind afterNumber?).bind afterNumber?

/-- Is the text the ending of an artifact's name? The end of a line may
follow. -/
def isEnding (text : List Char) : Bool :=
  text == ".json".toList || text == ".json\n".toList

/-- Is a file named after a contract, with or without a version of the
compiler? -/
def isNamedAfter (contract file : List Char) : Bool :=
  contract.isPrefixOf file &&
    let rest := file.drop contract.length
    isEnding rest || ((afterVersion? rest).map isEnding).getD false

/-! ## Candidates -/

/-- What is named after a contract in the directories at a place, in order
of the paths. The path to the place is `base`. -/
def namedFiles (disk : Files.Disk) (base : Files.Path) (place : Files.Place) (contract : String) :
    List Files.Path :=
  sortBy Files.Path.before <| disk.nodes.filterMap fun (other, _) =>
    match other.drop place.length with
    | [directory, file] =>
      if place.isPrefixOf other && isNamedAfter contract.toList file.toList then
        some ((base.child directory).child file)
      else none
    | _ => none

/-- The files that may hold a contract, in order of their paths. -/
def candidates (platform : Platform) (disk : Files.Disk) (contract : String) :
    Except Failure (List Files.Path) := do
  let base := platform.artifacts
  if !(← disk.hasDirectory base) then return []
  match disk.locate base.text with
  | .error _ => return []
  | .ok place =>
    match platform.kind with
    | .foundry =>
      if (disk.children place).any fun name => Files.Disk.isTooLong (base.child name).text then
        .error .fileSystem
      else return namedFiles disk base place contract
    | .hardhat =>
      let found ← disk.glob base place (contract ++ ".json")
      return found.filter fun path =>
        !(path.parts.drop base.parts.length).contains "build-info"

/-! ## Versions -/

/-- The version of the compiler in some metadata, null if there is none. -/
def versionIn (metadata : Json) : Json :=
  match metadata with
  | .obj fields =>
    match Json.Fields.getD fields "compiler" with
    | .obj compiler => Json.Fields.getD compiler "version"
    | _ => .null
  | _ => .null

/-- A document in a text, null if it cannot be read. An integer with too
many digits is a failure, and so are too many levels. -/
def readOrNull (levels : Nat) (text : List Char) : Except Failure Json :=
  match Json.read text levels with
  | .ok value => .ok value
  | .error .integerTooLong => .error .integerTooLong
  | .error .tooDeep => .error .tooManySteps
  | .error _ => .ok .null

/-- The version of the compiler that made the artifact in a file. -/
def recordedVersion (levels : Nat) (disk : Files.Disk) (path : Files.Path) :
    Except Failure Json := do
  match ← readOrNull levels (← disk.readText path.text) with
  | .obj fields =>
    match Json.Fields.getD fields "metadata" with
    | .str text => return versionIn (← readOrNull levels text.toList)
    | metadata => return versionIn metadata
  | _ => return .null

/-- Was the artifact in a file made by a version of the compiler? -/
def isOfVersion (levels : Nat) (disk : Files.Disk) (version : Json) (path : Files.Path) :
    Except Failure Bool := do
  match Compiler.versionMatches? (← recordedVersion levels disk path) version with
  | some answer => return answer
  | none => .error .unexpectedType

/-! ## The artifact -/

/-- The candidates whose directory is named after a source file, or all if
there are none. -/
def narrowBySource (source : String) (found : List Files.Path) : List Files.Path :=
  let named := found.filter fun path => path.parent.name == (Files.Path.ofText source).name
  if named.isEmpty then found else named

/-- The file with the artifact of a contract. -/
def find (platform : Platform) (disk : Files.Disk) (contract : String) (source? : Option String)
    (version : Json) : Except Failure Files.Path := do
  let found ← platform.candidates disk contract
  if found.isEmpty then .error (.noArtifact contract platform.artifacts.text)
  let found := match source? with
    | some source => if 1 < found.length then narrowBySource source found else found
    | none => found
  let found ←
    if version.isNull || found.length ≤ 1 then pure found
    else
      match ← found.filterM (isOfVersion platform.host.levels disk version) with
      | [] => .error (.noArtifactOfCompiler contract version.text)
      | narrowed => pure narrowed
  match found with
  | [path] => return path
  | _ => .error (.ambiguous contract (found.map Files.Path.text))

/-- The text of the artifact of a contract. -/
def lookUp (platform : Platform) (disk : Files.Disk) (contract : String) (source? : Option String)
    (version : Json) : Except Failure (List Char) := do
  let path ← platform.find disk contract source? version
  disk.readText path.text

end SolDeployer.Platform
