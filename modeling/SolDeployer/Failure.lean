import SolDeployer.Address
import SolDeployer.Artifact.Defect
import SolDeployer.Linking

/-!
# Failures

Everything that can end an operation. Some failures concern one contract
only: a batch reports them and goes on. All others end the batch.
-/

namespace SolDeployer

/-- What a platform lacks to be usable. -/
inductive PlatformPart where
  | name
  | projectUrl
  | type
  deriving Repr, DecidableEq

/-- Why an operation failed. -/
inductive Failure where
  /-- An artifact is broken. -/
  | malformed (defect : Artifact.Defect)
  /-- A contract has no bytecode. -/
  | withoutBytecode (contract : String)
  /-- A library has no bytecode. -/
  | libraryWithoutBytecode (key : String)
  /-- There is no artifact of a contract. -/
  | noArtifact (contract directory : String)
  /-- No artifact of a contract was made by a compiler. -/
  | noArtifactOfCompiler (contract version : String)
  /-- A catalogue has no document for a library. -/
  | noDocument (library : LibraryId)
  /-- There are several artifacts of a contract. -/
  | ambiguous (contract : String) (candidates : List String)
  /-- A library calls itself through others. -/
  | circular (key : String)
  /-- Several libraries share an identifier and must not be renamed. -/
  | colliding (identifier : String) (keys : List String)
  /-- A build tool is not there. -/
  | noTool (tool : String)
  /-- A build tool failed. -/
  | toolFailed (command errors : String)
  /-- A name has no address. -/
  | noAddress (name : String)
  /-- The address of a library is not twenty bytes long. -/
  | addressSize (name address : String)
  /-- An address cannot be computed from its parts. -/
  | create2 (cause : Address.Error)
  /-- A file or a document is not text, or a text has no bytes. -/
  | undecodable
  /-- A number has too many digits. -/
  | integerTooLong
  /-- A path holds a character that no path holds. -/
  | badPath
  /-- A pattern for file names makes no sense. -/
  | badPattern
  /-- A value has a type that its use does not allow. -/
  | unexpectedType
  /-- An infinite number stands where an integer should. -/
  | infinite
  /-- The file system refuses. -/
  | fileSystem
  /-- A pattern for file names begins at the root. -/
  | absolutePattern
  /-- A platform lacks a part. -/
  | incompletePlatform (part : PlatformPart) (platform : String)
  /-- More steps than allowed: a traversal goes on for too long, or too much
  is inside one another. -/
  | tooManySteps
  deriving Repr, DecidableEq

namespace Failure

def concernsContract : Failure → Bool
  | .malformed _ | .withoutBytecode _ | .libraryWithoutBytecode _ | .noArtifact .. => true
  | .noArtifactOfCompiler .. | .noDocument _ | .ambiguous .. | .circular _ => true
  | .colliding .. | .noTool _ | .toolFailed .. => true
  | _ => false

/-- The text for the cause of a failure that is not told. -/
def detail : String := "<detail>"

/-- What went wrong, in words. -/
def message : Failure → String
  | .malformed defect => defect.message
  | .withoutBytecode contract =>
    "No bytecode found for \"" ++ contract ++ "\". Is it an abstract contract or interface?"
  | .libraryWithoutBytecode key => "No bytecode found for library " ++ key
  | .noArtifact contract directory =>
    "No artifact found for \"" ++ contract ++ "\" in " ++ directory ++ ". Run `forge build` first."
  | .noArtifactOfCompiler contract version =>
    "No artifact for \"" ++ contract ++ "\" compiled with solc " ++ version ++ "."
  | .noDocument library => "no document for " ++ library.file ++ " " ++ library.name
  | .ambiguous contract candidates =>
    "Multiple artifacts found for \"" ++ contract ++ "\". Use --solc to disambiguate:\n" ++
      "\n".intercalate (candidates.map ("  " ++ ·))
  | .circular key => "Circular library dependency detected: " ++ key
  | .colliding identifier keys =>
    "Libraries " ++ ", ".intercalate keys ++ " all map to the identifier " ++ identifier
  | .noTool tool => tool ++ " not found. Is it installed and in the PATH?"
  | .toolFailed command errors => "'" ++ command ++ "' failed:\n" ++ errors
  | .noAddress name => name
  | .addressSize name address => name ++ ": " ++ address ++ " is not a 20 bytes address"
  | .create2 (.deployerSize deployer) => deployer ++ " is not a 20 bytes address"
  | .create2 (.saltSize salt) => salt ++ " is not a 32 bytes salt"
  | .incompletePlatform .name platform => "NAME is not initialized " ++ platform
  | .incompletePlatform .projectUrl platform => "PROJECT_URL is not initialized " ++ platform
  | .incompletePlatform .type platform => "TYPE is not initialized " ++ platform
  | _ => detail

/-- A misfit is a defect if it can be told. A name without bytes is not
compared, and a number with too many digits is not written. -/
def ofMisfit : Misfit → Failure
  | .nameless _ => .undecodable
  | misfit => if misfit.message?.isSome then .malformed (.misfit misfit) else .integerTooLong

def ofLinkError : LinkError → Failure
  | .missing name => .noAddress name
  | .size name digits => .addressSize name (String.ofList digits)

end Failure

end SolDeployer
