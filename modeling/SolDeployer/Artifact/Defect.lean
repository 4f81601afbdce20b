import SolDeployer.Segmentation
import SolDeployer.Text.Printable

/-!
# Defects of artifacts

What can be wrong with an artifact, and how it is told.
-/

namespace SolDeployer.Artifact

/-- What is wrong with an artifact. -/
inductive Defect where
  | notJson
  | notAnObject
  /-- A value has a type that its place does not allow. -/
  | shape (contract : String)
  | interface
  | bytecodeType
  | references
  | referencesOfFile (file : String)
  | referencesOfLibrary (library : LibraryId)
  /-- A reference lacks one of its offsets. -/
  | missingOffset (library : LibraryId) (field : String)
  /-- A reference has an offset that is not a number. -/
  | badOffset (library : LibraryId)
  | oddLength (length : Nat)
  /-- A character that is not a digit stands outside the slots. -/
  | strayCharacter (c : Char) (index : Nat)
  | settings
  /-- A slot does not fit into the bytecode, and this can be told. -/
  | misfit (cause : Misfit)
  deriving Repr, DecidableEq

namespace Defect

/-- What is wrong, in words. -/
def message : Defect → String
  | .notJson => "Artifact is not valid JSON: "
  | .notAnObject => "Artifact is not a JSON object"
  | .shape contract => "Artifact of " ++ contract ++ " has an unexpected shape: "
  | .interface => "abi must be a list of objects"
  | .bytecodeType => "bytecode must be a hex string"
  | .references => "linkReferences must be an object"
  | .referencesOfFile file => "linkReferences of " ++ file ++ " must be an object"
  | .referencesOfLibrary library => "Link references of " ++ library.key ++ " must be a list"
  | .missingOffset library field =>
    "Invalid link reference for " ++ library.key ++ ": " ++
      String.ofList (Text.quoted field.toList)
  | .badOffset library => "Invalid link reference for " ++ library.key ++ ": "
  | .oddLength length => "Bytecode has an odd length (" ++ toString length ++ ")"
  | .strayCharacter c index =>
    "Bytecode holds " ++ String.ofList (Text.quoted [c]) ++ " at byte " ++ toString (index / 2) ++
      ", outside of any link reference"
  | .settings => "metadata.settings must be an object"
  | .misfit cause => cause.message?.getD ""

end Defect

end SolDeployer.Artifact
