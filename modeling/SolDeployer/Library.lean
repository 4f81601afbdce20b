import SolDeployer.Hex
import SolDeployer.Keccak
import SolDeployer.Text.Lowercase
import SolDeployer.Text.Utf8

/-!
# Libraries and their names

A library is known by the file that declares it and by its name. From
these come its key in messages and look-ups, the variable that holds its
address in generated code, and the placeholder that the compiler leaves
in a bytecode that calls it.
-/

namespace SolDeployer

/-- The file that declares a library, and the name of the library. -/
structure LibraryId where
  file : String
  name : String
  deriving Repr, DecidableEq, Inhabited

/-- The identifier of a library in generated code: its name, the first letter small. -/
def identifierOf (library : String) : String :=
  match library.toList with
  | [] => ""
  | first :: rest => String.ofList (Text.lower [first] ++ rest)

def deployerOf (contract : String) : String := contract ++ "Deployer"

namespace LibraryId

/-- The name of a library in messages and look-ups. Different libraries
may have one key if a colon stands in their names. -/
def key (id : LibraryId) : String := id.file ++ ":" ++ id.name

def identifier (id : LibraryId) : String := identifierOf id.name

/-- Has the key bytes? Without them there is no hash of it. -/
def hasBytes (id : LibraryId) : Bool := Text.hasBytes id.key.toList

/-- The forty characters that stand for the address of the library: a part
of the hash of its key between marks. -/
def placeholder (id : LibraryId) : List Char :=
  let hash := Hex.ofBytes (Keccak.hash (Text.Utf8.encode id.key.toList))
  "__$".toList ++ hash.take 34 ++ "$__".toList

end LibraryId

end SolDeployer
