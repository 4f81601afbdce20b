import SolDeployer.Abi
import SolDeployer.Compiler
import SolDeployer.Links

/-!
# Build artifacts

One compiled contract, as a build tool left it.
-/

namespace SolDeployer

/-- A compiled contract. The bytecode is made of small digits except in
the slots of libraries, and is empty for interfaces and for abstract
contracts. -/
structure Artifact where
  contract : String
  abi : List Abi.Entry
  bytecode : List Char
  links : LinkReferences
  source : Json
  compiler : Compiler
  deriving Inhabited, Repr

namespace Artifact

/-- Can the contract be deployed? -/
def hasBytecode (artifact : Artifact) : Bool := !artifact.bytecode.isEmpty

/-- The constructor, if the contract declares one. -/
def constructor? (artifact : Artifact) : Option Abi.Entry :=
  artifact.abi.find? Abi.Entry.isConstructor

/-- The libraries that the contract calls, in the order in which the
artifact lists them. -/
def libraryIds (artifact : Artifact) : List LibraryId := artifact.links.libraryIds

end Artifact

end SolDeployer
