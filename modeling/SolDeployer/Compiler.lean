import SolDeployer.Json

/-!
# Compiler settings

What an artifact records about the compiler that made it. Settings are
kept as they were written and are null where nothing is known.
-/

namespace SolDeployer

/-- The compiler of a contract and its settings. -/
structure Compiler where
  name : String
  version : Json
  optimizerRuns : Json
  viaIR : Json
  evmVersion : Json
  bytecodeHash : Json
  deriving Inhabited, Repr

namespace Compiler

/-- Does a version begin with some text? An unknown version does not, and
the question makes sense for texts only. -/
def versionMatches? (version start : Json) : Option Bool :=
  match version, start with
  | .null, _ => some false
  | .str version, .str start => some (start.toList.isPrefixOf version.toList)
  | _, _ => none

/-- Does the version of the compiler begin with some text? -/
def matches? (compiler : Compiler) (start : Json) : Option Bool :=
  versionMatches? compiler.version start

end Compiler

end SolDeployer
