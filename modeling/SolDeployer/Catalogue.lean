import SolDeployer.Resolution

/-!
# Catalogues

A loader that knows finitely many libraries.
-/

namespace SolDeployer

-- the plain ones, whatever other instances are around
attribute [local instance(high)] Zero.ofOfNat0

/-- The artifacts of some libraries, or why they cannot be read. -/
abbrev Catalogue := Entries LibraryId (Except Failure Artifact)

namespace Catalogue

def load (catalogue : Catalogue) : Loader := fun id =>
  (catalogue.get? id).getD (.error (.noDocument id))

/-- How many libraries the artifacts of a catalogue refer to. -/
def references (catalogue : Catalogue) : Nat :=
  (catalogue.map fun (_, artifact) =>
    match artifact with
    | .ok artifact => artifact.libraryIds.length
    | .error _ => 0).sum

/-- Resolve the libraries that link references ask for out of the
catalogue, in as many steps as the catalogue can take. -/
def resolve (catalogue : Catalogue) (disambiguate : Bool) (links : LinkReferences) : Resolution :=
  let steps := 2 * catalogue.length + catalogue.references + links.libraryIds.length + 2
  SolDeployer.resolve catalogue.load steps disambiguate links

end Catalogue

end SolDeployer
