import SolDeployer.Cbor.Decoder
import SolDeployer.Hex
import SolDeployer.Text.Integer

/-!
# The trailer of a bytecode

The compiler ends a bytecode with a map of facts about the build: the
last two bytes are the length of the map that stands before them. The map
is in CBOR and may hold the version of the compiler and a hash of the
sources.
-/

namespace SolDeployer

/-- The map at the end of a bytecode. -/
abbrev Trailer := Cbor.Map

namespace Trailer

/-- The bytes before the length at the end of the digits of a bytecode, as
many as the length says. It is read leniently, so it may be zero or larger
than the bytecode; then there are none. It may be negative too: no bytes
stand behind the length. -/
def payload? (bytecode : List Char) : Option (List UInt8) :=
  if bytecode.length < 4 then none
  else
    let body := bytecode.take (bytecode.length - 4)
    match Text.integer? 16 (bytecode.drop (bytecode.length - 4)) with
    | none => none
    | some length =>
      let start := (body.length : Int) - 2 * length
      if length = 0 ∨ start < 0 then none else Hex.spacedBytes? (body.drop start.toNat)

/-- The map at the end of the digits of a bytecode, as a decoder finds it in
the bytes. It finds none if it fails or if something else is in them. -/
def foundBy (decode : List UInt8 → Option Cbor.Map) (bytecode : List Char) : Option Trailer :=
  (payload? bytecode).bind decode

/-- The map at the end of the digits of a bytecode, as the usual decoder
finds it. -/
def ofBytecode? (bytecode : List Char) : Option Trailer := foundBy Cbor.decodeMap? bytecode

/-- The names of the hashes, the preferred one first. -/
def hashNames : List String := ["ipfs", "bzzr1", "bzzr0"]

/-- The name of the hash in a trailer, `none` in words if it has none. -/
def hashKind (trailer : Trailer) : String :=
  (hashNames.find? fun name => trailer.contains (.text name)).getD "none"

/-- The version of the compiler in a trailer: three numbers for a release,
a text for any other build. -/
def solcVersion? (trailer : Trailer) : Option String :=
  match trailer.get? (.text "solc") with
  | some (.bytes [major, minor, patch]) =>
    some (".".intercalate [toString major.toNat, toString minor.toNat, toString patch.toNat])
  | some (.text version) => some version
  | _ => none

end Trailer

end SolDeployer
