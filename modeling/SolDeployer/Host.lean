import SolDeployer.Abi
import SolDeployer.Cbor.Decoder
import SolDeployer.Json.Reader

/-!
# Hosts

What the reading of artifacts gets from the system that it runs on. Calls
can be inside one another up to some depth only, so there is a limit to
how deep a document or a parameter may go; and the decoder for the
trailers of bytecodes comes from outside.
-/

namespace SolDeployer

/-- The limits of a system, and its decoder for trailers. -/
structure Host where
  /-- How many lists and objects of a text may be inside one another. -/
  levels : Nat
  /-- How many parameters of an interface may be inside one another. -/
  paramLevels : Nat
  /-- The map at the beginning of some bytes, if there is one. -/
  decode : List UInt8 → Option Cbor.Map

namespace Host

def usual : Host := ⟨Json.usualLevels, Abi.Param.usualLevels, Cbor.decodeMap?⟩

instance : Inhabited Host := ⟨usual⟩

end Host

end SolDeployer
