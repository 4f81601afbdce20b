import SolDeployer.Entries
import SolDeployer.Segmentation
import SolDeployer.Text.Lowercase

/-!
# Linking

Addresses put into the places that wait for them. The result is a
bytecode that can be deployed.
-/

namespace SolDeployer

/-- Why a bytecode cannot be linked. -/
inductive LinkError where
  /-- There is no address for a variable. -/
  | missing (name : String)
  /-- The address for a variable is not twenty bytes long. -/
  | size (name : String) (address : List Char)
  deriving Repr, DecidableEq

/-- The digits of an address, which may begin with `0x`. -/
def addressDigits : List Char → List Char
  | '0' :: 'x' :: digits => digits
  | digits => digits

/-- The digits that take the place of a segment. -/
def Segment.linked (addresses : Entries String String) : Segment → Except LinkError (List Char)
  | .hex digits => .ok digits
  | .address name =>
    match addresses.get? name with
    | none => .error (.missing name)
    | some text =>
      let digits := addressDigits text.toList
      if digits.length = 40 then .ok (Text.lower digits) else .error (.size name digits)

/-- The bytecode with an address in every place. -/
def link (addresses : Entries String String) : List Segment → Except LinkError (List Char)
  | [] => .ok []
  | segment :: rest =>
    match segment.linked addresses with
    | .error e => .error e
    | .ok digits =>
      match link addresses rest with
      | .error e => .error e
      | .ok more => .ok (digits ++ more)

end SolDeployer
