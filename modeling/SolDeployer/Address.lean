import SolDeployer.Hex
import SolDeployer.Keccak
import SolDeployer.Text.Utf8

/-!
# Addresses

The written form of an address, and the address that `CREATE2` gives to
a contract: it depends only on the creating contract, a salt and the
code, so it is known before anything is deployed.
-/

namespace SolDeployer.Address

/-- What can be wrong with the inputs of `create2`. -/
inductive Error where
  /-- A text is not made of pairs of digits. -/
  | notHex
  /-- The creating contract is not given by twenty bytes. -/
  | deployerSize (deployer : String)
  /-- The salt is not thirty-two bytes. -/
  | saltSize (salt : String)
  deriving Repr, DecidableEq

/-- A digit of an address in capitals if the digit of its hash says so. -/
def checkedDigit (digit : Char) (hashDigit : Char) : Char :=
  if 8 ≤ (Hex.digit? hashDigit).getD 0 then digit.toUpper else digit

/-- An address with the check that is in the case of its letters: the hash
of the small digits tells which letters are capital. -/
def checksummed (address : List UInt8) : String :=
  let digits := Hex.ofBytes address
  let hash := Hex.ofBytes (Keccak.hash (Text.Utf8.encode digits))
  "0x" ++ String.ofList (digits.zipWith checkedDigit hash)

def create2Bytes (deployer salt initcode : List UInt8) : List UInt8 :=
  (Keccak.hash ([0xFF] ++ deployer ++ salt ++ Keccak.hash initcode)).drop 12

/-- Thirty-two zero bytes, the salt of every library. -/
def zeroSalt : String := String.ofList (List.replicate 64 '0')

/-- The address that a contract gives to code it creates. -/
def create2 (deployer initcode : String) (salt : String := zeroSalt) : Except Error String :=
  match Hex.markedBytes? deployer.toList, Hex.markedBytes? salt.toList with
  | some deployerBytes, some saltBytes =>
    if deployerBytes.length ≠ 20 then .error (.deployerSize deployer)
    else if saltBytes.length ≠ 32 then .error (.saltSize salt)
    else
      match Hex.markedBytes? initcode.toList with
      | some initcodeBytes => .ok (checksummed (create2Bytes deployerBytes saltBytes initcodeBytes))
      | none => .error .notHex
  | _, _ => .error .notHex

end SolDeployer.Address
