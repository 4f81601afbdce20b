import SolDeployer.Address
import SolDeployer.Linking
import SolDeployer.Proofs.Hex
import SolDeployer.Proofs.Text

/-!
# Laws of addresses

An address is written with forty digits after a mark, some of them in
capitals. Linking drops the mark and the capitals, so what is linked is
the bytes of the address (`linked_checksummed`), whatever the check says.
-/

namespace SolDeployer.Address

theorem checkedDigit_lower {digit : Char} (h : Hex.isLowerDigit digit = true) (hashDigit : Char) :
    (checkedDigit digit hashDigit).toNat < 128 ∧
      Text.lowerChar (checkedDigit digit hashDigit) = [digit] := by
  obtain ⟨hlt, hlower, hltUpper, hlowerUpper⟩ : digit.toNat < 128 ∧
      Text.lowerChar digit = [digit] ∧ digit.toUpper.toNat < 128 ∧
      Text.lowerChar digit.toUpper = [digit] := by
    refine Text.of_small (P := fun c => Hex.isLowerDigit c = true → c.toNat < 128 ∧
      Text.lowerChar c = [c] ∧ c.toUpper.toNat < 128 ∧ Text.lowerChar c.toUpper = [c]) ?_
      (Hex.lt_of_isLowerDigit h) h
    decide +kernel
  unfold checkedDigit
  split
  · exact ⟨hltUpper, hlowerUpper⟩
  · exact ⟨hlt, hlower⟩

/-- The capitals of a check are lost in small letters. -/
theorem lower_zipWith_checkedDigit : ∀ {digits hash : List Char}, digits.length ≤ hash.length →
    (∀ c ∈ digits, Hex.isLowerDigit c = true) →
    (∀ c ∈ digits.zipWith checkedDigit hash, c.toNat < 128) ∧
      (digits.zipWith checkedDigit hash).flatMap Text.lowerChar = digits
  | [], _, _, _ => by simp
  | _ :: _, [], hlength, _ => by simp at hlength
  | digit :: digits, hashDigit :: hash, hlength, hdigits => by
      obtain ⟨hascii, hlower⟩ := lower_zipWith_checkedDigit (Nat.le_of_succ_le_succ hlength)
        fun c hmem => hdigits c (List.mem_cons_of_mem _ hmem)
      obtain ⟨hlt, hdigit⟩ := checkedDigit_lower (hdigits digit (List.mem_cons_self ..)) hashDigit
      rw [List.zipWith_cons_cons]
      refine ⟨fun c hmem => ?_, ?_⟩
      · rcases List.mem_cons.mp hmem with rfl | hmem
        · exact hlt
        · exact hascii c hmem
      · rw [List.flatMap_cons, hdigit, hlower, List.singleton_append]

/-! ## Written addresses -/

theorem length_hash (message : List UInt8) : (Keccak.hash message).length = 32 := by
  simp [Keccak.hash, Keccak.bytesOf]

theorem length_create2Bytes (deployer salt initcode : List UInt8) :
    (create2Bytes deployer salt initcode).length = 20 := by
  rw [create2Bytes, List.length_drop, length_hash]

theorem addressDigits_checksummed (address : List UInt8) :
    addressDigits (checksummed address).toList =
      (Hex.ofBytes address).zipWith checkedDigit
        (Hex.ofBytes (Keccak.hash (Text.Utf8.encode (Hex.ofBytes address)))) := by
  simp only [checksummed, String.toList_append, String.toList_ofList]
  rfl

/-- What is linked of a written address: forty digits, those of its bytes. -/
theorem linked_checksummed {address : List UInt8} (h : address.length = 20) :
    (addressDigits (checksummed address).toList).length = 40 ∧
      Text.lower (addressDigits (checksummed address).toList) = Hex.ofBytes address := by
  have hhash : (Hex.ofBytes (Keccak.hash (Text.Utf8.encode (Hex.ofBytes address)))).length = 64 := by
    rw [Hex.length_ofBytes, length_hash]
  have hlength : (Hex.ofBytes address).length ≤
      (Hex.ofBytes (Keccak.hash (Text.Utf8.encode (Hex.ofBytes address)))).length := by
    rw [hhash, Hex.length_ofBytes]
    omega
  obtain ⟨hascii, hlower⟩ := lower_zipWith_checkedDigit hlength
    fun c hmem => Hex.isLowerDigit_ofBytes hmem
  rw [addressDigits_checksummed, Text.lower_ascii hascii, hlower, List.length_zipWith, hhash,
    Hex.length_ofBytes, h]
  exact ⟨rfl, rfl⟩

theorem checksummed_inj {address other : List UInt8} (h : address.length = 20)
    (hother : other.length = 20) (heq : checksummed address = checksummed other) :
    address = other := by
  refine Hex.ofBytes_inj ?_
  rw [← (linked_checksummed h).2, ← (linked_checksummed hother).2, heq]

/-! ## Addresses of created contracts -/

theorem markedBytes?_zeroSalt :
    Hex.markedBytes? zeroSalt.toList = some (List.replicate 32 0) := by decide +kernel

/-- The address depends on the bytes of the code, and there is one if it has bytes. -/
theorem create2_eq {deployer initcode : String} {bytes : List UInt8}
    (hdeployer : Hex.markedBytes? deployer.toList = some bytes) (hlength : bytes.length = 20) :
    create2 deployer initcode = match Hex.markedBytes? initcode.toList with
      | some code => .ok (checksummed (create2Bytes bytes (List.replicate 32 0) code))
      | none => .error .notHex := by
  have hsalt : (List.replicate 32 (0 : UInt8)).length = 32 := List.length_replicate
  rw [create2, hdeployer, markedBytes?_zeroSalt]
  show (if bytes.length ≠ 20 then _ else if (List.replicate 32 (0 : UInt8)).length ≠ 32 then _
    else _) = _
  exact (if_neg (not_not_intro hlength)).trans ((if_neg (not_not_intro hsalt)).trans rfl)

end SolDeployer.Address
