import Mathlib.Order.Bounds.Basic
import SolDeployer.Artifact.Reader
import SolDeployer.Proofs.Hex
import SolDeployer.Proofs.Report
import SolDeployer.Proofs.Segmentation.Substitution

/-!
# Slots that are left out

The characters of a bytecode are looked at with zeros in all slots. The slots
are not checked before that: they may overlap, begin before the bytecode or end
after it. A slot leaves every character at its index and puts a zero where it
covers one (`Slot.getElem?_mask`), so one slot after another does what all of
them cover, in any order (`LinkReferences.getElem?_mask`), and what is found
among the zeros is found at its own place in the bytecode.
-/

namespace SolDeployer

/-! ## Zeros in slots -/

theorem Slot.getElem?_mask (slot : Slot) (chars : List Char) (i : Nat) :
    (slot.mask chars)[i]? = if slot.covers i then chars[i]?.map fun _ => '0' else chars[i]? := by
  -- behind the last character both sides are empty, so the clipped end does not matter
  have hbound : i < chars.length ∨ chars[i]? = none := by
    rw [List.getElem?_eq_none_iff]
    omega
  unfold Slot.mask
  simp only
  split
  · rename_i hlt
    have hfirst : (chars.take (max slot.firstChar 0).toNat).length =
        (max slot.firstChar 0).toNat := by
      rw [List.length_take]
      omega
    rw [List.append_assoc]
    rcases Nat.lt_or_ge i (max slot.firstChar 0).toNat with hbefore | hafter
    · rw [List.getElem?_append_left (by omega), List.getElem?_take, if_pos hbefore, if_neg]
      rw [Slot.covers_iff]
      omega
    · rw [List.getElem?_append_right (by omega), hfirst]
      rcases Nat.lt_or_ge i (min slot.endChar chars.length).toNat with hinside | hpassed
      · have hcovers : slot.covers i = true := Slot.covers_iff.mpr (by omega)
        have hlength : i < chars.length := by omega
        rw [List.getElem?_append_left (by rw [List.length_replicate]; omega),
          List.getElem?_replicate_of_lt (by omega), if_pos hcovers,
          List.getElem?_eq_getElem hlength, Option.map_some]
      · rw [List.getElem?_append_right (by rw [List.length_replicate]; omega),
          List.length_replicate, List.getElem?_drop]
        have hindex : (min slot.endChar chars.length).toNat +
            (i - (max slot.firstChar 0).toNat -
              (min slot.endChar chars.length - max slot.firstChar 0).toNat) = i := by omega
        rw [hindex]
        rcases hbound with hlength | hnone
        · rw [if_neg]
          rw [Slot.covers_iff]
          omega
        · rw [hnone, Option.map_none, ite_self]
  · rcases hbound with hlength | hnone
    · rw [if_neg]
      rw [Slot.covers_iff]
      omega
    · rw [hnone, Option.map_none, ite_self]

namespace LinkReferences

theorem covers_iff {links : LinkReferences} {i : Nat} : links.covers i = true ↔
    ∃ placement ∈ links.placements, placement.slot.covers i = true := List.any_eq_true

theorem getElem?_mask (links : LinkReferences) (chars : List Char) (i : Nat) :
    (links.mask chars)[i]? = if links.covers i then chars[i]?.map fun _ => '0' else chars[i]? := by
  unfold mask covers
  induction links.placements generalizing chars with
  | nil => rfl
  | cons placement rest ih =>
      rw [List.foldl_cons, ih, Slot.getElem?_mask, List.any_cons]
      cases placement.slot.covers i with
      | true =>
          rw [if_pos rfl, Option.map_map, Bool.true_or, if_pos rfl]
          exact ite_self _
      | false => rw [if_neg Bool.false_ne_true, Bool.false_or]

/-- Slots that cover the same indices leave the same characters. -/
theorem mask_congr {links other : LinkReferences} (h : ∀ i, other.covers i = links.covers i)
    (chars : List Char) : other.mask chars = links.mask chars :=
  List.ext_getElem? fun i => by rw [other.getElem?_mask, links.getElem?_mask, h]

/-- Which indices are covered depends on the slots alone, not on their order or on
the libraries that they belong to. -/
theorem covers_congr {links other : LinkReferences}
    (h : ∀ slot, slot ∈ other.placements.map Placement.slot ↔
      slot ∈ links.placements.map Placement.slot) (i : Nat) : other.covers i = links.covers i := by
  have hslots (these : LinkReferences) : these.covers i = true ↔
      ∃ slot ∈ these.placements.map Placement.slot, slot.covers i = true := by
    rw [covers_iff]
    simp
  rw [Bool.eq_iff_iff, hslots, hslots]
  exact exists_congr fun slot => and_congr_left fun _ => h slot

end LinkReferences

/-! ## Characters that are not digits -/

namespace Artifact

theorem stray?_eq_some {chars : List Char} {c : Char} {i : Nat} :
    stray? chars = some (c, i) ↔ chars[i]? = some c ∧ Hex.isLowerDigit c = false ∧
      ∀ j < i, ∀ other, chars[j]? = some other → Hex.isLowerDigit other = true := by
  simp only [stray?, List.find?_eq_some_iff_getElem, List.getElem_zipIdx, List.length_zipIdx,
    Bool.not_eq_true', Bool.not_not, Prod.mk.injEq, Nat.zero_add]
  constructor
  · rintro ⟨hc, k, hk, ⟨rfl, rfl⟩, hbefore⟩
    refine ⟨List.getElem?_eq_getElem hk, hc, fun j hj other hother => ?_⟩
    obtain ⟨_, rfl⟩ := List.getElem?_eq_some_iff.mp hother
    exact hbefore j hj
  · rintro ⟨hc, hdigit, hbefore⟩
    obtain ⟨hi, rfl⟩ := List.getElem?_eq_some_iff.mp hc
    refine ⟨hdigit, i, hi, ⟨rfl, rfl⟩, fun j hj => ?_⟩
    exact hbefore j hj _ (List.getElem?_eq_getElem (Nat.lt_trans hj hi))

/-- A character that is not a small digit stands at an index that is in no slot. -/
def IsStray (bytecode : List Char) (links : LinkReferences) (i : Nat) : Prop :=
  (∃ c, bytecode[i]? = some c ∧ c ∉ "0123456789abcdef".toList) ∧
    ∀ placement ∈ links.placements, ¬(2 * placement.slot.start ≤ i ∧
      (i : Int) < 2 * (placement.slot.start + placement.slot.length))

section

variable {bytecode : List Char} {links : LinkReferences} {c : Char} {i : Nat}

/-- Among the zeros stand the characters that are not in a slot, each at its index. -/
theorem not_digit_mask :
    (links.mask bytecode)[i]? = some c ∧ Hex.isLowerDigit c = false ↔
      bytecode[i]? = some c ∧ IsStray bytecode links i := by
  have hcovers : links.covers i = false ↔ ∀ placement ∈ links.placements,
      ¬(2 * placement.slot.start ≤ i ∧
        (i : Int) < 2 * (placement.slot.start + placement.slot.length)) := by
    rw [← Bool.not_eq_true, LinkReferences.covers_iff]
    simp only [Slot.covers_iff, not_exists, not_and]
    rfl
  rw [links.getElem?_mask, ← Bool.not_eq_true, Hex.isLowerDigit_iff, IsStray, ← hcovers]
  cases links.covers i with
  | true =>
      rw [if_pos rfl]
      constructor
      · rintro ⟨hzero, hdigit⟩
        obtain ⟨_, -, rfl⟩ := Option.map_eq_some_iff.mp hzero
        exact absurd (by decide) hdigit
      · rintro ⟨-, -, hfalse⟩
        cases hfalse
  | false =>
      rw [if_neg Bool.false_ne_true]
      constructor
      · rintro ⟨hc, hdigit⟩
        exact ⟨hc, ⟨c, hc, hdigit⟩, rfl⟩
      · rintro ⟨hc, ⟨other, hother, hdigit⟩, -⟩
        obtain rfl := Option.some.inj (hc.symm.trans hother)
        exact ⟨hc, hdigit⟩

theorem stray?_mask_eq_some : stray? (links.mask bytecode) = some (c, i) ↔
    bytecode[i]? = some c ∧ IsLeast {j | IsStray bytecode links j} i := by
  rw [stray?_eq_some, ← and_assoc, not_digit_mask, and_assoc]
  refine and_congr_right fun _ => and_congr_right fun _ => ⟨fun hbefore j hj => ?_, ?_⟩
  · obtain ⟨other, hother, -⟩ := hj.1
    by_contra hlt
    obtain ⟨hmask, hdigit⟩ := not_digit_mask.mpr ⟨hother, hj⟩
    rw [hbefore j (Nat.lt_of_not_le hlt) other hmask] at hdigit
    cases hdigit
  · intro hleast j hj other hother
    by_contra hdigit
    have hstray := (not_digit_mask.mp ⟨hother, Bool.not_eq_true _ ▸ hdigit⟩).2
    exact absurd (hleast hstray) (Nat.not_le.mpr hj)

theorem stray?_mask_eq_none :
    stray? (links.mask bytecode) = none ↔ ∀ i, ¬IsStray bytecode links i := by
  constructor
  · intro hnone i hi
    obtain ⟨c, hc, -⟩ := hi.1
    obtain ⟨hmask, hdigit⟩ := not_digit_mask.mpr ⟨hc, hi⟩
    have hmem : (c, i) ∈ (links.mask bytecode).zipIdx := List.mk_mem_zipIdx_iff_getElem?.mpr hmask
    exact List.find?_eq_none.mp hnone (c, i) hmem (by simpa using hdigit)
  · intro hnone
    cases hstray : stray? (links.mask bytecode) with
    | none => rfl
    | some found =>
        obtain ⟨c, i⟩ := found
        exact absurd (stray?_mask_eq_some.mp hstray).2.1 (hnone i)

theorem bytecodeDefect?_eq_none : bytecodeDefect? bytecode links = none ↔
    bytecode.length % 2 = 0 ∧ ∀ i, ¬IsStray bytecode links i := by
  unfold bytecodeDefect?
  split
  · rename_i hodd
    simp [hodd]
  · rename_i heven
    rw [Option.map_eq_none_iff, stray?_mask_eq_none]
    simp only [Nat.mod_two_not_eq_one.mp heven, true_and]

theorem checkBytecode_eq_error {failure : Failure} :
    checkBytecode bytecode links = .error failure ↔
      ∃ defect, bytecodeDefect? bytecode links = some defect ∧ failure = .malformed defect := by
  unfold checkBytecode defective
  cases bytecodeDefect? bytecode links with
  | none => simp
  | some defect => simp [eq_comm]

theorem checkBytecode_eq_ok :
    checkBytecode bytecode links = .ok () ↔ bytecodeDefect? bytecode links = none := by
  unfold checkBytecode defective
  cases bytecodeDefect? bytecode links <;> simp

end

/-- **Stray characters.** A bytecode is refused if and only if its length is odd
or a character that is not a small digit stands outside all slots, however these
lie. In a bytecode of whole bytes the first such character is told, with the byte
that it stands in. The order of the slots and what they belong to play no part. -/
theorem bytecode_refused (bytecode : List Char) (links : LinkReferences) :
    ((∃ failure, checkBytecode bytecode links = .error failure) ↔
      bytecode.length % 2 = 1 ∨ ∃ i, IsStray bytecode links i) ∧
    (∀ failure, checkBytecode bytecode links = .error failure →
      ∃ defect, failure = .malformed defect) ∧
    (bytecode.length % 2 = 0 → ∀ failure, checkBytecode bytecode links = .error failure ↔
      ∃ c i, IsLeast {j | IsStray bytecode links j} i ∧ bytecode[i]? = some c ∧
        failure = .malformed (.strayCharacter c i) ∧
        failure.message = "Bytecode holds " ++ String.ofList (Text.quoted [c]) ++ " at byte " ++
          toString (i / 2) ++ ", outside of any link reference") ∧
    ∀ other : LinkReferences, (∀ slot, slot ∈ other.placements.map Placement.slot ↔
        slot ∈ links.placements.map Placement.slot) →
      checkBytecode bytecode other = checkBytecode bytecode links := by
  refine ⟨?_, ?_, ?_, ?_⟩
  · have hnone : (¬∃ failure, checkBytecode bytecode links = .error failure) ↔
        bytecodeDefect? bytecode links = none := by
      simp only [checkBytecode_eq_error]
      cases bytecodeDefect? bytecode links <;> simp
    rw [← not_iff_not, hnone, bytecodeDefect?_eq_none, not_or, not_exists,
      Nat.mod_two_not_eq_one]
  · intro failure hfailure
    obtain ⟨defect, -, rfl⟩ := checkBytecode_eq_error.mp hfailure
    exact ⟨defect, rfl⟩
  · intro heven failure
    rw [checkBytecode_eq_error, bytecodeDefect?, if_neg (by omega)]
    constructor
    · rintro ⟨defect, hdefect, rfl⟩
      obtain ⟨⟨c, i⟩, hstray, rfl⟩ := Option.map_eq_some_iff.mp hdefect
      obtain ⟨hc, hleast⟩ := stray?_mask_eq_some.mp hstray
      exact ⟨c, i, hleast, hc, rfl, rfl⟩
    · rintro ⟨c, i, hleast, hc, rfl, -⟩
      rw [stray?_mask_eq_some.mpr ⟨hc, hleast⟩]
      exact ⟨_, rfl, rfl⟩
  · intro other hslots
    rw [checkBytecode, checkBytecode, bytecodeDefect?, bytecodeDefect?,
      LinkReferences.mask_congr (LinkReferences.covers_congr hslots)]

/-- Slots that overlap, that begin before the bytecode or that end after it, in
two orders. -/
theorem bytecode_refused_overlapping :
    ∃ links other : LinkReferences, links = [("m.sol", [("M", [⟨1, 1⟩, ⟨-3, 6⟩])]),
        ("n.sol", [("N", [⟨2, 2⟩, ⟨100, 20⟩])])] ∧
      other = [("n.sol", [("N", [⟨100, 20⟩]), ("M", [⟨-3, 6⟩, ⟨2, 2⟩, ⟨1, 1⟩, ⟨1, 1⟩])])] ∧
      IsLeast {i | IsStray "60zzzzzzaz".toList links i} 9 ∧
      checkBytecode "60zzzzzzaz".toList other = .error (.malformed (.strayCharacter 'z' 9)) := by
  refine ⟨_, _, rfl, rfl, ?_⟩
  obtain ⟨-, -, hfirst, hcongr⟩ := bytecode_refused "60zzzzzzaz".toList
    [("m.sol", [("M", [⟨1, 1⟩, ⟨-3, 6⟩])]), ("n.sol", [("N", [⟨2, 2⟩, ⟨100, 20⟩])])]
  have hrefused : checkBytecode "60zzzzzzaz".toList
      [("m.sol", [("M", [⟨1, 1⟩, ⟨-3, 6⟩])]), ("n.sol", [("N", [⟨2, 2⟩, ⟨100, 20⟩])])] =
        .error (.malformed (.strayCharacter 'z' 9)) := eq_error_of_check (by decide +kernel)
  obtain ⟨c, i, hleast, -, hfailure, -⟩ := (hfirst (by decide) _).mp hrefused
  cases hfailure
  refine ⟨hleast, ?_⟩
  rw [hcongr _ fun slot => ?_, hrefused]
  simp only [LinkReferences.placements, List.flatMap_cons, List.flatMap_nil, List.map_cons,
    List.map_nil, List.append_nil, List.cons_append, List.nil_append, List.mem_cons,
    List.not_mem_nil, or_false]
  tauto

end Artifact

end SolDeployer
