import Mathlib.Algebra.BigOperators.Group.List.Basic
import Mathlib.Algebra.Ring.Int.Defs
import SolDeployer.Proofs.Hex
import SolDeployer.Proofs.Segmentation.RoundTrip

/-!
# Where linking moves characters

An address has forty characters whatever its slot has, and nothing asks a
slot for twenty bytes. So what stands behind a slot of another length is
moved, and `displacement` says how far: each slot that ends before an index
adds the difference. The law holds of every bytecode that is cut and
linked. Code stays where it was as long as the slots have twenty bytes,
and a shorter slot moves it.

Both laws come from one split: slots that fit come apart at the first, and
an index that is in no slot is before it or behind it.
-/

namespace SolDeployer

/-! ## Slots and addresses of different lengths -/

/-- How far behind its old place a character at an index is linked: what
the addresses before it have more than the slots had. -/
def displacementBy (placements : List Placement) (index : Int) : Int :=
  ((placements.filter fun placement => placement.slot.endChar ≤ index).map fun placement =>
    40 - 2 * placement.slot.length).sum

def LinkReferences.displacement (links : LinkReferences) (index : Int) : Int :=
  displacementBy links.placements index

theorem displacementBy_free {placements : List Placement} {index : Int}
    (h : ∀ placement ∈ placements, index < placement.slot.endChar) :
    displacementBy placements index = 0 := by
  have hnone : (placements.filter fun placement => decide (placement.slot.endChar ≤ index)) = [] := by
    rw [List.filter_eq_nil_iff]
    intro placement hmem hend
    have hfree := h placement hmem
    have hle := of_decide_eq_true hend
    omega
  rw [displacementBy, hnone]
  rfl

theorem displacementBy_passed {placement : Placement} {rest : List Placement} {index : Int}
    (h : placement.slot.endChar ≤ index) :
    displacementBy (placement :: rest) index =
      40 - 2 * placement.slot.length + displacementBy rest index := by
  simp only [displacementBy, List.filter_cons, decide_eq_true h, if_true, List.map_cons,
    List.sum_cons]

theorem displacementBy_perm {placements others : List Placement} (h : placements.Perm others)
    (index : Int) : displacementBy placements index = displacementBy others index :=
  ((h.filter _).map _).sum_eq

theorem displacementBy_whole {placements : List Placement}
    (h : ∀ placement ∈ placements, placement.slot.length = 20) (index : Int) :
    displacementBy placements index = 0 := by
  induction placements with
  | nil => rfl
  | cons placement rest ih =>
      have hlength := h placement (List.mem_cons_self ..)
      have hrest := ih fun other hmem => h other (List.mem_cons_of_mem _ hmem)
      by_cases hend : placement.slot.endChar ≤ index
      · rw [displacementBy_passed hend, hrest, hlength]
        rfl
      · simp only [displacementBy, List.filter_cons, decide_eq_false hend]
        exact hrest

/-! ## Texts of forty characters in the slots -/

section

variable {size cursor : Nat} {placements : List Placement} {text : Placement → List Char}
  {left : List Char}

theorem length_substitutedFrom (h : Fits size cursor placements)
    (hleft : cursor + left.length = size)
    (htext : ∀ placement ∈ placements, (text placement).length = 40) :
    ((substitutedFrom placements text cursor left).length : Int) =
      left.length + displacementBy placements size := by
  induction placements generalizing cursor left with
  | nil =>
      have hfree : substitutedFrom [] text cursor left = left :=
        substitutedFrom_free fun placement hmem => absurd hmem List.not_mem_nil
      simp [hfree, displacementBy]
  | cons placement rest ih =>
      obtain ⟨hend, hrest, hsize⟩ := h.advance hleft
      obtain ⟨hfirst, hlt, hlast⟩ := h.bounds (List.mem_cons_self ..)
      -- what follows the first slot is longer by what the other slots say
      have hlater := ih hrest hsize fun other hmem => htext other (List.mem_cons_of_mem _ hmem)
      have hforty := htext placement (List.mem_cons_self ..)
      have hslot : placement.slot.endChar - placement.slot.firstChar = 2 * placement.slot.length := by
        unfold Slot.endChar Slot.firstChar
        omega
      rw [substitutedFrom_cons h hleft, displacementBy_passed hlast]
      simp only [List.length_append, List.length_take, hforty]
      omega

/-- A character in no slot is found behind its old place by as much as the
slots before it say. -/
theorem getElem?_substitutedFrom (h : Fits size cursor placements)
    (hleft : cursor + left.length = size)
    (htext : ∀ placement ∈ placements, (text placement).length = 40) {index : Nat}
    (hcursor : cursor ≤ index) (hfree : ∀ placement ∈ placements, ¬placement.slot.covers index) :
    ∃ place : Nat, (place : Int) = index - cursor + displacementBy placements index ∧
      (substitutedFrom placements text cursor left)[place]? = left[index - cursor]? := by
  induction placements generalizing cursor left with
  | nil =>
      have hsame : substitutedFrom [] text cursor left = left :=
        substitutedFrom_free fun placement hmem => absurd hmem List.not_mem_nil
      refine ⟨index - cursor, ?_, by rw [hsame]⟩
      rw [displacementBy_free fun placement hmem => absurd hmem List.not_mem_nil]
      omega
  | cons placement rest ih =>
      obtain ⟨hend, hrest, hsize⟩ := h.advance hleft
      obtain ⟨hfirst, hlt, hlast⟩ := h.bounds (List.mem_cons_self ..)
      have hforty := htext placement (List.mem_cons_self ..)
      have houtside : (index : Int) < placement.slot.firstChar ∨ placement.slot.endChar ≤ index := by
        have hnot := hfree placement (List.mem_cons_self ..)
        rw [Slot.covers_iff] at hnot
        omega
      have htake : (left.take (placement.slot.firstChar - cursor).toNat).length =
          (placement.slot.firstChar - cursor).toNat := by
        rw [List.length_take]
        omega
      rw [substitutedFrom_cons h hleft]
      rcases houtside with hbefore | hafter
      · -- no slot ends before the first one begins
        refine ⟨index - cursor, ?_, ?_⟩
        · rw [displacementBy_free]
          · omega
          · intro other hother
            rcases List.mem_cons.mp hother with rfl | hother
            · omega
            · have hbounds := hrest.bounds hother
              omega
        · rw [List.getElem?_append_left (by omega), List.getElem?_take_of_lt (by omega)]
      · -- the first slot moves all that is behind it
        obtain ⟨place, hplace, hfound⟩ := ih hrest hsize
          (fun other hmem => htext other (List.mem_cons_of_mem _ hmem)) (by omega)
          fun other hmem => hfree other (List.mem_cons_of_mem _ hmem)
        have hslot : placement.slot.endChar - placement.slot.firstChar =
            2 * placement.slot.length := by
          unfold Slot.endChar Slot.firstChar
          omega
        refine ⟨(placement.slot.firstChar - cursor).toNat + 40 + place, ?_, ?_⟩
        · rw [displacementBy_passed hafter]
          omega
        · rw [List.getElem?_append_right (by omega), htake, List.getElem?_append_right (by omega),
            hforty, show (placement.slot.firstChar - cursor).toNat + 40 + place -
              (placement.slot.firstChar - cursor).toNat - 40 = place by omega, hfound,
            List.getElem?_drop]
          congr 1
          omega

end

/-! ## Linking -/

/-- There is an address for a variable: forty digits of either case, after
a mark or without one. -/
def HasHexAddress (addresses : Entries String String) (name : String) : Prop :=
  ∃ text, addresses.get? name = some text ∧ (addressDigits text.toList).length = 40 ∧
    ∀ c ∈ addressDigits text.toList, (Hex.digit? c).isSome = true

theorem HasHexAddress.hasAddress {addresses : Entries String String} {name : String}
    (h : HasHexAddress addresses name) : HasAddress addresses name := by
  obtain ⟨text, hget, hlength, -⟩ := h
  exact ⟨text, hget, hlength⟩

theorem HasHexAddress.linkedAddress {addresses : Entries String String} {name : String}
    (h : HasHexAddress addresses name) :
    (linkedAddress addresses name).length = 40 ∧
      ∀ c ∈ linkedAddress addresses name, Hex.isLowerDigit c = true := by
  obtain ⟨text, hget, hlength, hdigits⟩ := h
  obtain ⟨hlower, hsmall⟩ := Hex.lower_digits hdigits
  have hlinked : SolDeployer.linkedAddress addresses name =
      Text.lower (addressDigits text.toList) := by
    simp only [SolDeployer.linkedAddress, hget]
  rw [hlinked]
  exact ⟨hlower.trans hlength, hsmall⟩

section

variable {bytecode : List Char} {links : LinkReferences} {code : Segmentation}
  {addresses : Entries String String}

theorem linkedAddress_variableIn (h : segment bytecode links = .ok code)
    (haddresses : ∀ parameter ∈ code.parameters, HasHexAddress addresses parameter.name)
    {placement : Placement} (hmem : placement ∈ links.byPosition) :
    HasHexAddress addresses (variableIn links.byPosition placement.library) := by
  obtain ⟨parameter, hparameter, -, hname⟩ := variableIn_mem hmem
  rw [← segment_parameters h] at hparameter
  rw [← hname]
  exact haddresses parameter hparameter

/-- **Movement.** A bytecode that is cut can be linked, and the result is
longer by as much as its addresses are than its slots. A character that is
in no slot is moved by as much as the slots before it say. If all slots
have twenty bytes, the length stays and no character outside them moves. -/
theorem link_displaces (h : segment bytecode links = .ok code)
    (haddresses : ∀ parameter ∈ code.parameters, HasHexAddress addresses parameter.name) :
    ∃ linked, link addresses code.segments = .ok linked ∧
      (linked.length : Int) = bytecode.length + links.displacement bytecode.length ∧
      (∀ index : Nat, ¬links.covers index → ∃ place : Nat,
        (place : Int) = index + links.displacement index ∧ linked[place]? = bytecode[index]?) ∧
      ((∀ placement ∈ links.placements, placement.slot.length = 20) →
        linked.length = bytecode.length ∧
        ∀ index : Nat, ¬links.covers index → linked[index]? = bytecode[index]?) := by
  have hperm : links.byPosition.Perm links.placements := sortBy_perm _
  obtain ⟨hfits, -⟩ := segment_ok h
  have hforty : ∀ placement ∈ links.byPosition, (linkedAddress addresses
      (variableIn links.byPosition placement.library)).length = 40 := by
    intro placement hmem
    exact (linkedAddress_variableIn h haddresses hmem).linkedAddress.1
  have hlength := length_substitutedFrom hfits (Nat.zero_add _) hforty
  rw [← LinkReferences.substituted_eq hfits, displacementBy_perm hperm] at hlength
  have hplace : ∀ index : Nat, ¬links.covers index → ∃ place : Nat,
      (place : Int) = index + links.displacement index ∧ (links.substituted bytecode
        fun placement => linkedAddress addresses
          (variableIn links.byPosition placement.library))[place]? = bytecode[index]? := by
    intro index hcovers
    obtain ⟨place, hplace, hfound⟩ := getElem?_substitutedFrom hfits (Nat.zero_add _) hforty
      (Nat.zero_le index) fun placement hmem hin => hcovers
        (List.any_eq_true.mpr ⟨placement, hperm.mem_iff.mp hmem, hin⟩)
    rw [← LinkReferences.substituted_eq hfits] at hfound
    refine ⟨place, ?_, hfound⟩
    simpa [displacementBy_perm hperm, LinkReferences.displacement] using hplace
  refine ⟨_, link_eq_substituted h fun parameter hmem => (haddresses parameter hmem).hasAddress,
    hlength, hplace, ?_⟩
  intro hwhole
  have hstay : ∀ index, links.displacement index = 0 := displacementBy_whole hwhole
  refine ⟨?_, ?_⟩
  · have hzero := hstay bytecode.length
    rw [LinkReferences.displacement] at hzero
    rw [hzero, add_zero] at hlength
    exact_mod_cast hlength
  · intro index hcovers
    obtain ⟨place, heq, hfound⟩ := hplace index hcovers
    rw [hstay] at heq
    obtain rfl : place = index := by omega
    exact hfound

end

/-- A slot of two bytes and one of twenty: the first moves the rest by 36
characters. -/
theorem link_displaces_mixed :
    ∃ code linked, segment ("6000005b".toList ++ List.replicate 40 '0' ++ "00".toList)
        [("c.sol", [("C", [⟨1, 2⟩, ⟨4, 20⟩])])] = .ok code ∧
      link [("c", "0x" ++ String.ofList (List.replicate 40 'A'))] code.segments = .ok linked ∧
      linked.length = 86 ∧ linked[42]? = some '5' := by
  have hcode : segment ("6000005b".toList ++ List.replicate 40 '0' ++ "00".toList)
      [("c.sol", [("C", [⟨1, 2⟩, ⟨4, 20⟩])])] =
      .ok ⟨[.hex "60".toList, .address "c", .hex "5b".toList, .address "c", .hex "00".toList],
        [⟨"c", ⟨"c.sol", "C"⟩⟩]⟩ := by decide +kernel
  have haddresses : ∀ parameter ∈ [(⟨"c", ⟨"c.sol", "C"⟩⟩ : Parameter)],
      HasHexAddress [("c", "0x" ++ String.ofList (List.replicate 40 'A'))] parameter.name := by
    intro parameter hmem
    obtain rfl := List.mem_singleton.mp hmem
    exact ⟨_, rfl, by decide +kernel, List.all_eq_true.mp (by decide +kernel)⟩
  obtain ⟨linked, hlinked, hlength, hmoved, -⟩ := link_displaces hcode haddresses
  have hafter : LinkReferences.displacement [("c.sol", [("C", [⟨1, 2⟩, ⟨4, 20⟩])])] 50 = 36 := by
    decide +kernel
  have hjump : LinkReferences.displacement [("c.sol", [("C", [⟨1, 2⟩, ⟨4, 20⟩])])] 6 = 36 := by
    decide +kernel
  obtain ⟨place, hplace, hfound⟩ := hmoved 6 (by decide)
  refine ⟨_, linked, hcode, hlinked, ?_, ?_⟩
  · have hsize : (("6000005b".toList ++ List.replicate 40 '0' ++ "00".toList).length : Int) = 50 := by
      decide +kernel
    rw [hsize, hafter] at hlength
    omega
  · obtain rfl : place = 42 := by
      push_cast at hplace
      omega
    exact hfound.trans (by decide +kernel)

/-- A slot of two bytes is accepted, and the code after it is moved: the
linked bytecode is longer, and another byte stands where `5b` stood. -/
theorem link_moves_code :
    ∃ code linked, segment "6000005b".toList [("c.sol", [("C", [⟨1, 2⟩])])] = .ok code ∧
      (∀ parameter ∈ code.parameters,
        HasHexAddress [("c", String.ofList (List.replicate 40 '1'))] parameter.name) ∧
      link [("c", String.ofList (List.replicate 40 '1'))] code.segments = .ok linked ∧
      linked.length ≠ "6000005b".toList.length ∧
      LinkReferences.covers [("c.sol", [("C", [⟨1, 2⟩])])] 6 = false ∧
      linked[6]? ≠ "6000005b".toList[6]? := by
  refine ⟨⟨[.hex "60".toList, .address "c", .hex "5b".toList], [⟨"c", ⟨"c.sol", "C"⟩⟩]⟩,
    "60".toList ++ List.replicate 40 '1' ++ "5b".toList, by decide +kernel, ?_, by decide +kernel,
    by decide +kernel, by decide +kernel, by decide +kernel⟩
  intro parameter hmem
  obtain rfl := List.mem_singleton.mp hmem
  exact ⟨_, rfl, by decide +kernel, List.all_eq_true.mp (by decide +kernel)⟩

end SolDeployer
