import SolDeployer.Proofs.Segmentation.Partition

/-!
# Cutting and linking

A bytecode that was cut is linked with addresses in exactly its slots, and
with the texts that stood in the slots it is what it was before.

The slots of a library have its address as far as keys tell libraries
apart. Libraries with one key count as one, and the variable is called
after the one whose slot comes first (`linked_by_first_name`).
-/

namespace SolDeployer

/-- What a cut bytecode is made of. -/
theorem segment_ok {bytecode : List Char} {links : LinkReferences} {code : Segmentation}
    (h : segment bytecode links = .ok code) :
    Fits bytecode.length 0 links.byPosition ∧
      (links.byPosition = [] ∧ code = ⟨[.hex bytecode], []⟩ ∨
        links.byPosition ≠ [] ∧ code = ⟨cut (parametersOf links.byPosition) 0 bytecode
          links.byPosition, parametersOf links.byPosition⟩) := by
  unfold segment at h
  split at h
  · rename_i hnil
    rw [hnil]
    exact ⟨trivial, .inl ⟨rfl, (Except.ok.inj h).symm⟩⟩
  · rename_i hne
    split at h
    · cases h
    · rename_i accepted hfitting
      refine ⟨(fitting_eq_none.mp (by rw [hfitting])).1, .inr ⟨fun hnil => hne hnil, ?_⟩⟩
      exact (Except.ok.inj h).symm

theorem segment_parameters {bytecode : List Char} {links : LinkReferences} {code : Segmentation}
    (h : segment bytecode links = .ok code) : code.parameters = parametersOf links.byPosition := by
  obtain ⟨-, ⟨hnil, rfl⟩ | ⟨-, rfl⟩⟩ := segment_ok h
  · rw [hnil]
    rfl
  · rfl

/-- The pieces with texts in the places of the addresses are the bytecode
with those texts in its slots. -/
theorem refill_segment {bytecode : List Char} {links : LinkReferences} {code : Segmentation}
    (h : segment bytecode links = .ok code) (text : Placement → List Char) :
    refill (links.byPosition.map text) code.segments = some (links.substituted bytecode text) := by
  obtain ⟨hfits, hcode⟩ := segment_ok h
  rw [LinkReferences.substituted_eq hfits]
  rcases hcode with ⟨hnil, rfl⟩ | ⟨-, rfl⟩
  · have hfree : substitutedFrom [] text 0 bytecode = bytecode :=
      substitutedFrom_free fun placement hmem => absurd hmem List.not_mem_nil
    simp [hnil, hfree, refill]
  · exact refill_cut _ text hfits (Nat.zero_add _)

theorem addressNames_segment {bytecode : List Char} {links : LinkReferences} {code : Segmentation}
    (h : segment bytecode links = .ok code) :
    addressNames code.segments =
      links.byPosition.map fun placement => variableIn links.byPosition placement.library := by
  obtain ⟨-, ⟨hnil, rfl⟩ | ⟨-, rfl⟩⟩ := segment_ok h
  · rw [hnil]
    rfl
  · simp only [addressNames_cut, nameIn_parametersOf]

theorem LinkReferences.substituted_read {links : LinkReferences} {bytecode : List Char}
    (h : Fits bytecode.length 0 links.byPosition) :
    links.substituted bytecode (fun placement => placement.slot.read bytecode) = bytecode := by
  rw [LinkReferences.substituted_eq h]
  have hsize : 0 + (bytecode.drop 0).length = bytecode.length := Nat.zero_add _
  exact substitutedFrom_read h hsize

/-- Linking puts into each slot the address of the variable for its library. -/
theorem link_eq_substituted {bytecode : List Char} {links : LinkReferences} {code : Segmentation}
    {addresses : Entries String String} (h : segment bytecode links = .ok code)
    (haddresses : ∀ parameter ∈ code.parameters, HasAddress addresses parameter.name) :
    link addresses code.segments = .ok (links.substituted bytecode fun placement =>
      linkedAddress addresses (variableIn links.byPosition placement.library)) := by
  have hnames : ∀ name ∈ addressNames code.segments, HasAddress addresses name := by
    rw [addressNames_segment h]
    intro name hmem
    obtain ⟨placement, hplacement, rfl⟩ := List.mem_map.mp hmem
    obtain ⟨parameter, hparameter, -, hname⟩ := variableIn_mem hplacement
    rw [← segment_parameters h] at hparameter
    rw [← hname]
    exact haddresses parameter hparameter
  obtain ⟨linked, hlink, hrefill⟩ := link_ok hnames
  rw [addressNames_segment h, List.map_map, refill_segment h] at hrefill
  rw [hlink, ← Option.some.inj hrefill]
  rfl

/-- **Round trip.** Linking replaces exactly the slots, each by the address
of the variable for its library. With the texts that stood in the slots
the pieces are the bytecode again. No piece of digits is empty if there
are slots, and no two of them are neighbours. -/
theorem link_segment {bytecode : List Char} {links : LinkReferences} {code : Segmentation}
    {addresses : Entries String String} (h : segment bytecode links = .ok code)
    (haddresses : ∀ parameter ∈ code.parameters, HasAddress addresses parameter.name) :
    link addresses code.segments = .ok (links.substituted bytecode fun placement =>
        linkedAddress addresses (variableIn links.byPosition placement.library)) ∧
      (∀ placement ∈ links.placements,
        (∀ other ∈ links.placements, other.library.key = placement.library.key →
          other.library.identifier = placement.library.identifier) →
        variableIn links.byPosition placement.library = placement.library.identifier) ∧
      refill (links.byPosition.map fun placement => placement.slot.read bytecode) code.segments =
        some bytecode ∧
      (links.placements ≠ [] → Segment.hex [] ∉ code.segments) ∧
      code.segments.IsChain fun a b => ¬(a.isHex ∧ b.isHex) := by
  have hperm : links.byPosition.Perm links.placements := sortBy_perm _
  obtain ⟨hfits, hcode⟩ := segment_ok h
  refine ⟨?_, fun placement _ hsame => ?_, ?_, fun hne => ?_, ?_⟩
  · exact link_eq_substituted h haddresses
  · exact variableIn_eq fun other hother => hsame other (hperm.mem_iff.mp hother)
  · rw [refill_segment h, LinkReferences.substituted_read hfits]
  · rcases hcode with ⟨hnil, -⟩ | ⟨-, rfl⟩
    · rw [hnil] at hperm
      exact absurd hperm.nil_eq.symm hne
    · exact hex_nil_notMem_cut _ _ _ _
  · rcases hcode with ⟨-, rfl⟩ | ⟨-, rfl⟩
    · exact .singleton _
    · exact isChain_cut ..

/-- Slots of two libraries side by side, listed out of order. -/
theorem link_segment_adjacent :
    ∃ code, segment "aa11223344bb".toList
        [("b.sol", [("B", [⟨2, 2⟩])]), ("a.sol", [("A", [⟨1, 1⟩, ⟨4, 1⟩])])] = .ok code ∧
      link [("a", "0x00000000000000000000000000000000000000Aa"),
          ("b", "BB00000000000000000000000000000000000000")] code.segments =
        .ok ("aa00000000000000000000000000000000000000aabb00000000000000000000000000000000000000" ++
          "00000000000000000000000000000000000000aabb").toList := by
  have hcode : segment "aa11223344bb".toList
      [("b.sol", [("B", [⟨2, 2⟩])]), ("a.sol", [("A", [⟨1, 1⟩, ⟨4, 1⟩])])] =
      .ok ⟨[.hex "aa".toList, .address "a", .address "b", .address "a", .hex "bb".toList],
        [⟨"a", ⟨"a.sol", "A"⟩⟩, ⟨"b", ⟨"b.sol", "B"⟩⟩]⟩ := by decide +kernel
  refine ⟨_, hcode, (link_segment hcode fun parameter hmem => ?_).1.trans (by decide +kernel)⟩
  rcases List.mem_cons.mp hmem with rfl | hmem
  · exact ⟨_, rfl, by decide +kernel⟩
  · rcases List.mem_cons.mp hmem with rfl | hmem
    · exact ⟨_, rfl, by decide +kernel⟩
    · cases hmem

/-- Two libraries with one key: the second slot gets the address of the
variable that is called after the first. -/
theorem linked_by_first_name :
    segment (List.replicate 80 '0')
        [("a:b", [("c", [⟨0, 20⟩])]), ("a", [("b:c", [⟨20, 20⟩])])] =
      .ok ⟨[.address "c", .address "c"], [⟨"c", ⟨"a:b", "c"⟩⟩]⟩ ∧
    link [("c", String.ofList (List.replicate 40 '1')), ("b:c", String.ofList (List.replicate 40 '2'))]
        [.address "c", .address "c"] ≠
      .ok (LinkReferences.substituted [("a:b", [("c", [⟨0, 20⟩])]), ("a", [("b:c", [⟨20, 20⟩])])]
        (List.replicate 80 '0') fun placement =>
          linkedAddress [("c", String.ofList (List.replicate 40 '1')),
            ("b:c", String.ofList (List.replicate 40 '2'))] placement.library.identifier) := by
  decide +kernel

end SolDeployer
