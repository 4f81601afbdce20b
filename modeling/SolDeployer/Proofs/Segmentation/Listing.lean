import SolDeployer.Proofs.Segmentation.Acceptance

/-!
# The order in which slots are listed

A build tool lists slots by file and by library. How it orders them plays
no part in what a bytecode is cut into: two lists of the same slots are
both refused, or have the same pieces and the same parameters.

It does play a part in how they are refused. Slots that begin at one byte
stay in the order of the list, so the first misfit may be another one. That
makes no difference to what kind of failure it is only where all misfits
are defects.

Cutting looks at the slots by position only, and sorting leaves slots that
begin at one byte in the order of the list. Slots that fit have no byte in
common, so no two begin at one (`Fits.starts_increase`), and then there is
one way to sort them (`byPosition_eq`). Slots that do not fit may be
refused because of different ones.

The parameters go by first use. As the starts increase, the first slot of a
key is the one with the smallest start (`isLeast_startsOf_head`).
-/

namespace SolDeployer

/-- Where the slots of the libraries with a key begin. -/
def startsOf (placements : List Placement) (key : String) : Set Int :=
  {start | ∃ placement ∈ placements, placement.library.key = key ∧ placement.slot.start = start}

/-- What a cut bytecode says about its slots. The parameters have the keys
of the slots, each key once, by the smallest start of a slot. The variables
in the pieces are those of the slots one by one, by their starts. -/
structure Segmentation.ListsSlots (code : Segmentation) (placements : List Placement) :
    Prop where
  keys_nodup : (code.parameters.map (·.library.key)).Nodup
  mem_keys : ∀ key, key ∈ code.parameters.map (·.library.key) ↔
    ∃ placement ∈ placements, placement.library.key = key
  first_use : code.parameters.Pairwise fun a b => ∃ first second,
    IsLeast (startsOf placements a.library.key) first ∧
      IsLeast (startsOf placements b.library.key) second ∧ first < second
  slots : ∃ ordered : List Placement, ordered.Perm placements ∧
    (ordered.Pairwise fun a b => a.slot.start < b.slot.start) ∧
    List.Forall₂ (fun name placement => ∃ parameter ∈ code.parameters,
      parameter.library.key = placement.library.key ∧ parameter.name = name)
      (addressNames code.segments) ordered

/-! ## One way to sort -/

theorem LinkReferences.FitInto.perm {links others : LinkReferences} {size : Int}
    (h : links.FitInto size) (hperm : links.placements.Perm others.placements) :
    others.FitInto size :=
  ⟨fun placement hmem => h.inside placement (hperm.mem_iff.mpr hmem),
    (hperm.pairwise_iff fun hdisjoint => hdisjoint.symm).mp h.disjoint⟩

/-- Slots that fit are the same by position, however they are listed. -/
theorem LinkReferences.FitInto.byPosition_eq {links others : LinkReferences} {size : Int}
    (h : links.FitInto size) (hperm : links.placements.Perm others.placements) :
    links.byPosition = others.byPosition := by
  have hlinks := (fits_byPosition_iff.mpr h).starts_increase
  have hothers := (fits_byPosition_iff.mpr (h.perm hperm)).starts_increase
  have hsame : links.byPosition.Perm others.byPosition :=
    links.byPosition_perm.trans (hperm.trans others.byPosition_perm.symm)
  refine List.Perm.eq_of_pairwise (fun a b _ _ hab hba => ?_) hlinks hothers hsame
  omega

theorem LinkReferences.AreComparable.perm {links others : LinkReferences} {bytecode : List Char}
    (h : links.AreComparable bytecode) (hperm : links.placements.Perm others.placements) :
    others.AreComparable bytecode :=
  fun placement hmem => h placement (hperm.mem_iff.mpr hmem)

theorem segment_congr (bytecode : List Char) {links others : LinkReferences}
    (h : links.byPosition = others.byPosition) :
    segment bytecode links = segment bytecode others := by
  unfold segment
  rw [h]

/-! ## Smallest starts -/

theorem startsOf_perm {placements others : List Placement} (h : placements.Perm others)
    (key : String) : startsOf placements key = startsOf others key := by
  ext start
  simp only [startsOf, Set.mem_ofPred_eq, h.mem_iff]

theorem startsOf_cons_of_ne {placement : Placement} {rest : List Placement} {key : String}
    (h : placement.library.key ≠ key) : startsOf (placement :: rest) key = startsOf rest key := by
  ext start
  simp [startsOf, h]

theorem isLeast_startsOf_head {placement : Placement} {rest : List Placement}
    (hstarts : ∀ other ∈ rest, placement.slot.start < other.slot.start) :
    IsLeast (startsOf (placement :: rest) placement.library.key) placement.slot.start := by
  refine ⟨⟨placement, List.mem_cons_self .., rfl, rfl⟩, ?_⟩
  rintro start ⟨other, hmem, -, rfl⟩
  rcases List.mem_cons.mp hmem with rfl | hmem
  · exact Int.le_refl _
  · exact Int.le_of_lt (hstarts other hmem)

theorem exists_isLeast_startsOf {placements : List Placement} {key : String}
    (hstarts : placements.Pairwise fun a b => a.slot.start < b.slot.start)
    (hkey : ∃ placement ∈ placements, placement.library.key = key) :
    ∃ start, IsLeast (startsOf placements key) start := by
  induction placements with
  | nil =>
      obtain ⟨placement, hmem, -⟩ := hkey
      cases hmem
  | cons placement rest ih =>
      obtain ⟨hfirst, hrest⟩ := List.pairwise_cons.mp hstarts
      by_cases hhead : placement.library.key = key
      · rw [← hhead]
        exact ⟨_, isLeast_startsOf_head hfirst⟩
      · obtain ⟨other, hmem, hother⟩ := hkey
        rcases List.mem_cons.mp hmem with rfl | hmem
        · exact absurd hother hhead
        · rw [startsOf_cons_of_ne hhead]
          exact ih hrest ⟨other, hmem, hother⟩

/-! ## Parameters -/

theorem mem_keys_parametersOf {placements : List Placement} {key : String} :
    key ∈ (parametersOf placements).map (·.library.key) ↔
      ∃ placement ∈ placements, placement.library.key = key := by
  constructor
  · intro h
    obtain ⟨parameter, hparameter, rfl⟩ := List.mem_map.mp h
    obtain ⟨placement, hmem, rfl⟩ := mem_parametersOf hparameter
    exact ⟨placement, hmem, rfl⟩
  · rintro ⟨placement, hmem, rfl⟩
    obtain ⟨parameter, hparameter, hkey, -⟩ := variableIn_mem hmem
    exact List.mem_map.mpr ⟨parameter, hparameter, hkey⟩

/-- The parameters of slots with increasing starts go by the smallest start. -/
theorem parametersOf_first_use {placements : List Placement}
    (hstarts : placements.Pairwise fun a b => a.slot.start < b.slot.start) :
    (parametersOf placements).Pairwise fun a b => ∃ first second,
      IsLeast (startsOf placements a.library.key) first ∧
        IsLeast (startsOf placements b.library.key) second ∧ first < second := by
  induction placements with
  | nil => exact List.Pairwise.nil
  | cons placement rest ih =>
      obtain ⟨hfirst, hrest⟩ := List.pairwise_cons.mp hstarts
      -- a key that is not that of the first slot has all its slots in the rest
      have hlater : ∀ parameter ∈ (parametersOf rest).filter fun other =>
          other.library.key != placement.library.key,
          startsOf (placement :: rest) parameter.library.key =
            startsOf rest parameter.library.key := by
        intro parameter hmem
        have hne := (List.mem_filter.mp hmem).2
        rw [bne_iff_ne] at hne
        exact startsOf_cons_of_ne hne.symm
      refine List.pairwise_cons.mpr ⟨fun parameter hmem => ?_, ?_⟩
      · have hkey : ∃ other ∈ rest, other.library.key = parameter.library.key :=
          mem_keys_parametersOf.mp (List.mem_map_of_mem (List.mem_of_mem_filter hmem))
        obtain ⟨start, hleast⟩ := exists_isLeast_startsOf hrest hkey
        obtain ⟨other, hother, -, rfl⟩ := hleast.1
        rw [hlater parameter hmem]
        exact ⟨_, _, isLeast_startsOf_head hfirst, hleast, hfirst other hother⟩
      · refine ((ih hrest).sublist List.filter_sublist).imp_of_mem fun ha hb h => ?_
        rw [hlater _ ha, hlater _ hb]
        exact h

theorem segment_listsSlots {bytecode : List Char} {links : LinkReferences} {code : Segmentation}
    (h : segment bytecode links = .ok code) : code.ListsSlots links.placements := by
  have hperm := links.byPosition_perm
  have hstarts := (segment_ok h).1.starts_increase
  have hparameters := segment_parameters h
  refine ⟨?_, fun key => ?_, ?_, links.byPosition, hperm, hstarts, ?_⟩
  · rw [hparameters]
    exact parametersOf_keys_nodup _
  · rw [hparameters, mem_keys_parametersOf]
    exact exists_congr fun placement => and_congr_left fun _ => hperm.mem_iff
  · rw [hparameters]
    refine (parametersOf_first_use hstarts).imp fun hab => ?_
    simpa only [startsOf_perm hperm] using hab
  · rw [addressNames_segment h, List.forall₂_map_left_iff, List.forall₂_same, hparameters]
    intro placement hmem
    exact variableIn_mem hmem

/-- **Only the slots count.** Of two lists of the same slots either both are
refused, or a bytecode is cut the same way at both: the parameters have the
keys of the slots, each once and by the smallest start, and the variables
in the pieces are those of the slots, one for each, by their starts. Both
refusals are true of the slots, and where all names have bytes and all
numbers can be written, both are defects of the artifact. -/
theorem segment_perm (bytecode : List Char) {links others : LinkReferences}
    (h : links.placements.Perm others.placements) :
    (∃ misfit other,
        segment bytecode links = .error misfit ∧ misfit.Holds bytecode links ∧
        segment bytecode others = .error other ∧ other.Holds bytecode others ∧
        (links.AreComparable bytecode →
          (∀ placement ∈ links.placements, placement.slot.IsWritable) →
          Failure.ofMisfit misfit = .malformed (.misfit misfit) ∧
            Failure.ofMisfit other = .malformed (.misfit other))) ∨
      ∃ code, segment bytecode links = .ok code ∧ segment bytecode others = .ok code ∧
        code.ListsSlots links.placements := by
  cases hlinks : segment bytecode links with
  | ok code =>
      have hfits := (segment_isOk.mp ⟨code, hlinks⟩).1
      have hsame := segment_congr bytecode (hfits.byPosition_eq h)
      exact .inr ⟨code, rfl, hsame ▸ hlinks, segment_listsSlots hlinks⟩
  | error misfit =>
      cases hothers : segment bytecode others with
      | error other =>
          refine .inl ⟨misfit, other, rfl, segment_error_holds hlinks, rfl,
            segment_error_holds hothers, fun hcomparable hwritable =>
              ⟨ofMisfit_eq_malformed hcomparable hwritable hlinks, ?_⟩⟩
          exact ofMisfit_eq_malformed (hcomparable.perm h)
            (fun placement hmem => hwritable placement (h.mem_iff.mpr hmem)) hothers
      | ok code =>
          have hfits := (segment_isOk.mp ⟨code, hothers⟩).1
          have hsame := segment_congr bytecode (hfits.byPosition_eq h.symm)
          rw [hothers, hlinks] at hsame
          cases hsame

/-- The library that is listed first is used last. -/
theorem segment_perm_two :
    ∃ code,
      segment "aa11223344bb".toList
        [("b.sol", [("B", [⟨4, 1⟩])]), ("a.sol", [("A", [⟨3, 1⟩, ⟨1, 1⟩])])] = .ok code ∧
      segment "aa11223344bb".toList
        [("a.sol", [("A", [⟨1, 1⟩, ⟨3, 1⟩])]), ("b.sol", [("B", [⟨4, 1⟩])])] = .ok code ∧
      code.parameters.map (·.name) = ["a", "b"] ∧
      addressNames code.segments = ["a", "a", "b"] := by
  let links : LinkReferences :=
    [("b.sol", [("B", [⟨4, 1⟩])]), ("a.sol", [("A", [⟨3, 1⟩, ⟨1, 1⟩])])]
  let others : LinkReferences :=
    [("a.sol", [("A", [⟨1, 1⟩, ⟨3, 1⟩])]), ("b.sol", [("B", [⟨4, 1⟩])])]
  have hperm : links.placements.Perm others.placements := by decide
  have hcode : segment "aa11223344bb".toList links =
      .ok ⟨[.hex "aa".toList, .address "a", .hex "22".toList, .address "a", .address "b",
        .hex "bb".toList], [⟨"a", ⟨"a.sol", "A"⟩⟩, ⟨"b", ⟨"b.sol", "B"⟩⟩]⟩ := by decide +kernel
  rcases segment_perm "aa11223344bb".toList hperm with
    ⟨misfit, -, hmisfit, -⟩ | ⟨code, hleft, hright, -⟩
  · rw [hcode] at hmisfit
    cases hmisfit
  · rw [hcode] at hleft
    cases hleft
    exact ⟨_, hcode, hright, rfl, rfl⟩

/-- Of two slots at one byte the first of the list is refused. One of them
cannot be told, because of its length or because of the name of its file,
and the other one is a defect. -/
theorem segment_perm_failures :
    (List.Perm
        (LinkReferences.placements [("c.sol", [("C", [⟨0, (10 ^ 4300 : Nat)⟩, ⟨0, 100⟩])])])
        (LinkReferences.placements [("c.sol", [("C", [⟨0, 100⟩, ⟨0, (10 ^ 4300 : Nat)⟩])])]) ∧
      (segment "00".toList
        [("c.sol", [("C", [⟨0, (10 ^ 4300 : Nat)⟩, ⟨0, 100⟩])])]).mapError Failure.ofMisfit =
          .error .integerTooLong ∧
      (segment "00".toList
        [("c.sol", [("C", [⟨0, 100⟩, ⟨0, (10 ^ 4300 : Nat)⟩])])]).mapError Failure.ofMisfit =
          .error (.malformed (.misfit (.outside ⟨⟨0, 100⟩, "c.sol", "C"⟩)))) ∧
    (List.Perm
        (LinkReferences.placements [halfNamed, ("b.sol", [("B", [⟨0, 100⟩])])])
        (LinkReferences.placements [("b.sol", [("B", [⟨0, 100⟩])]), halfNamed]) ∧
      (segment somePlaceholder [halfNamed, ("b.sol", [("B", [⟨0, 100⟩])])]).mapError
        Failure.ofMisfit = .error .undecodable ∧
      (segment somePlaceholder [("b.sol", [("B", [⟨0, 100⟩])]), halfNamed]).mapError
        Failure.ofMisfit = .error (.malformed (.misfit (.outside ⟨⟨0, 100⟩, "b.sol", "B"⟩)))) :=
  ⟨⟨List.Perm.swap .., by decide +kernel, by decide +kernel⟩,
    List.Perm.swap .., by decide +kernel, by decide +kernel⟩

end SolDeployer
