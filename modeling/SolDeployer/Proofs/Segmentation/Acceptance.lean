import Mathlib
import SolDeployer.Failure
import SolDeployer.Proofs.Segmentation.RoundTrip
import SolDeployer.Proofs.Text

/-!
# Slots that are accepted

A bytecode is cut exactly if every slot has at least one byte and lies in
the bytecode, and no two slots have a byte in common. This speaks of all
pairs of slots and of no order, while the cutting goes through the slots by
position and looks at the end of the one before only.

Position is what makes that enough. Of two slots the one that begins later
can meet the other only with its first byte (`Slot.disjoint_bytes_iff`). So
a slot that begins behind the end of the one before it is behind all that
came earlier. Nothing is assumed of the numbers: slots of no length, or of
a negative one, have no bytes and are refused because of that alone.

Two things are not about places. A placeholder in a slot is compared with
that of its library, which takes the bytes of a name, and not every name
has bytes (`Placement.IsComparable`). And a slot is refused in words, which
takes writing its numbers, and not every number is written
(`Text.IsWritable`). Both end the cutting with a failure that is no defect
of an artifact.
-/

namespace SolDeployer

/-- The bytes of a place. -/
def Slot.bytes (slot : Slot) : Set Int := Set.Ico slot.start (slot.start + slot.length)

/-- A place of at least one byte that lies in a bytecode of so many
characters. -/
structure Slot.LiesIn (slot : Slot) (size : Int) : Prop where
  start_nonneg : 0 ≤ slot.start
  length_pos : 0 < slot.length
  endChar_le : slot.endChar ≤ size

/-- The slots lie in a bytecode of so many characters, and no two of them
share a byte. -/
structure LinkReferences.FitInto (links : LinkReferences) (size : Int) : Prop where
  inside : ∀ placement ∈ links.placements, placement.slot.LiesIn size
  disjoint : links.placements.Pairwise fun a b => Disjoint a.slot.bytes b.slot.bytes

/-- No slot holds a placeholder that there is no name to compare with. -/
def LinkReferences.AreComparable (links : LinkReferences) (bytecode : List Char) : Prop :=
  ∀ placement ∈ links.placements, placement.IsComparable bytecode

/-- Can both numbers of a place be written? -/
def Slot.IsWritable (slot : Slot) : Prop :=
  Text.IsWritable slot.start ∧ Text.IsWritable slot.length

/-! ## Two slots -/

theorem Slot.start_mem_bytes {slot : Slot} (h : 0 < slot.length) : slot.start ∈ slot.bytes :=
  ⟨Int.le_refl _, by omega⟩

/-- A place shares no byte with a later one exactly if it ends before it. -/
theorem Slot.disjoint_bytes_iff {slot later : Slot} (hle : slot.start ≤ later.start)
    (hlength : 0 < later.length) :
    Disjoint slot.bytes later.bytes ↔ slot.endChar ≤ later.firstChar := by
  rw [Set.disjoint_left]
  constructor
  · intro h
    have hstart : later.start ∉ slot.bytes := fun hmem => h hmem (start_mem_bytes hlength)
    simp only [bytes, Set.mem_Ico] at hstart
    simp only [Slot.endChar, Slot.firstChar]
    omega
  · intro h byte hbyte hlater
    simp only [bytes, Set.mem_Ico] at hbyte hlater
    simp only [Slot.endChar, Slot.firstChar] at h
    omega

/-! ## Slots by position -/

theorem LinkReferences.byPosition_pairwise (links : LinkReferences) :
    links.byPosition.Pairwise fun a b => a.slot.start ≤ b.slot.start := by
  have hsorted : links.byPosition.Pairwise fun a b => decide (a.slot.start ≤ b.slot.start) = true :=
    sortBy_pairwise (fun a b => by simpa using Int.le_total a.slot.start b.slot.start)
      (fun a b c => by simpa using Int.le_trans) links.placements
  exact hsorted.imp fun h => of_decide_eq_true h

/-- Slots in the order of their starts fit one after another exactly if
each lies in the bytecode behind the cursor and no two share a byte. -/
theorem fits_iff {size cursor : Int} {placements : List Placement}
    (hsorted : placements.Pairwise fun a b => a.slot.start ≤ b.slot.start) :
    Fits size cursor placements ↔
      (∀ placement ∈ placements,
        placement.slot.LiesIn size ∧ cursor ≤ placement.slot.firstChar) ∧
      placements.Pairwise fun a b => Disjoint a.slot.bytes b.slot.bytes := by
  induction placements generalizing cursor with
  | nil => simp [Fits]
  | cons placement rest ih =>
      obtain ⟨hfirst, hrest⟩ := List.pairwise_cons.mp hsorted
      rw [Fits, ih hrest, List.pairwise_cons, List.forall_mem_cons]
      constructor
      · rintro ⟨hstart, hlength, hend, hcursor, hbehind, hpairwise⟩
        have hlt := Slot.firstChar_lt_endChar hlength
        refine ⟨⟨⟨⟨hstart, hlength, hend⟩, hcursor⟩, fun other hmem => ?_⟩, fun other hmem => ?_,
          hpairwise⟩
        · obtain ⟨hlies, hend⟩ := hbehind other hmem
          exact ⟨hlies, by omega⟩
        · obtain ⟨hlies, hend⟩ := hbehind other hmem
          exact (Slot.disjoint_bytes_iff (hfirst other hmem) hlies.length_pos).mpr hend
      · rintro ⟨⟨⟨hlies, hcursor⟩, hothers⟩, hdisjoint, hpairwise⟩
        refine ⟨hlies.start_nonneg, hlies.length_pos, hlies.endChar_le, hcursor, ?_, hpairwise⟩
        intro other hmem
        have hother := (hothers other hmem).1
        exact ⟨hother, (Slot.disjoint_bytes_iff (hfirst other hmem) hother.length_pos).mp
          (hdisjoint other hmem)⟩

/-- Where the slots are listed plays no part in whether they fit. -/
theorem LinkReferences.fits_byPosition_iff {links : LinkReferences} {size : Int} :
    Fits size 0 links.byPosition ↔ links.FitInto size := by
  have hperm := links.byPosition_perm
  rw [fits_iff links.byPosition_pairwise,
    hperm.pairwise_iff (fun h => h.symm)]
  constructor
  · rintro ⟨hlies, hdisjoint⟩
    exact ⟨fun placement hmem => (hlies placement (hperm.mem_iff.mpr hmem)).1, hdisjoint⟩
  · rintro ⟨hlies, hdisjoint⟩
    refine ⟨fun placement hmem => ?_, hdisjoint⟩
    have hplacement := hlies placement (hperm.mem_iff.mp hmem)
    have hstart := hplacement.start_nonneg
    exact ⟨hplacement, by unfold Slot.firstChar; omega⟩

/-! ## The slot that is refused -/

/-- What a misfit says about the slots of a bytecode. -/
def Misfit.Holds (bytecode : List Char) (links : LinkReferences) : Misfit → Prop
  | .outside placement =>
    placement ∈ links.placements ∧ ¬placement.slot.LiesIn bytecode.length
  | .overlaps placement =>
    placement.slot.LiesIn bytecode.length ∧
      ∃ other rest, links.placements.Perm (other :: placement :: rest) ∧
        placement.slot.start ∈ other.slot.bytes
  | .nameless placement =>
    placement ∈ links.placements ∧ placement.slot.LiesIn bytecode.length ∧
      ¬placement.IsComparable bytecode

/-- The slot that a misfit is about. -/
def Misfit.placement : Misfit → Placement
  | .outside placement | .overlaps placement | .nameless placement => placement

theorem misfit?_eq_some {bytecode : List Char} {cursor : Int} {placement : Placement}
    {misfit : Misfit} (h : placement.misfit? bytecode cursor = some misfit) :
    (misfit = .outside placement ∧ ¬placement.slot.LiesIn bytecode.length) ∨
      (misfit = .overlaps placement ∧ placement.slot.LiesIn bytecode.length ∧
        placement.slot.firstChar < cursor) ∨
      (misfit = .nameless placement ∧ placement.slot.LiesIn bytecode.length ∧
        ¬placement.IsComparable bytecode) := by
  simp only [Placement.misfit?] at h
  split at h
  · rename_i hout
    cases h
    refine .inl ⟨rfl, fun hlies => ?_⟩
    have := hlies.start_nonneg
    have := hlies.length_pos
    have := hlies.endChar_le
    omega
  · rename_i hin
    have hlies : placement.slot.LiesIn bytecode.length := ⟨by omega, by omega, by omega⟩
    split at h
    · rename_i hcursor
      cases h
      exact .inr (.inl ⟨rfl, hlies, hcursor⟩)
    · split at h
      · rename_i hnameless
        cases h
        exact .inr (.inr ⟨rfl, hlies, not_isComparable.mp hnameless⟩)
      · cases h

/-- Where the last of some slots ends, or the cursor if there is none. -/
def endOf (cursor : Int) (placements : List Placement) : Int :=
  (placements.getLast?.map (·.slot.endChar)).getD cursor

/-- The slot that is refused does not fit behind the one that comes before
it. -/
theorem fitting_eq_some {bytecode : List Char} {cursor : Int} {placements : List Placement}
    {misfit : Misfit} (h : (fitting bytecode cursor placements).2 = some misfit) :
    ∃ before placement after, placements = before ++ placement :: after ∧
      placement.misfit? bytecode (endOf cursor before) = some misfit := by
  induction placements generalizing cursor with
  | nil => simp [fitting] at h
  | cons first rest ih =>
      cases hmisfit : first.misfit? bytecode cursor with
      | some other =>
          simp only [fitting, hmisfit, Option.some.injEq] at h
          exact ⟨[], first, rest, rfl, h ▸ hmisfit⟩
      | none =>
          simp only [fitting, hmisfit] at h
          obtain ⟨before, placement, after, rfl, hrefused⟩ := ih h
          refine ⟨first :: before, placement, after, rfl, ?_⟩
          have hend : endOf cursor (first :: before) = endOf first.slot.endChar before := by
            unfold endOf
            rw [List.getLast?_cons]
            cases before.getLast? <;> rfl
          rwa [hend]

theorem segment_eq_error {bytecode : List Char} {links : LinkReferences} {misfit : Misfit} :
    segment bytecode links = .error misfit ↔
      (fitting bytecode 0 links.byPosition).2 = some misfit := by
  unfold segment
  split
  · rename_i hnil
    simp [hnil, fitting]
  · split
    · rename_i heq
      simp [heq]
    · rename_i heq
      simp [heq]

theorem segment_isOk {bytecode : List Char} {links : LinkReferences} :
    (∃ code, segment bytecode links = .ok code) ↔
      links.FitInto bytecode.length ∧ links.AreComparable bytecode := by
  have hcomparable : (∀ placement ∈ links.byPosition, placement.IsComparable bytecode) ↔
      links.AreComparable bytecode :=
    forall_congr' fun placement => by rw [links.byPosition_perm.mem_iff]
  rw [← LinkReferences.fits_byPosition_iff, ← hcomparable, ← fitting_eq_none]
  constructor
  · rintro ⟨code, hcode⟩
    cases hfitting : (fitting bytecode 0 links.byPosition).2 with
    | none => rfl
    | some misfit =>
        rw [segment_eq_error.mpr hfitting] at hcode
        cases hcode
  · intro hfitting
    cases hsegment : segment bytecode links with
    | ok code => exact ⟨code, rfl⟩
    | error misfit =>
        rw [segment_eq_error, hfitting] at hsegment
        cases hsegment

/-- What a refusal says is so. -/
theorem segment_error_holds {bytecode : List Char} {links : LinkReferences} {misfit : Misfit}
    (h : segment bytecode links = .error misfit) : misfit.Holds bytecode links := by
  have hperm := links.byPosition_perm
  obtain ⟨before, placement, after, hsplit, hmisfit⟩ := fitting_eq_some (segment_eq_error.mp h)
  have hmem : placement ∈ links.placements := by
    rw [← hperm.mem_iff, hsplit]
    simp
  rcases misfit?_eq_some hmisfit with ⟨rfl, hout⟩ | ⟨rfl, hlies, hcursor⟩ | ⟨rfl, hlies, hname⟩
  · exact ⟨hmem, hout⟩
  · rcases List.eq_nil_or_concat before with rfl | ⟨before, previous, rfl⟩
    · -- nothing that lies in the bytecode begins before its first character
      have hstart := hlies.start_nonneg
      simp only [endOf, List.getLast?_nil, Option.map_none, Option.getD_none, Slot.firstChar]
        at hcursor
      omega
    · have hsorted := links.byPosition_pairwise
      rw [List.concat_eq_append] at hsplit hcursor
      rw [hsplit, List.append_assoc] at hsorted hperm
      simp only [endOf, List.getLast?_concat, Option.map_some, Option.getD_some] at hcursor
      have hle : previous.slot.start ≤ placement.slot.start :=
        (List.pairwise_cons.mp (List.pairwise_append.mp hsorted).2.1).1 _ (List.mem_cons_self ..)
      have hmiddle : (before ++ ([previous] ++ placement :: after)).Perm
          (previous :: placement :: (before ++ after)) :=
        List.perm_append_comm_assoc before [previous, placement] after
      refine ⟨hlies, previous, before ++ after, hperm.symm.trans hmiddle, hle, ?_⟩
      simp only [Slot.firstChar, Slot.endChar] at hcursor
      omega
  · exact ⟨hmem, hlies, hname⟩

theorem Misfit.Holds.placement_mem {bytecode : List Char} {links : LinkReferences}
    {misfit : Misfit} (h : misfit.Holds bytecode links) : misfit.placement ∈ links.placements := by
  cases misfit with
  | outside placement => exact h.1
  | overlaps placement =>
      obtain ⟨-, other, rest, hperm, -⟩ := h
      rw [hperm.mem_iff]
      exact List.mem_cons_of_mem _ (List.mem_cons_self ..)
  | nameless placement => exact h.1

/-! ## The failure -/

/-- The numbers that are written to tell a misfit. -/
def Misfit.numbers : Misfit → List Int
  | .outside placement => [placement.slot.start, placement.slot.length]
  | .overlaps placement => [placement.slot.start]
  | .nameless _ => []

/-- How a misfit ends the cutting: it is told in words, or one of its numbers
cannot be written, or it is a name without bytes. -/
theorem Failure.ofMisfit_cases (misfit : Misfit) :
    (Failure.ofMisfit misfit = .malformed (.misfit misfit) ∧
        (∀ n ∈ misfit.numbers, Text.IsWritable n) ∧ misfit ≠ .nameless misfit.placement) ∨
      (Failure.ofMisfit misfit = .integerTooLong ∧ ∃ n ∈ misfit.numbers, ¬Text.IsWritable n) ∨
      Failure.ofMisfit misfit = .undecodable ∧ misfit = .nameless misfit.placement := by
  cases misfit with
  | outside placement =>
      by_cases hstart : Text.IsWritable placement.slot.start
      · by_cases hlength : Text.IsWritable placement.slot.length
        · refine .inl ⟨?_, by simp [Misfit.numbers, hstart, hlength], by simp⟩
          simp [Failure.ofMisfit, Misfit.message?, Text.decimal?_of_isWritable, hstart, hlength]
        · refine .inr (.inl ⟨?_, _, List.mem_cons_of_mem _ (List.mem_cons_self ..), hlength⟩)
          simp [Failure.ofMisfit, Misfit.message?, Text.decimal?_of_not_isWritable hlength]
      · refine .inr (.inl ⟨?_, _, List.mem_cons_self .., hstart⟩)
        simp [Failure.ofMisfit, Misfit.message?, Text.decimal?_of_not_isWritable hstart]
  | overlaps placement =>
      by_cases hstart : Text.IsWritable placement.slot.start
      · refine .inl ⟨?_, by simp [Misfit.numbers, hstart], by simp⟩
        simp [Failure.ofMisfit, Misfit.message?, Text.decimal?_of_isWritable, hstart]
      · refine .inr (.inl ⟨?_, _, List.mem_cons_self .., hstart⟩)
        simp [Failure.ofMisfit, Misfit.message?, Text.decimal?_of_not_isWritable hstart]
  | nameless placement => exact .inr (.inr ⟨rfl, rfl⟩)

/-- Where all names have bytes and all numbers can be written, a refusal is a
defect. -/
theorem ofMisfit_eq_malformed {bytecode : List Char} {links : LinkReferences} {misfit : Misfit}
    (hcomparable : links.AreComparable bytecode)
    (hwritable : ∀ placement ∈ links.placements, placement.slot.IsWritable)
    (h : segment bytecode links = .error misfit) :
    Failure.ofMisfit misfit = .malformed (.misfit misfit) := by
  have hholds := segment_error_holds h
  have hnumbers := hwritable _ hholds.placement_mem
  rcases Failure.ofMisfit_cases misfit with ⟨htold, -⟩ | ⟨-, n, hmem, hlong⟩ | ⟨-, hname⟩
  · exact htold
  · cases misfit with
    | outside placement =>
        rcases List.mem_pair.mp hmem with rfl | rfl
        · exact absurd hnumbers.1 hlong
        · exact absurd hnumbers.2 hlong
    | overlaps placement =>
        rw [List.mem_singleton.mp hmem] at hlong
        exact absurd hnumbers.1 hlong
    | nameless placement => cases hmem
  · rw [hname] at hholds
    exact absurd (hcomparable _ hholds.1) hholds.2.2

/-- **What is accepted.** A bytecode is cut exactly if all slots have at
least one byte and lie in it, no two of them share a byte, and no slot holds
a placeholder that there is no name to compare with. Otherwise the misfit
names a slot: one that does not lie in the bytecode, one that does and whose
first byte belongs to another, or one with a placeholder and without a name
to compare. It is a defect of the artifact if its numbers can be written,
and the failure is another one otherwise. Where all names have bytes and all
numbers can be written, the places alone decide between a cut bytecode and a
defect. -/
theorem segment_accepts (bytecode : List Char) (links : LinkReferences) :
    ((∃ code, segment bytecode links = .ok code) ↔
        links.FitInto bytecode.length ∧ links.AreComparable bytecode) ∧
      (∀ misfit, segment bytecode links = .error misfit →
        misfit.Holds bytecode links ∧
          ((Failure.ofMisfit misfit = .malformed (.misfit misfit) ∧
              (∀ n ∈ misfit.numbers, Text.IsWritable n) ∧
              misfit ≠ .nameless misfit.placement) ∨
            (Failure.ofMisfit misfit = .integerTooLong ∧
              ∃ n ∈ misfit.numbers, ¬Text.IsWritable n) ∨
            Failure.ofMisfit misfit = .undecodable ∧ misfit = .nameless misfit.placement)) ∧
      (links.AreComparable bytecode →
        (∀ placement ∈ links.placements, placement.slot.IsWritable) →
        ((∃ code, (segment bytecode links).mapError Failure.ofMisfit = .ok code) ↔
            links.FitInto bytecode.length) ∧
          ((∃ defect, (segment bytecode links).mapError Failure.ofMisfit =
              .error (.malformed defect)) ↔ ¬links.FitInto bytecode.length)) := by
  refine ⟨segment_isOk, fun misfit hsegment =>
    ⟨segment_error_holds hsegment, Failure.ofMisfit_cases misfit⟩, fun hcomparable hwritable => ?_⟩
  have hok : (∃ code, segment bytecode links = .ok code) ↔ links.FitInto bytecode.length := by
    rw [segment_isOk, and_iff_left hcomparable]
  rw [← hok]
  cases hsegment : segment bytecode links with
  | ok code => simp [Except.mapError]
  | error misfit =>
      have htold := ofMisfit_eq_malformed hcomparable hwritable hsegment
      simp [Except.mapError, htold]

/-- Slots may touch, in whatever order they are listed. -/
theorem segment_accepts_touching :
    ∃ code, (segment "aabbccdd".toList
      [("b.sol", [("B", [⟨1, 2⟩])]), ("a.sol", [("A", [⟨0, 1⟩, ⟨3, 1⟩])])]).mapError
        Failure.ofMisfit = .ok code := by
  let links : LinkReferences :=
    [("b.sol", [("B", [⟨1, 2⟩])]), ("a.sol", [("A", [⟨0, 1⟩, ⟨3, 1⟩])])]
  have hcomparable : links.AreComparable "aabbccdd".toList := by
    unfold LinkReferences.AreComparable Placement.IsComparable
    decide
  have hwritable : ∀ placement ∈ links.placements, placement.slot.IsWritable := by
    unfold Slot.IsWritable Text.IsWritable
    decide +kernel
  have hsorted : links.byPosition =
      [⟨⟨0, 1⟩, "a.sol", "A"⟩, ⟨⟨1, 2⟩, "b.sol", "B"⟩, ⟨⟨3, 1⟩, "a.sol", "A"⟩] := by decide
  have hfits : links.FitInto "aabbccdd".toList.length := by
    rw [← LinkReferences.fits_byPosition_iff, hsorted]
    simp [Fits, Slot.firstChar, Slot.endChar]
  exact ((segment_accepts "aabbccdd".toList links).2.2 hcomparable hwritable).1.mpr hfits

/-- The placeholder of some library. -/
def somePlaceholder : List Char :=
  "__$".toList ++ List.replicate 34 '0' ++ "$__".toList

/-- A file with half of a surrogate pair for its name. -/
def halfNamed : String × Entries String (List Slot) :=
  (String.singleton (Text.half 0xD800), [("C", [⟨0, 20⟩])])

/-- A slot can be refused for its place, and be no defect because its length
cannot be written. A slot can be in place and hold a placeholder, and be
refused because the name of its file has no bytes. -/
theorem segment_not_defect :
    (¬LinkReferences.FitInto [("c.sol", [("C", [⟨(10 ^ 4300 : Nat), 20⟩])])] 0 ∧
      (segment [] [("c.sol", [("C", [⟨(10 ^ 4300 : Nat), 20⟩])])]).mapError Failure.ofMisfit =
        .error .integerTooLong) ∧
      LinkReferences.FitInto [halfNamed] 40 ∧
      (segment somePlaceholder [halfNamed]).mapError Failure.ofMisfit = .error .undecodable := by
  refine ⟨⟨fun hfits => ?_, by decide +kernel⟩, ⟨?_, List.pairwise_singleton ..⟩, by decide +kernel⟩
  · have hend := (hfits.inside _ (List.mem_cons_self ..)).endChar_le
    simp only [Slot.endChar] at hend
    omega
  · intro placement hmem
    rw [List.mem_singleton.mp hmem]
    exact ⟨by decide, by decide, by decide⟩

end SolDeployer
