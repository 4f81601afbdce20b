import Mathlib.Data.List.Nodup
import SolDeployer.Proofs.Sorting
import SolDeployer.Segmentation

/-!
# Texts in the places of slots

What it means that the slots of a bytecode are replaced and nothing else
is. `substitutedFrom` goes through the characters and asks for each index
what the slots say about it: a text stands where a slot begins, nothing
stands where a slot goes on, and every other character stays. No order of
the slots and no cursor occurs in it.

For slots that fit one after another it comes apart at the first slot
(`substitutedFrom_cons`), which is the shape of the cutting.
-/

namespace SolDeployer

/-- What stands in the place of the character with an index. -/
def replaced (placements : List Placement) (text : Placement → List Char) (index : Nat)
    (c : Char) : List Char :=
  match placements.find? fun placement => placement.slot.firstChar == (index : Int) with
  | some placement => text placement
  | none => if placements.any fun placement => placement.slot.covers index then [] else [c]

/-- The characters from an index on with texts in the places of the slots. -/
def substitutedFrom (placements : List Placement) (text : Placement → List Char) :
    (index : Nat) → List Char → List Char
  | _, [] => []
  | index, c :: rest =>
    replaced placements text index c ++ substitutedFrom placements text (index + 1) rest

/-- A bytecode with texts in the places of its slots. -/
def LinkReferences.substituted (links : LinkReferences) (bytecode : List Char)
    (text : Placement → List Char) : List Char :=
  substitutedFrom links.placements text 0 bytecode

theorem Slot.covers_iff {slot : Slot} {index : Nat} :
    slot.covers index = true ↔ slot.firstChar ≤ index ∧ (index : Int) < slot.endChar := by
  simp [Slot.covers]

/-! ## Slots that fit -/

/-- Slots that lie in a bytecode one after another, from a character on. -/
def Fits (size : Int) : (cursor : Int) → List Placement → Prop
  | _, [] => True
  | cursor, placement :: rest =>
    0 ≤ placement.slot.start ∧ 0 < placement.slot.length ∧ placement.slot.endChar ≤ size ∧
      cursor ≤ placement.slot.firstChar ∧ Fits size placement.slot.endChar rest

/-- A placeholder in the slot can be compared with that of the library. -/
def Placement.IsComparable (bytecode : List Char) (placement : Placement) : Prop :=
  placement.holdsPlaceholder bytecode = true → placement.library.hasBytes = true

theorem not_isComparable {bytecode : List Char} {placement : Placement} :
    (placement.holdsPlaceholder bytecode && !placement.library.hasBytes) = true ↔
      ¬placement.IsComparable bytecode := by
  simp [Placement.IsComparable]

theorem misfit?_eq_none {bytecode : List Char} {cursor : Int} {placement : Placement} :
    placement.misfit? bytecode cursor = none ↔
      (0 ≤ placement.slot.start ∧ 0 < placement.slot.length ∧
        placement.slot.endChar ≤ bytecode.length ∧ cursor ≤ placement.slot.firstChar) ∧
      placement.IsComparable bytecode := by
  simp only [Placement.misfit?]
  constructor
  · intro h
    split at h
    · cases h
    · split at h
      · cases h
      · split at h
        · cases h
        · rename_i hcomparable
          exact ⟨by omega, not_not.mp fun hnot => hcomparable (not_isComparable.mpr hnot)⟩
  · rintro ⟨hfits, hcomparable⟩
    rw [if_neg (by omega), if_neg (by omega),
      if_neg fun hnot => not_isComparable.mp hnot hcomparable]

/-- No slot is refused exactly if all of them fit and no placeholder in one
of them lacks a name to compare it with. -/
theorem fitting_eq_none {bytecode : List Char} {placements : List Placement} {cursor : Int} :
    (fitting bytecode cursor placements).2 = none ↔
      Fits bytecode.length cursor placements ∧
        ∀ placement ∈ placements, placement.IsComparable bytecode := by
  induction placements generalizing cursor with
  | nil => simp [fitting, Fits]
  | cons placement rest ih =>
      rw [List.forall_mem_cons]
      cases hmisfit : placement.misfit? bytecode cursor with
      | some misfit =>
          have hnot : ¬(Fits bytecode.length cursor (placement :: rest) ∧
              placement.IsComparable bytecode ∧
              ∀ other ∈ rest, other.IsComparable bytecode) := by
            rintro ⟨⟨h₁, h₂, h₃, h₄, -⟩, hcomparable, -⟩
            rw [misfit?_eq_none.mpr ⟨⟨h₁, h₂, h₃, h₄⟩, hcomparable⟩] at hmisfit
            cases hmisfit
          simp only [fitting, hmisfit, hnot, iff_false]
          nofun
      | none =>
          obtain ⟨⟨h₁, h₂, h₃, h₄⟩, hcomparable⟩ := misfit?_eq_none.mp hmisfit
          simp [fitting, hmisfit, Fits, ih, h₁, h₂, h₃, h₄, hcomparable]

theorem Slot.firstChar_lt_endChar {slot : Slot} (h : 0 < slot.length) :
    slot.firstChar < slot.endChar := by
  unfold Slot.firstChar Slot.endChar
  omega

/-- Every slot that fits begins after the cursor, and ends in the bytecode. -/
theorem Fits.bounds {size : Int} {placements : List Placement} {cursor : Int}
    (h : Fits size cursor placements) {placement : Placement} (hmem : placement ∈ placements) :
    cursor ≤ placement.slot.firstChar ∧ placement.slot.firstChar < placement.slot.endChar ∧
      placement.slot.endChar ≤ size := by
  induction placements generalizing cursor with
  | nil => cases hmem
  | cons first rest ih =>
      obtain ⟨-, hlength, hsize, hcursor, hrest⟩ := h
      have hlt := Slot.firstChar_lt_endChar hlength
      rcases List.mem_cons.mp hmem with rfl | hmem
      · exact ⟨hcursor, hlt, hsize⟩
      · obtain ⟨h₁, h₂, h₃⟩ := ih hrest hmem
        exact ⟨by omega, h₂, h₃⟩

theorem Fits.starts_increase {size cursor : Int} {placements : List Placement}
    (h : Fits size cursor placements) :
    placements.Pairwise fun a b => a.slot.start < b.slot.start := by
  induction placements generalizing cursor with
  | nil => exact List.Pairwise.nil
  | cons placement rest ih =>
      obtain ⟨-, hlength, -, -, hrest⟩ := h
      refine List.pairwise_cons.mpr ⟨fun other hmem => ?_, ih hrest⟩
      have hbehind := (hrest.bounds hmem).1
      simp only [Slot.firstChar, Slot.endChar] at hbehind
      omega

/-- No two slots that fit begin at one character. -/
theorem Fits.eq_of_firstChar {size : Int} {placements : List Placement} {cursor : Int}
    (h : Fits size cursor placements) {p q : Placement} (hp : p ∈ placements)
    (hq : q ∈ placements) (heq : p.slot.firstChar = q.slot.firstChar) : p = q := by
  have hstart : p.slot.start = q.slot.start := by
    unfold Slot.firstChar at heq
    omega
  have hnodup : (placements.map (·.slot.start)).Nodup :=
    List.pairwise_map.mpr (h.starts_increase.imp fun hlt => Int.ne_of_lt hlt)
  exact List.inj_on_of_nodup_map hnodup hp hq hstart

/-- What is left after the first of the slots that fit ends with the bytecode. -/
theorem Fits.advance {size cursor : Nat} {placement : Placement} {rest : List Placement}
    {left : List Char} (h : Fits size cursor (placement :: rest))
    (hleft : cursor + left.length = size) :
    ((placement.slot.endChar.toNat : Nat) : Int) = placement.slot.endChar ∧
      Fits size (placement.slot.endChar.toNat : Nat) rest ∧
      placement.slot.endChar.toNat +
        (left.drop (placement.slot.endChar - cursor).toNat).length = size := by
  obtain ⟨-, hlength, hsize, hcursor, hrest⟩ := h
  have hlt := Slot.firstChar_lt_endChar hlength
  have hend : ((placement.slot.endChar.toNat : Nat) : Int) = placement.slot.endChar := by omega
  refine ⟨hend, by rwa [hend], ?_⟩
  rw [List.length_drop]
  omega

/-! ## Characters at one index -/

theorem replaced_free {placements : List Placement} {text : Placement → List Char} {index : Nat}
    {c : Char} (hfree : ∀ placement ∈ placements, (index : Int) < placement.slot.firstChar) :
    replaced placements text index c = [c] := by
  have hfind : placements.find? (fun placement => placement.slot.firstChar == (index : Int)) = none := by
    rw [List.find?_eq_none]
    intro placement hmem
    have := hfree placement hmem
    simp only [beq_iff_eq]
    omega
  have hany : ¬placements.any (fun placement => placement.slot.covers index) = true := by
    rw [List.any_eq_true]
    rintro ⟨placement, hmem, hcovers⟩
    have := hfree placement hmem
    rw [Slot.covers_iff] at hcovers
    omega
  simp only [replaced, hfind, hany, if_false, Bool.false_eq_true]

theorem replaced_first {placement : Placement} {rest : List Placement}
    {text : Placement → List Char} {index : Nat} {c : Char}
    (hindex : placement.slot.firstChar = index) :
    replaced (placement :: rest) text index c = text placement := by
  simp [replaced, hindex]

theorem replaced_inside {placement : Placement} {rest : List Placement}
    {text : Placement → List Char} {index : Nat} {c : Char}
    (hfirst : placement.slot.firstChar < index) (hend : (index : Int) < placement.slot.endChar)
    (hrest : ∀ other ∈ rest, placement.slot.endChar ≤ other.slot.firstChar) :
    replaced (placement :: rest) text index c = [] := by
  have hfind : (placement :: rest).find? (fun placement => placement.slot.firstChar == (index : Int)) =
      none := by
    rw [List.find?_eq_none]
    intro other hmem
    simp only [beq_iff_eq]
    rcases List.mem_cons.mp hmem with rfl | hmem
    · omega
    · have := hrest other hmem
      omega
  have hcovers : placement.slot.covers index = true :=
    Slot.covers_iff.mpr ⟨Int.le_of_lt hfirst, hend⟩
  simp only [replaced, hfind, List.any_cons, hcovers, Bool.true_or, if_true]

theorem replaced_passed {placement : Placement} {rest : List Placement}
    {text : Placement → List Char} {index : Nat} {c : Char}
    (hfirst : placement.slot.firstChar < index) (hend : placement.slot.endChar ≤ index) :
    replaced (placement :: rest) text index c = replaced rest text index c := by
  have hfind : (placement.slot.firstChar == (index : Int)) = false := by
    rw [beq_eq_false_iff_ne]
    omega
  have hcovers : placement.slot.covers index = false := by
    rw [← Bool.not_eq_true, Slot.covers_iff]
    omega
  simp only [replaced, List.find?_cons, hfind, List.any_cons, hcovers, Bool.false_or]

/-! ## Characters in a row -/

theorem substitutedFrom_append (placements : List Placement) (text : Placement → List Char)
    (index : Nat) (xs ys : List Char) :
    substitutedFrom placements text index (xs ++ ys) =
      substitutedFrom placements text index xs ++
        substitutedFrom placements text (index + xs.length) ys := by
  induction xs generalizing index with
  | nil => simp [substitutedFrom]
  | cons c xs ih =>
      simp only [List.cons_append, substitutedFrom, ih, List.append_assoc, List.length_cons]
      rw [Nat.add_right_comm, Nat.add_assoc]

theorem substitutedFrom_free {placements : List Placement} {text : Placement → List Char} :
    ∀ {index : Nat} {xs : List Char},
      (∀ placement ∈ placements, (index + xs.length : Int) ≤ placement.slot.firstChar) →
      substitutedFrom placements text index xs = xs
  | _, [], _ => rfl
  | index, c :: xs, hfree => by
      have hc : replaced placements text index c = [c] := replaced_free fun placement hmem => by
        have := hfree placement hmem
        simp only [List.length_cons] at this
        omega
      have hxs : substitutedFrom placements text (index + 1) xs = xs :=
        substitutedFrom_free fun placement hmem => by
          have := hfree placement hmem
          simp only [List.length_cons] at this
          omega
      rw [substitutedFrom, hc, hxs, List.singleton_append]

theorem substitutedFrom_inside {placement : Placement} {rest : List Placement}
    {text : Placement → List Char}
    (hrest : ∀ other ∈ rest, placement.slot.endChar ≤ other.slot.firstChar) :
    ∀ {index : Nat} {xs : List Char}, placement.slot.firstChar < index →
      (index + xs.length : Int) ≤ placement.slot.endChar →
      substitutedFrom (placement :: rest) text index xs = []
  | _, [], _, _ => rfl
  | index, c :: xs, hfirst, hend => by
      simp only [List.length_cons] at hend
      have hc : replaced (placement :: rest) text index c = [] :=
        replaced_inside hfirst (by omega) hrest
      have hxs : substitutedFrom (placement :: rest) text (index + 1) xs = [] :=
        substitutedFrom_inside hrest (by omega) (by omega)
      rw [substitutedFrom, hc, hxs, List.append_nil]

theorem substitutedFrom_passed {placement : Placement} {rest : List Placement}
    {text : Placement → List Char} :
    ∀ {index : Nat} {xs : List Char}, placement.slot.firstChar < index →
      placement.slot.endChar ≤ index →
      substitutedFrom (placement :: rest) text index xs = substitutedFrom rest text index xs
  | _, [], _, _ => rfl
  | index, c :: xs, hfirst, hend => by
      rw [substitutedFrom, substitutedFrom, replaced_passed hfirst hend,
        substitutedFrom_passed (by omega) (by omega)]

/-- A bytecode in four pieces: what is before a slot, its first character,
its others, and the rest. -/
theorem substitutedFrom_pieces {placement : Placement} {rest : List Placement}
    {text : Placement → List Char} {cursor : Nat} {before inside after : List Char} (c : Char)
    (hfirst : placement.slot.firstChar = (cursor + before.length : Nat))
    (hend : placement.slot.endChar = (cursor + before.length + 1 + inside.length : Nat))
    (hrest : ∀ other ∈ rest, placement.slot.endChar ≤ other.slot.firstChar) :
    substitutedFrom (placement :: rest) text cursor (before ++ c :: (inside ++ after)) =
      before ++ (text placement ++
        substitutedFrom rest text (cursor + before.length + 1 + inside.length) after) := by
  have hkept : substitutedFrom (placement :: rest) text cursor before = before := by
    refine substitutedFrom_free fun other hmem => ?_
    rcases List.mem_cons.mp hmem with rfl | hmem
    · omega
    · have := hrest other hmem
      omega
  have hgone : substitutedFrom (placement :: rest) text (cursor + before.length + 1) inside = [] :=
    substitutedFrom_inside hrest (by omega) (by omega)
  rw [substitutedFrom_append, hkept, substitutedFrom, replaced_first hfirst, substitutedFrom_append,
    hgone, List.nil_append, substitutedFrom_passed (by omega) (by omega)]

theorem exists_pieces {left : List Char} {before inside : Nat}
    (h : before + 1 + inside ≤ left.length) :
    ∃ c others, others.length = inside ∧
      left = left.take before ++ c :: (others ++ left.drop (before + 1 + inside)) := by
  cases hdrop : left.drop before with
  | nil =>
      have hlength := congrArg List.length hdrop
      rw [List.length_drop, List.length_nil] at hlength
      omega
  | cons c more =>
      have hlength := congrArg List.length hdrop
      rw [List.length_drop, List.length_cons] at hlength
      have hrest : left.drop (before + 1 + inside) = more.drop inside := by
        rw [Nat.add_assoc, ← List.drop_drop, hdrop, Nat.add_comm, List.drop_succ_cons]
      refine ⟨c, more.take inside, ?_, ?_⟩
      · rw [List.length_take]
        omega
      · rw [hrest, List.take_append_drop, ← hdrop, List.take_append_drop]

/-- Slots that fit come apart at the first: what is before it stays, its
text follows, and the rest goes on after it. -/
theorem substitutedFrom_cons {size cursor : Nat} {placement : Placement} {rest : List Placement}
    {text : Placement → List Char} {left : List Char}
    (h : Fits size cursor (placement :: rest)) (hleft : cursor + left.length = size) :
    substitutedFrom (placement :: rest) text cursor left =
      left.take (placement.slot.firstChar - cursor).toNat ++ (text placement ++
        substitutedFrom rest text placement.slot.endChar.toNat
          (left.drop (placement.slot.endChar - cursor).toNat)) := by
  obtain ⟨-, hlength, hsize, hcursor, hrest⟩ := h
  have hlt := Slot.firstChar_lt_endChar hlength
  obtain ⟨before, hbefore⟩ : ∃ before : Nat, placement.slot.firstChar = cursor + before :=
    ⟨(placement.slot.firstChar - cursor).toNat, by omega⟩
  obtain ⟨inside, hinside⟩ : ∃ inside : Nat,
      placement.slot.endChar = (cursor + before + 1 + inside : Nat) :=
    ⟨(placement.slot.endChar - placement.slot.firstChar - 1).toNat, by omega⟩
  obtain ⟨c, others, hothers, hpieces⟩ : ∃ c others, others.length = inside ∧
      left = left.take before ++ c :: (others ++ left.drop (before + 1 + inside)) :=
    exists_pieces (by omega)
  have htake : (left.take before).length = before := by
    rw [List.length_take]
    omega
  have hkept : (placement.slot.firstChar - cursor).toNat = before := by omega
  have hgone : (placement.slot.endChar - cursor).toNat = before + 1 + inside := by omega
  have hend : placement.slot.endChar.toNat = cursor + before + 1 + inside := by omega
  have hsubstituted : substitutedFrom (placement :: rest) text cursor
      (left.take before ++ c :: (others ++ left.drop (before + 1 + inside))) = _ :=
    substitutedFrom_pieces c (by rw [htake]; omega) (by rw [htake, hothers]; omega)
      fun other hmem => (hrest.bounds hmem).1
  rw [← hpieces, htake, hothers] at hsubstituted
  rw [hsubstituted, hkept, hgone, hend]

/-- Texts of equal lengths can be told apart in the places of the slots. -/
theorem substitutedFrom_inj {size : Nat} {placements : List Placement}
    {text other : Placement → List Char} {cursor : Nat} {left : List Char}
    (h : Fits size cursor placements) (hleft : cursor + left.length = size)
    (hlength : ∀ placement ∈ placements, (text placement).length = (other placement).length) :
    substitutedFrom placements text cursor left = substitutedFrom placements other cursor left ↔
      ∀ placement ∈ placements, text placement = other placement := by
  induction placements generalizing cursor left with
  | nil =>
      have hfree : ∀ text : Placement → List Char, substitutedFrom [] text cursor left = left :=
        fun text => substitutedFrom_free fun placement hmem => absurd hmem List.not_mem_nil
      simp [hfree]
  | cons placement rest ih =>
      obtain ⟨-, hrest, hsize⟩ := h.advance hleft
      have hlater := ih hrest hsize fun later hmem => hlength later (List.mem_cons_of_mem _ hmem)
      have hfirst := hlength placement (List.mem_cons_self ..)
      rw [substitutedFrom_cons h hleft, substitutedFrom_cons h hleft, List.forall_mem_cons, ← hlater]
      constructor
      · intro heq
        exact List.append_inj (List.append_cancel_left heq) hfirst
      · rintro ⟨heq, hmore⟩
        rw [heq, hmore]

/-! ## The order of the slots -/

theorem LinkReferences.byPosition_perm (links : LinkReferences) :
    links.byPosition.Perm links.placements :=
  sortBy_perm _

theorem replaced_perm {placements others : List Placement} (hperm : placements.Perm others)
    (honce : ∀ p ∈ placements, ∀ q ∈ placements, p.slot.firstChar = q.slot.firstChar → p = q)
    (text : Placement → List Char) (index : Nat) (c : Char) :
    replaced placements text index c = replaced others text index c := by
  have hany : placements.any (fun placement => placement.slot.covers index) =
      others.any fun placement => placement.slot.covers index := by
    rw [Bool.eq_iff_iff, List.any_eq_true, List.any_eq_true]
    simp only [hperm.mem_iff]
  have hfind : placements.find? (fun placement => placement.slot.firstChar == (index : Int)) =
      others.find? fun placement => placement.slot.firstChar == (index : Int) :=
    find?_perm hperm fun p hp q hq hpindex hqindex =>
      honce p hp q hq ((eq_of_beq hpindex).trans (eq_of_beq hqindex).symm)
  simp only [replaced, hfind, hany]

theorem substitutedFrom_perm {placements others : List Placement} (hperm : placements.Perm others)
    (honce : ∀ p ∈ placements, ∀ q ∈ placements, p.slot.firstChar = q.slot.firstChar → p = q)
    (text : Placement → List Char) (index : Nat) (chars : List Char) :
    substitutedFrom placements text index chars = substitutedFrom others text index chars := by
  induction chars generalizing index with
  | nil => rfl
  | cons c rest ih => rw [substitutedFrom, substitutedFrom, replaced_perm hperm honce, ih]

/-- Slots that fit may be taken by position. -/
theorem LinkReferences.substituted_eq {links : LinkReferences} {size cursor : Int}
    (h : Fits size cursor links.byPosition) (bytecode : List Char)
    (text : Placement → List Char) :
    links.substituted bytecode text = substitutedFrom links.byPosition text 0 bytecode :=
  (substitutedFrom_perm links.byPosition_perm (fun _ hp _ hq => h.eq_of_firstChar hp hq) text 0
    bytecode).symm

theorem LinkReferences.substituted_inj {links : LinkReferences} {bytecode : List Char}
    {text other : Placement → List Char} (h : Fits bytecode.length 0 links.byPosition)
    (hlength : ∀ placement ∈ links.byPosition,
      (text placement).length = (other placement).length) :
    links.substituted bytecode text = links.substituted bytecode other ↔
      ∀ placement ∈ links.byPosition, text placement = other placement := by
  rw [LinkReferences.substituted_eq h, LinkReferences.substituted_eq h]
  exact substitutedFrom_inj h (Nat.zero_add _) hlength

theorem LinkReferences.substituted_congr {links : LinkReferences} {bytecode : List Char}
    {text other : Placement → List Char} (h : Fits bytecode.length 0 links.byPosition)
    (hequal : ∀ placement ∈ links.byPosition, text placement = other placement) :
    links.substituted bytecode text = links.substituted bytecode other :=
  (LinkReferences.substituted_inj h fun placement hmem => by rw [hequal placement hmem]).mpr hequal

end SolDeployer
