import SolDeployer.Proofs.Artifact.References
import SolDeployer.Proofs.Segmentation.RoundTrip

/-!
# Digits of an artifact

An artifact is read only if small digits stand everywhere outside its
slots. Slots are clipped there and cut here, and both look at the same
characters: what is cut out between the slots of such a bytecode is pairs
of small digits (`segment_digits`).
-/

namespace SolDeployer

open Artifact (bytecodeDefect?)

/-! ## Pieces between the slots -/

/-- Pairs of small digits. -/
def AreBytes (digits : List Char) : Prop :=
  digits.length % 2 = 0 ∧ ∀ c ∈ digits, Hex.isLowerDigit c = true

theorem AreBytes.append {digits more : List Char} (h : AreBytes digits) (hmore : AreBytes more) :
    AreBytes (digits ++ more) := by
  refine ⟨?_, fun c hmem => ?_⟩
  · rw [List.length_append, Nat.add_mod, h.1, hmore.1]
  · rcases List.mem_append.mp hmem with hmem | hmem
    · exact h.2 c hmem
    · exact hmore.2 c hmem

/-- Outside the slots stand small digits, in what is left of a bytecode. -/
def LowerOutside (placements : List Placement) (cursor : Nat) (left : List Char) : Prop :=
  ∀ i c, left[i]? = some c → Hex.isLowerDigit c = true ∨
    ∃ placement ∈ placements, placement.slot.covers (cursor + i) = true

namespace LowerOutside

variable {placements rest : List Placement} {placement : Placement} {cursor : Nat} {left : List Char}

theorem take (h : LowerOutside placements cursor left) (n : Nat) :
    LowerOutside placements cursor (left.take n) := by
  intro i c hc
  rw [List.getElem?_take] at hc
  split at hc
  · exact h i c hc
  · cases hc

/-- Before the first of the slots all are digits. -/
theorem areBytes (h : LowerOutside placements cursor left) (heven : left.length % 2 = 0)
    (hfree : ∀ placement ∈ placements, (cursor + left.length : Int) ≤ placement.slot.firstChar) :
    AreBytes left := by
  refine ⟨heven, fun c hmem => ?_⟩
  obtain ⟨i, hi⟩ := List.getElem?_of_mem hmem
  rcases h i c hi with hdigit | ⟨placement, hplacement, hcovers⟩
  · exact hdigit
  · obtain ⟨hlt, -⟩ := List.getElem?_eq_some_iff.mp hi
    have hfirst := (Slot.covers_iff.mp hcovers).1
    have hafter := hfree placement hplacement
    omega

/-- After the first slot the others are those that matter. -/
theorem advance (h : LowerOutside (placement :: rest) cursor left) {passed : Nat}
    (hend : placement.slot.endChar ≤ (cursor + passed : Nat)) :
    LowerOutside rest (cursor + passed) (left.drop passed) := by
  intro i c hc
  rw [List.getElem?_drop] at hc
  rcases h _ c hc with hdigit | ⟨other, hother, hcovers⟩
  · exact .inl hdigit
  · rw [← Nat.add_assoc] at hcovers
    rcases List.mem_cons.mp hother with rfl | hother
    · have hlt := (Slot.covers_iff.mp hcovers).2
      omega
    · exact .inr ⟨other, hother, hcovers⟩

end LowerOutside

theorem areBytes_cut {size : Nat} {placements : List Placement} (parameters : List Parameter)
    {cursor : Nat} {left : List Char} (h : Fits size cursor placements)
    (hleft : cursor + left.length = size) (hcursor : cursor % 2 = 0) (hsize : size % 2 = 0)
    (hlower : LowerOutside placements cursor left)
    {digits : List Char} (hmem : Segment.hex digits ∈ cut parameters cursor left placements) :
    AreBytes digits := by
  induction placements generalizing cursor left with
  | nil =>
      obtain ⟨rfl, -⟩ := mem_digitSegment hmem
      exact hlower.areBytes (by omega) fun placement hplacement => by cases hplacement
  | cons placement rest ih =>
      obtain ⟨hend, hrest, hadvance⟩ := h.advance hleft
      obtain ⟨hfirst, hlt, hlast⟩ := h.bounds (List.mem_cons_self ..)
      -- slots count bytes, so they begin and end at even places
      have hevenFirst : placement.slot.firstChar % 2 = 0 := by
        unfold Slot.firstChar
        omega
      have hevenEnd : placement.slot.endChar.toNat % 2 = 0 := by
        unfold Slot.endChar
        omega
      have hlength : (left.take (placement.slot.firstChar - cursor).toNat).length =
          (placement.slot.firstChar - cursor).toNat := by
        rw [List.length_take]
        omega
      have hpassed : cursor + (placement.slot.endChar - cursor).toNat =
          placement.slot.endChar.toNat := by omega
      rcases List.mem_append.mp hmem with hmem | hmem
      · obtain ⟨rfl, -⟩ := mem_digitSegment hmem
        refine (hlower.take _).areBytes (by omega) fun other hother => ?_
        rw [hlength]
        rcases List.mem_cons.mp hother with rfl | hother
        · omega
        · have hafter := (hrest.bounds hother).1
          omega
      · rcases List.mem_cons.mp hmem with heq | hmem
        · cases heq
        · have hlater : LowerOutside rest (cursor + (placement.slot.endChar - cursor).toNat)
              (left.drop (placement.slot.endChar - cursor).toNat) :=
            hlower.advance (by omega)
          rw [hpassed] at hlater
          have hcut := ih hrest hadvance hevenEnd hlater
          rw [hend] at hcut
          exact hcut hmem

/-- The pieces between the slots of a proper bytecode are pairs of small digits. -/
theorem segment_digits {bytecode : List Char} {links : LinkReferences} {code : Segmentation}
    (hproper : bytecodeDefect? bytecode links = none) (h : segment bytecode links = .ok code)
    {digits : List Char} (hmem : Segment.hex digits ∈ code.segments) : AreBytes digits := by
  have hperm := links.byPosition_perm
  obtain ⟨heven, hstray⟩ := Artifact.bytecodeDefect?_eq_none.mp hproper
  have hlower : LowerOutside links.byPosition 0 bytecode := by
    intro i c hc
    by_contra hnot
    obtain ⟨hdigit, hcovers⟩ := not_or.mp hnot
    refine hstray i ⟨⟨c, hc, fun hmem => hdigit (Hex.isLowerDigit_iff.mpr hmem)⟩, ?_⟩
    intro placement hplacement hinside
    refine hcovers ⟨placement, hperm.mem_iff.mpr hplacement, ?_⟩
    rw [Nat.zero_add]
    exact Slot.covers_iff.mpr hinside
  obtain ⟨hfits, ⟨hnil, rfl⟩ | ⟨-, rfl⟩⟩ := segment_ok h
  · rw [hnil] at hlower
    obtain rfl : digits = bytecode := by simpa using hmem
    exact hlower.areBytes heven fun placement hplacement => by cases hplacement
  · exact areBytes_cut _ hfits (Nat.zero_add _) rfl heven hlower hmem

/-- Pairs of small digits stay such with others in their slots. -/
theorem areBytes_refill {texts : List (List Char)} {segments : List Segment} {chars : List Char}
    (h : refill texts segments = some chars)
    (hdigits : ∀ digits, Segment.hex digits ∈ segments → AreBytes digits)
    (htexts : ∀ text ∈ texts, AreBytes text) : AreBytes chars := by
  induction segments generalizing texts chars with
  | nil =>
      cases texts with
      | nil =>
          obtain rfl := Option.some.inj h
          exact ⟨rfl, fun c hmem => by cases hmem⟩
      | cons text texts => cases h
  | cons segment rest ih =>
      have hrest : ∀ digits, Segment.hex digits ∈ rest → AreBytes digits :=
        fun digits hmem => hdigits digits (List.mem_cons_of_mem _ hmem)
      cases segment with
      | hex digits =>
          rw [refill, Option.map_eq_some_iff] at h
          obtain ⟨more, hmore, rfl⟩ := h
          exact (hdigits digits (List.mem_cons_self ..)).append (ih hmore hrest htexts)
      | address name =>
          cases texts with
          | nil => cases h
          | cons text texts =>
              rw [refill, Option.map_eq_some_iff] at h
              obtain ⟨more, hmore, rfl⟩ := h
              have hmore' := ih hmore hrest fun other hmem => htexts other (List.mem_cons_of_mem _ hmem)
              exact (htexts text (List.mem_cons_self ..)).append hmore'

theorem areBytes_substituted {bytecode : List Char} {links : LinkReferences} {code : Segmentation}
    {text : Placement → List Char} (hproper : bytecodeDefect? bytecode links = none)
    (h : segment bytecode links = .ok code)
    (htext : ∀ placement ∈ links.byPosition, AreBytes (text placement)) :
    AreBytes (links.substituted bytecode text) := by
  refine areBytes_refill (refill_segment h text) (fun digits hmem => segment_digits hproper h hmem) ?_
  intro chars hmem
  obtain ⟨placement, hplacement, rfl⟩ := List.mem_map.mp hmem
  exact htext placement hplacement

/-! ## Artifacts -/

/-- A bytecode that was read is proper. -/
theorem Artifact.read_ok {document : Artifact.Document} {contract : String} {host : Host}
    {artifact : Artifact} (h : Artifact.read document contract host = .ok artifact) :
    bytecodeDefect? artifact.bytecode artifact.links = none := by
  obtain ⟨fields, -, h⟩ := bind_eq_ok.mp h
  exact (Artifact.ofFields_ok h).bytecode

end SolDeployer
