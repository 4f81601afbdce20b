import Mathlib.Data.List.Basic
import SolDeployer.Library
import SolDeployer.Proofs.Solidity.ExpressionReader
import SolDeployer.Proofs.Text

/-!
# Names of libraries

The identifier of a library with a proper name is a proper name too, and
without a colon in their names two libraries have two keys.
-/

namespace SolDeployer

open Solidity (IsName isNameChar)

theorem toNat_lt_of_isNameChar {c : Char} (h : isNameChar c = true) : c.toNat < 128 := by
  have hval : c.val.toNat = c.toNat := rfl
  unfold isNameChar at h
  delta Char.isAlphanum Char.isAlpha Char.isUpper Char.isLower Char.isDigit at h
  simp only [UInt32.le_iff_toNat_le, hval, Bool.or_eq_true, Bool.and_eq_true, decide_eq_true_eq,
    beq_iff_eq, ge_iff_le] at h
  rcases h with (h | rfl) | rfl
  · simp at h
    omega
  · decide
  · decide

/-- The small form of a name character is one name character. -/
theorem lower_isNameChar {c : Char} (h : isNameChar c = true) :
    ∃ small, Text.lower [c] = [small] ∧ isNameChar small = true := by
  have hlt := toNat_lt_of_isNameChar h
  obtain ⟨hlower, hsmall⟩ : Text.lowerChar c = [(Text.lowerChar c).headD c] ∧
      isNameChar ((Text.lowerChar c).headD c) = true := by
    refine Text.of_small (P := fun c => isNameChar c = true →
      Text.lowerChar c = [(Text.lowerChar c).headD c] ∧
        isNameChar ((Text.lowerChar c).headD c) = true) ?_ hlt h
    decide +kernel
  refine ⟨_, ?_, hsmall⟩
  rw [Text.lower_ascii (by simpa using hlt), List.flatMap_cons, List.flatMap_nil, List.append_nil]
  exact hlower

theorem isName_identifierOf {name : String} (h : IsName name) : IsName (identifierOf name) := by
  obtain ⟨hne, hname⟩ := h
  unfold identifierOf
  split
  · rename_i hnil
    exact absurd (String.toList_eq_nil_iff.mp hnil) hne
  · rename_i first rest heq
    rw [heq] at hname
    obtain ⟨small, hsmall, hchar⟩ := lower_isNameChar (hname first (List.mem_cons_self ..))
    rw [hsmall]
    refine ⟨fun hempty => ?_, fun c hmem => ?_⟩
    · have := congrArg String.toList hempty
      simp at this
    · rw [String.toList_ofList] at hmem
      rcases List.mem_cons.mp hmem with rfl | hmem
      · exact hchar
      · exact hname c (List.mem_cons_of_mem _ hmem)

/-- A name with a number after it is a name. -/
theorem isName_append_toString {name : String} (h : IsName name) (n : Nat) :
    IsName (name ++ toString n) := by
  obtain ⟨hne, hname⟩ := h
  refine ⟨fun hempty => hne ?_, fun c hmem => ?_⟩
  · have hlist := congrArg String.toList hempty
    rw [String.toList_append, String.toList_empty, List.append_eq_nil_iff] at hlist
    exact String.toList_eq_nil_iff.mp hlist.1
  · rw [String.toList_append, List.mem_append] at hmem
    rcases hmem with hmem | hmem
    · exact hname c hmem
    · rw [Nat.toString_eq_ofList_toDigits, String.toList_ofList] at hmem
      have hdigit := Nat.isDigit_of_mem_toDigits (by decide) (by decide) hmem
      simp [isNameChar, Char.isAlphanum, hdigit]

theorem LibraryId.toList_key (id : LibraryId) :
    id.key.toList = id.file.toList ++ ':' :: id.name.toList := by
  rw [LibraryId.key, String.toList_append, String.toList_append, List.append_assoc]
  rfl

/-- A key ends with the name if no colon stands in the name. -/
theorem LibraryId.eq_of_key {id other : LibraryId} (hid : ':' ∉ id.name.toList)
    (hother : ':' ∉ other.name.toList) (h : id.key = other.key) : id = other := by
  have hkey : id.name.toList.reverse ++ ':' :: id.file.toList.reverse =
      other.name.toList.reverse ++ ':' :: other.file.toList.reverse := by
    have hlist := congrArg (List.reverse ∘ String.toList) h
    simpa [LibraryId.toList_key] using hlist
  have hname : id.name.toList.reverse = other.name.toList.reverse := by
    have hsplit := congrArg (List.splitOn ':') hkey
    rw [List.splitOn_append_cons_self_of_not_mem (by simpa using hid),
      List.splitOn_append_cons_self_of_not_mem (by simpa using hother)] at hsplit
    exact (List.cons.inj hsplit).1
  rw [hname] at hkey
  have hfile := (List.cons.inj (List.append_cancel_left hkey)).2
  obtain ⟨file, name⟩ := id
  obtain ⟨file', name'⟩ := other
  rw [LibraryId.mk.injEq]
  exact ⟨String.toList_inj.mp (List.reverse_injective hfile),
    String.toList_inj.mp (List.reverse_injective hname)⟩

end SolDeployer
