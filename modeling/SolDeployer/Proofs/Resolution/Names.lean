import Mathlib.Data.List.Nodup
import SolDeployer.Proofs.Entries
import SolDeployer.Resolution

/-!
# Identifiers of libraries

Names that libraries share get an index, and afterwards no two are the
same (`identifiers_nodup`). The reason is the list of names that are
taken: it holds every name there is and every identifier made so far, and
a new identifier is never one of them. A name that is kept can therefore
only be met again as itself, which the counts and the last indices rule
out.
-/

namespace SolDeployer.Naming

theorem toString_injective {m n : Nat} (h : toString m = toString n) : m = n := by
  rw [Nat.toString_eq_ofList_toDigits, Nat.toString_eq_ofList_toDigits] at h
  have hdigits := congrArg (Nat.ofDigitChars 10 · 0) (String.ofList_injective h)
  simpa only [Nat.ofDigitChars_ten_toDigits] using hdigits

/-! ## Free indices -/

/-- Every index that the search passes belongs to a name that is taken, and
the one it ends at does not, unless the tries ran out. -/
theorem freeIndex_spec (taken : List String) (name : String) (tries index : Nat) :
    ∃ passed, freeIndex taken name tries index = index + passed ∧ passed ≤ tries ∧
      (∀ k < passed, name ++ toString (index + k) ∈ taken) ∧
      (passed < tries → name ++ toString (index + passed) ∉ taken) := by
  induction tries generalizing index with
  | zero => exact ⟨0, rfl, Nat.le_refl 0, fun k hk => absurd hk (Nat.not_lt_zero k), by simp⟩
  | succ tries ih =>
      by_cases hmem : name ++ toString index ∈ taken
      · obtain ⟨passed, heq, hle, hpassed, hfree⟩ := ih (index + 1)
        refine ⟨passed + 1, ?_, by omega, fun k hk => ?_, fun hlt => ?_⟩
        · simp only [freeIndex, List.contains_iff_mem, hmem, if_true, heq]
          omega
        · rcases k with _ | k
          · exact hmem
          · rw [show index + (k + 1) = index + 1 + k by omega]
            exact hpassed k (by omega)
        · rw [show index + (passed + 1) = index + 1 + passed by omega]
          exact hfree (by omega)
      · have hfirst : freeIndex taken name (tries + 1) index = index := by
          simp only [freeIndex, List.contains_iff_mem, hmem, if_false]
        exact ⟨0, hfirst, by omega, fun k hk => absurd hk (Nat.not_lt_zero k), fun _ => hmem⟩

/-- Distinct names with an index that are taken are no more than those taken. -/
theorem passed_le_length {taken : List String} {name : String} {index passed : Nat}
    (h : ∀ k < passed, name ++ toString (index + k) ∈ taken) : passed ≤ taken.length := by
  have hnodup : ((List.range passed).map fun k => name ++ toString (index + k)).Nodup := by
    refine List.Nodup.map (fun a b hab => ?_) List.nodup_range
    have := toString_injective ((String.append_right_inj name).mp hab)
    omega
  have hsub : ((List.range passed).map fun k => name ++ toString (index + k)) ⊆ taken := by
    intro candidate hmem
    obtain ⟨k, hk, rfl⟩ := List.mem_map.mp hmem
    exact h k (List.mem_range.mp hk)
  simpa using List.Nodup.length_le_of_subset hnodup hsub

/-- With as many tries as names taken the search ends at a free name. -/
theorem freeIndex_not_mem (taken : List String) (name : String) (index : Nat) :
    name ++ toString (freeIndex taken name taken.length index) ∉ taken := by
  obtain ⟨passed, heq, hle, hpassed, hfree⟩ := freeIndex_spec taken name taken.length index
  rw [heq]
  intro hmem
  rcases Nat.lt_or_eq_of_le hle with hlt | rfl
  · exact hfree hlt hmem
  · have hall : ∀ k < taken.length + 1, name ++ toString (index + k) ∈ taken := fun k hk => by
      rcases Nat.lt_or_eq_of_le (Nat.le_of_lt_succ hk) with hk | rfl
      · exact hpassed k hk
      · exact hmem
    have := passed_le_length hall
    omega

/-! ## Assignment -/

@[simp] theorem length_assign (shared : List String) (taken : List String)
    (last : Entries String Nat) (names : List String) :
    (assign shared taken last names).length = names.length := by
  induction names generalizing taken last with
  | nil => rfl
  | cons name rest ih =>
      unfold assign
      split
      · simp [ih]
      · split <;> simp [ih]

/-- An identifier is new, or it is a name that no library before has. -/
theorem mem_assign {shared names : List String} {identifier : String} {taken : List String}
    {last : Entries String Nat} (h : identifier ∈ assign shared taken last names) :
    identifier ∉ taken ∨
      identifier ∈ names ∧ (identifier ∉ shared ∨ last.get? identifier = none) := by
  induction names generalizing taken last with
  | nil => cases h
  | cons name rest ih =>
      unfold assign at h
      split at h
      · rename_i hshared
        rcases List.mem_cons.mp h with rfl | h
        · exact .inr ⟨List.mem_cons_self .., .inl (by simpa using hshared)⟩
        · rcases ih h with hnew | ⟨hmem, hfirst⟩
          · exact .inl hnew
          · exact .inr ⟨List.mem_cons_of_mem _ hmem, hfirst⟩
      · split at h
        · rename_i hlast
          rcases List.mem_cons.mp h with rfl | h
          · exact .inr ⟨List.mem_cons_self .., .inr hlast⟩
          · rcases ih h with hnew | ⟨hmem, hfirst⟩
            · exact .inl hnew
            · refine .inr ⟨List.mem_cons_of_mem _ hmem, hfirst.imp id fun hget => ?_⟩
              have hne : identifier ≠ name := fun heq => by simp [heq] at hget
              rwa [Entries.get?_insert_of_ne _ _ hne] at hget
        · rename_i index hlast
          rcases List.mem_cons.mp h with rfl | h
          · exact .inl (freeIndex_not_mem taken name (index + 1))
          · rcases ih h with hnew | ⟨hmem, hfirst⟩
            · exact .inl fun hmem => hnew (List.mem_cons_of_mem _ hmem)
            · refine .inr ⟨List.mem_cons_of_mem _ hmem, hfirst.imp id fun hget => ?_⟩
              have hne : identifier ≠ name := fun heq => by simp [heq] at hget
              rwa [Entries.get?_insert_of_ne _ _ hne] at hget

/-- Identifiers differ if all names are taken and only shared names occur twice. -/
theorem assign_nodup {shared : List String} {taken : List String} {last : Entries String Nat}
    {names : List String} (htaken : ∀ name ∈ names, name ∈ taken)
    (honce : ∀ name, name ∉ shared → names.count name ≤ 1) :
    (assign shared taken last names).Nodup := by
  induction names generalizing taken last with
  | nil => exact List.nodup_nil
  | cons name rest ih =>
      have hrest : ∀ other ∈ rest, other ∈ taken :=
        fun other hmem => htaken other (List.mem_cons_of_mem _ hmem)
      have honce' : ∀ other, other ∉ shared → rest.count other ≤ 1 := fun other hother =>
        Nat.le_trans (List.count_le_count_cons ..) (honce other hother)
      have hname : name ∈ taken := htaken name (List.mem_cons_self ..)
      unfold assign
      split
      · rename_i hshared
        have hshared' : name ∉ shared := by simpa using hshared
        refine List.nodup_cons.mpr ⟨fun hmem => ?_, ih hrest honce'⟩
        rcases mem_assign hmem with hnew | ⟨hagain, -⟩
        · exact hnew hname
        · have hcount := honce name hshared'
          rw [List.count_cons_self] at hcount
          have := List.count_pos_iff.mpr hagain
          omega
      · rename_i hshared
        have hshared' : name ∈ shared := by simpa using hshared
        split
        · refine List.nodup_cons.mpr ⟨fun hmem => ?_, ih hrest honce'⟩
          rcases mem_assign hmem with hnew | ⟨-, hnot | hget⟩
          · exact hnew hname
          · exact hnot hshared'
          · simp at hget
        · rename_i index hlast
          refine List.nodup_cons.mpr ⟨fun hmem => ?_,
            ih (fun other hother => List.mem_cons_of_mem _ (hrest other hother)) honce'⟩
          rcases mem_assign hmem with hnew | ⟨hagain, -⟩
          · exact hnew (List.mem_cons_self ..)
          · exact freeIndex_not_mem _ _ _ (hrest _ hagain)

@[simp] theorem mem_shared {names : List String} {name : String} :
    name ∈ shared names ↔ name ∈ names ∧ 1 < names.count name := by
  simp [shared]

theorem identifiers_nodup (names : List String) : (identifiers names).Nodup := by
  refine assign_nodup (fun name hmem => hmem) fun name hshared => ?_
  rcases Nat.lt_or_ge 1 (names.count name) with hcount | hcount
  · exact absurd (mem_shared.mpr ⟨List.count_pos_iff.mp (by omega), hcount⟩) hshared
  · exact hcount

@[simp] theorem length_identifiers (names : List String) :
    (identifiers names).length = names.length := length_assign ..

theorem smallest?_eq_none {names : List String} (h : smallest? names = none) : names = [] := by
  cases names with
  | nil => rfl
  | cons name rest =>
      unfold smallest? at h
      split at h
      · cases h
      · split at h <;> cases h

/-- Names that no two libraries share differ. -/
theorem nodup_of_shared_nil {names : List String} (h : shared names = []) : names.Nodup := by
  rw [List.nodup_iff_count_le_one]
  intro name
  by_contra hcount
  have hmem : name ∈ shared names :=
    mem_shared.mpr ⟨List.count_pos_iff.mp (by omega), by omega⟩
  rw [h] at hmem
  cases hmem

/-- An identifier is a name, or a name with an index. -/
theorem assign_form {shared names : List String} {identifier : String} {taken : List String}
    {last : Entries String Nat} (h : identifier ∈ assign shared taken last names) :
    ∃ name ∈ names, identifier = name ∨ ∃ index : Nat, identifier = name ++ toString index := by
  induction names generalizing taken last with
  | nil => cases h
  | cons name rest ih =>
      have hlater : ∀ {taken last}, identifier ∈ assign shared taken last rest →
          ∃ other ∈ name :: rest, identifier = other ∨
            ∃ index : Nat, identifier = other ++ toString index := fun h => by
        obtain ⟨other, hmem, hform⟩ := ih h
        exact ⟨other, List.mem_cons_of_mem _ hmem, hform⟩
      unfold assign at h
      split at h
      · rcases List.mem_cons.mp h with rfl | h
        · exact ⟨_, List.mem_cons_self .., .inl rfl⟩
        · exact hlater h
      · split at h
        · rcases List.mem_cons.mp h with rfl | h
          · exact ⟨_, List.mem_cons_self .., .inl rfl⟩
          · exact hlater h
        · rcases List.mem_cons.mp h with rfl | h
          · exact ⟨_, List.mem_cons_self .., .inr ⟨_, rfl⟩⟩
          · exact hlater h

end SolDeployer.Naming
