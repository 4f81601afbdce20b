import Mathlib.Data.List.Induction
import Mathlib.Data.List.Nodup
import SolDeployer.Entries

/-!
# Laws of entries

What an insertion does to look-ups, and what a list of pairs says about a
key: the last of its pairs counts. `get?_ofList_of_agree` is the form
that address maps need, where several pairs of one name may agree.
-/

namespace SolDeployer.Entries

variable {κ α : Type} [BEq κ]

/-! ## Insertion -/

theorem get?_nil (key : κ) : get? ([] : Entries κ α) key = none := rfl

theorem ofList_concat (pairs : List (κ × α)) (key : κ) (value : α) :
    ofList (pairs ++ [(key, value)]) = (ofList pairs).insert key value := by
  simp [ofList]

variable [LawfulBEq κ]

@[simp] theorem get?_insert_self (entries : Entries κ α) (key : κ) (value : α) :
    (entries.insert key value).get? key = some value := by
  induction entries with
  | nil => simp [insert, get?]
  | cons entry rest ih =>
      obtain ⟨k, old⟩ := entry
      by_cases hk : k = key
      · simp [insert, get?, hk]
      · simp [insert, get?, hk, ih]

theorem get?_insert_of_ne (entries : Entries κ α) {key other : κ} (value : α)
    (h : other ≠ key) : (entries.insert key value).get? other = entries.get? other := by
  induction entries with
  | nil => simp [insert, get?, Ne.symm h]
  | cons entry rest ih =>
      obtain ⟨k, old⟩ := entry
      by_cases hk : k = key
      · subst hk
        simp [insert, get?, Ne.symm h]
      · simp [insert, get?, hk, ih]

/-- A key that has a value has one after every insertion. -/
theorem get?_insert_ne_none {entries : Entries κ α} {key : κ} (h : entries.get? key ≠ none)
    (other : κ) (value : α) : (entries.insert other value).get? key ≠ none := by
  by_cases heq : key = other
  · subst heq
    simp
  · rwa [get?_insert_of_ne _ _ heq]

theorem insert_of_notMem {entries : Entries κ α} {key : κ} (value : α) (h : key ∉ entries.keys) :
    entries.insert key value = entries ++ [(key, value)] := by
  induction entries with
  | nil => rfl
  | cons entry rest ih =>
      obtain ⟨k, old⟩ := entry
      simp only [keys, List.map_cons, List.mem_cons, not_or] at h
      have hk : (k == key) = false := beq_eq_false_iff_ne.mpr (Ne.symm h.1)
      simp only [insert, hk, if_false, Bool.false_eq_true, ih h.2, List.cons_append]

/-- A value that is there already is inserted without effect. -/
theorem insert_of_get? {entries : Entries κ α} {key : κ} {value : α}
    (h : entries.get? key = some value) : entries.insert key value = entries := by
  induction entries with
  | nil => cases h
  | cons entry rest ih =>
      obtain ⟨k, old⟩ := entry
      by_cases hk : k = key
      · simp only [get?, hk, beq_self_eq_true, if_true, Option.some.injEq] at h
        simp only [insert, hk, beq_self_eq_true, if_true, h]
      · simp only [get?, beq_eq_false_iff_ne.mpr hk, if_false, Bool.false_eq_true] at h
        simp only [insert, beq_eq_false_iff_ne.mpr hk, if_false, Bool.false_eq_true, ih h]

/-- A known key keeps its place, and a new one comes last. -/
theorem keys_insert [DecidableEq κ] (entries : Entries κ α) (key : κ) (value : α) :
    (entries.insert key value).keys =
      if key ∈ entries.keys then entries.keys else entries.keys ++ [key] := by
  by_cases hmem : key ∈ entries.keys
  · rw [if_pos hmem]
    induction entries with
    | nil => cases hmem
    | cons entry rest ih =>
        obtain ⟨k, old⟩ := entry
        by_cases hk : k = key
        · simp only [insert, hk, beq_self_eq_true, if_true, keys, List.map_cons]
        · have hrest : key ∈ keys rest := (List.mem_cons.mp hmem).resolve_left (Ne.symm hk)
          have htail := ih hrest
          simp only [keys] at htail
          simp only [insert, beq_eq_false_iff_ne.mpr hk, if_false, Bool.false_eq_true, keys,
            List.map_cons, htail]
  · rw [if_neg hmem, insert_of_notMem value hmem]
    simp only [keys, List.map_append, List.map_cons, List.map_nil]

/-! ## Entries one after the other -/

theorem get?_append_of_some {entries more : Entries κ α} {key : κ} {value : α}
    (h : entries.get? key = some value) : get? (entries ++ more) key = some value := by
  induction entries with
  | nil => cases h
  | cons entry rest ih =>
      obtain ⟨k, old⟩ := entry
      rw [List.cons_append]
      by_cases hk : k = key
      · simpa only [get?, hk, beq_self_eq_true, if_true] using h
      · simp only [get?, beq_eq_false_iff_ne.mpr hk, if_false, Bool.false_eq_true] at h ⊢
        exact ih h

theorem get?_append_of_notMem {entries more : Entries κ α} {key : κ} (h : key ∉ entries.keys) :
    get? (entries ++ more) key = get? more key := by
  induction entries with
  | nil => rfl
  | cons entry rest ih =>
      obtain ⟨k, old⟩ := entry
      simp only [keys, List.map_cons, List.mem_cons, not_or] at h
      have hk : (k == key) = false := beq_eq_false_iff_ne.mpr (Ne.symm h.1)
      rw [List.cons_append]
      simp only [get?, hk, if_false, Bool.false_eq_true]
      exact ih h.2

theorem mem_of_get? {entries : Entries κ α} {key : κ} {value : α}
    (h : entries.get? key = some value) : (key, value) ∈ entries := by
  induction entries with
  | nil => cases h
  | cons entry rest ih =>
      obtain ⟨k, old⟩ := entry
      by_cases hk : k = key
      · subst hk
        simp only [get?, beq_self_eq_true, if_true, Option.some.injEq] at h
        rw [h]
        exact List.mem_cons_self ..
      · simp only [get?, beq_eq_false_iff_ne.mpr hk, if_false, Bool.false_eq_true] at h
        exact List.mem_cons_of_mem _ (ih h)

theorem exists_get?_of_mem_keys {entries : Entries κ α} {key : κ} (h : key ∈ entries.keys) :
    ∃ value, entries.get? key = some value := by
  induction entries with
  | nil => cases h
  | cons entry rest ih =>
      obtain ⟨k, value⟩ := entry
      by_cases hk : k = key
      · exact ⟨value, by simp [get?, hk]⟩
      · rw [keys, List.map_cons, List.mem_cons] at h
        obtain ⟨other, hother⟩ := ih (h.resolve_left (Ne.symm hk))
        exact ⟨other, by simp [get?, hk, hother]⟩

theorem get?_of_nodup {entries : Entries κ α} (hnodup : entries.keys.Nodup) {key : κ} {value : α}
    (hmem : (key, value) ∈ entries) : entries.get? key = some value := by
  induction entries with
  | nil => cases hmem
  | cons entry rest ih =>
      obtain ⟨k, old⟩ := entry
      simp only [keys, List.map_cons, List.nodup_cons] at hnodup
      rcases List.mem_cons.mp hmem with heq | hmem
      · obtain ⟨rfl, rfl⟩ := Prod.mk.inj heq
        simp [get?]
      · have hne : k ≠ key := fun heq => hnodup.1 (heq ▸ List.mem_map_of_mem hmem)
        simp only [get?, beq_eq_false_iff_ne.mpr hne, if_false, Bool.false_eq_true]
        exact ih hnodup.2 hmem

/-! ## Lists of pairs -/

/-- The last pair of a key gives its value. -/
theorem get?_ofList (pairs : List (κ × α)) (key : κ) :
    (ofList pairs).get? key =
      (pairs.reverse.find? fun pair => pair.1 == key).map Prod.snd := by
  induction pairs using List.reverseRecOn with
  | nil => rfl
  | append_singleton pairs pair ih =>
      obtain ⟨k, value⟩ := pair
      rw [ofList_concat]
      by_cases hk : key = k
      · subst hk
        simp
      · rw [get?_insert_of_ne _ _ hk, ih]
        simp [beq_eq_false_iff_ne.mpr (Ne.symm hk)]

theorem get?_ofList_mem {pairs : List (κ × α)} {key : κ} {value : α}
    (h : (ofList pairs).get? key = some value) : (key, value) ∈ pairs := by
  rw [get?_ofList, Option.map_eq_some_iff] at h
  obtain ⟨⟨k, v⟩, hfind, rfl⟩ := h
  have hk : k = key := by simpa using List.find?_some hfind
  have hmem := List.mem_of_find?_eq_some hfind
  rw [List.mem_reverse, hk] at hmem
  exact hmem

/-- A key whose pairs all have one value has that value. -/
theorem get?_ofList_of_agree {pairs : List (κ × α)} {key : κ} {value : α}
    (hmem : (key, value) ∈ pairs) (hagree : ∀ other, (key, other) ∈ pairs → other = value) :
    (ofList pairs).get? key = some value := by
  cases hget : (ofList pairs).get? key with
  | some other => rw [hagree other (get?_ofList_mem hget)]
  | none =>
      rw [get?_ofList, Option.map_eq_none_iff, List.find?_eq_none] at hget
      exact absurd (hget (key, value) (List.mem_reverse.mpr hmem)) (by simp)

/-- Keys that differ keep their values. -/
theorem get?_ofList_of_nodup {pairs : List (κ × α)} (hnodup : (pairs.map Prod.fst).Nodup)
    {key : κ} {value : α} (hmem : (key, value) ∈ pairs) :
    (ofList pairs).get? key = some value := by
  refine get?_ofList_of_agree hmem fun other hother => ?_
  have hinj := List.inj_on_of_nodup_map hnodup hother hmem rfl
  exact (Prod.mk.injEq .. |>.mp hinj).2

end SolDeployer.Entries
