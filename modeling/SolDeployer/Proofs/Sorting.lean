import Mathlib.Data.List.Perm.Basic
import SolDeployer.Sorting

/-!
# Laws of sorting

Sorting moves items and neither loses nor doubles one, whatever the order
is: it need not be total or transitive for that. If it is both, every item
may stand before all that come after it (`sortBy_pairwise`).
-/

namespace SolDeployer

variable {α : Type} {le : α → α → Bool}

theorem insertBy_perm (item : α) (items : List α) :
    (insertBy le item items).Perm (item :: items) := by
  induction items with
  | nil => exact List.Perm.refl _
  | cons other rest ih =>
      simp only [insertBy]
      split
      · exact List.Perm.refl _
      · exact (ih.cons other).trans (List.Perm.swap item other rest)

theorem sortBy_perm (items : List α) : (sortBy le items).Perm items := by
  induction items with
  | nil => exact List.Perm.nil
  | cons item rest ih =>
      have hinsert : (insertBy le item (sortBy le rest)).Perm (item :: sortBy le rest) :=
        insertBy_perm item _
      exact hinsert.trans (ih.cons item)

/-! ## Orders that rank all items -/

section

variable (htotal : ∀ a b, le a b = true ∨ le b a = true)
  (htrans : ∀ a b c, le a b = true → le b c = true → le a c = true)

include htotal htrans

theorem insertBy_pairwise (item : α) {items : List α}
    (h : items.Pairwise fun a b => le a b = true) :
    (insertBy le item items).Pairwise fun a b => le a b = true := by
  induction items with
  | nil => exact List.pairwise_singleton ..
  | cons other rest ih =>
      obtain ⟨hother, hrest⟩ := List.pairwise_cons.mp h
      simp only [insertBy]
      split
      · rename_i hitem
        refine List.pairwise_cons.mpr ⟨fun a ha => ?_, h⟩
        rcases List.mem_cons.mp ha with rfl | ha
        · exact hitem
        · exact htrans _ _ _ hitem (hother a ha)
      · rename_i hitem
        refine List.pairwise_cons.mpr ⟨fun a ha => ?_, ih hrest⟩
        rcases List.mem_cons.mp ((insertBy_perm item rest).mem_iff.mp ha) with rfl | ha
        · exact (htotal a other).resolve_left hitem
        · exact hother a ha

theorem sortBy_pairwise (items : List α) :
    (sortBy le items).Pairwise fun a b => le a b = true := by
  induction items with
  | nil => exact List.Pairwise.nil
  | cons item rest ih => exact insertBy_pairwise htotal htrans item ih

end

/-! ## Searching -/

/-- An order plays no part in what is found if at most one item will do. -/
theorem find?_perm {p : α → Bool} {items others : List α} (hperm : items.Perm others)
    (honce : ∀ a ∈ items, ∀ b ∈ items, p a = true → p b = true → a = b) :
    items.find? p = others.find? p := by
  cases hleft : items.find? p with
  | none =>
      rw [List.find?_eq_none] at hleft
      exact (List.find?_eq_none.mpr fun item hmem => hleft item (hperm.mem_iff.mpr hmem)).symm
  | some a =>
      have ha := List.mem_of_find?_eq_some hleft
      cases hright : others.find? p with
      | none =>
          rw [List.find?_eq_none] at hright
          exact absurd (List.find?_some hleft) (hright a (hperm.mem_iff.mp ha))
      | some b =>
          have hb := hperm.mem_iff.mpr (List.mem_of_find?_eq_some hright)
          rw [honce a ha b hb (List.find?_some hleft) (List.find?_some hright)]

end SolDeployer
