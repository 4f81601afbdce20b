import SolDeployer.Proofs.Resolution.Moves

/-!
# The loads of a visit

A visit records every library whose artifact it asks for, and it sees
nothing else of the loader. So a loader that answers the same for the
libraries on record leads to the same end (`Ends.congr`), however many
others it answers differently. The record only grows, which is what lets an
assumption on all that is on record at the end reach back to each move.
-/

namespace SolDeployer.Traversal

variable {load load' : Loader} {t t' last : Traversal}

/-! ## The record grows -/

theorem Move.loads_subset (h : Move load t t') : t.loads ⊆ t'.loads := by
  cases h with
  | skip hframes hroots hmark => exact List.Subset.refl _
  | enterRoot hframes hroots hmark hload => exact List.subset_append_left ..
  | leave hframes hpending => exact List.Subset.refl _
  | share hframes hpending hmark => exact List.Subset.refl _
  | enterChild hframes hpending hmark hload => exact List.subset_append_left ..

theorem Reaches.loads_subset (h : Reaches load t last) : t.loads ⊆ last.loads := by
  induction h with
  | refl => exact List.Subset.refl _
  | tail _ hmove ih => exact List.Subset.trans ih hmove.loads_subset

theorem Stop.loads_subset {loads : List LibraryId} {failure : Failure}
    (h : Stop load t loads failure) : t.loads ⊆ loads := by
  cases h with
  | rootFails hframes hroots hmark hload => exact List.subset_append_left ..
  | childFails hframes hpending hmark hload => exact List.subset_append_left ..
  | circular hframes hpending hmark => exact List.Subset.refl _

/-! ## Nothing else is asked for -/

theorem Move.congr (h : Move load t t') (hsame : ∀ id ∈ t'.loads, load' id = load id) :
    Move load' t t' := by
  cases h with
  | skip hframes hroots hmark => exact .skip hframes hroots hmark
  | @enterRoot id roots artifact hframes hroots hmark hload =>
      have hid : load' id = load id := hsame id (List.mem_append_right _ List.mem_cons_self)
      exact .enterRoot hframes hroots hmark (hid.trans hload)
  | leave hframes hpending => exact .leave hframes hpending
  | share hframes hpending hmark => exact .share hframes hpending hmark
  | @enterChild frame below child pending artifact hframes hpending hmark hload =>
      have hid : load' child = load child :=
        hsame child (List.mem_append_right _ List.mem_cons_self)
      exact .enterChild hframes hpending hmark (hid.trans hload)

theorem Reaches.congr (h : Reaches load t last)
    (hsame : ∀ id ∈ last.loads, load' id = load id) : Reaches load' t last := by
  induction h with
  | refl => exact .refl
  | tail _ hmove ih =>
      have hbefore := ih fun id hid => hsame id (hmove.loads_subset hid)
      exact hbefore.tail (hmove.congr hsame)

theorem Stop.congr {loads : List LibraryId} {failure : Failure} (h : Stop load t loads failure)
    (hsame : ∀ id ∈ loads, load' id = load id) : Stop load' t loads failure := by
  cases h with
  | @rootFails id roots failure hframes hroots hmark hload =>
      have hid : load' id = load id := hsame id (List.mem_append_right _ List.mem_cons_self)
      exact .rootFails hframes hroots hmark (hid.trans hload)
  | @childFails frame below child pending failure hframes hpending hmark hload =>
      have hid : load' child = load child :=
        hsame child (List.mem_append_right _ List.mem_cons_self)
      exact .childFails hframes hpending hmark (hid.trans hload)
  | circular hframes hpending hmark => exact .circular hframes hpending hmark

/-- A visit goes the same way with every loader that answers the same for
the libraries on record. -/
theorem Ends.congr {outcome : Outcome} (h : Ends load t outcome)
    (hsame : ∀ id ∈ outcome.loads, load' id = load id) : Ends load' t outcome := by
  cases h with
  | finished hreach hframes hroots =>
      exact .finished (Reaches.congr hreach hsame) hframes hroots
  | failed hreach hstop =>
      have hbefore := Reaches.congr hreach fun id hid => hsame id (hstop.loads_subset hid)
      exact .failed hbefore (hstop.congr hsame)

/-! ## Loads that succeed -/

/-- The loader has an artifact for every library on record. -/
def Loaded (load : Loader) (loads : List LibraryId) : Prop :=
  ∀ id ∈ loads, ∃ artifact, load id = .ok artifact

theorem Loaded.concat {loads : List LibraryId} {id : LibraryId} {artifact : Artifact}
    (h : Loaded load loads) (hload : load id = .ok artifact) : Loaded load (loads ++ [id]) := by
  intro other hother
  rcases List.mem_append.mp hother with hother | hother
  · exact h other hother
  · rw [List.mem_singleton.mp hother]
    exact ⟨artifact, hload⟩

theorem Move.loaded (h : Move load t t') (hloaded : Loaded load t.loads) :
    Loaded load t'.loads := by
  cases h with
  | skip hframes hroots hmark => exact hloaded
  | enterRoot hframes hroots hmark hload => exact hloaded.concat hload
  | leave hframes hpending => exact hloaded
  | share hframes hpending hmark => exact hloaded
  | enterChild hframes hpending hmark hload => exact hloaded.concat hload

/-- All loads of a visit that ends well succeeded. -/
theorem Ends.loaded {roots : List LibraryId} {outcome : Outcome} {visited : List Visited}
    (h : Ends load (start roots) outcome) (hresult : outcome.result = .ok visited) :
    Loaded load outcome.loads := by
  cases h with
  | @finished last hreach hframes hroots =>
      have hstart : Loaded load (start roots).loads := nofun
      clear hframes hroots hresult
      show Loaded load last.loads
      induction hreach with
      | refl => exact hstart
      | tail _ hmove ih => exact hmove.loaded ih
  | failed hreach hstop => cases hresult

end SolDeployer.Traversal
