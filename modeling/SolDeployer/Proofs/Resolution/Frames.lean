import SolDeployer.Proofs.Resolution.Coherence
import SolDeployer.Proofs.Resolution.DeploymentOrder

/-!
# The libraries under way

What holds before each step of a visit, frame by frame. The roots are visited
one after the other and share the marks, so a state stands in the visit of one
root, after the visits of those before it: these are done, and the first frame
is that of the root (`Placed`). The frames above it are led to by references,
and each frame has as its needs what it has gone through before the reference
that is visited now.

Nothing is assumed of the loader. A state is one that some number of steps
leads to (`after?`), so all steps up to then went well, and whatever the next
one does plays no part.
-/

namespace SolDeployer.Traversal

variable {load : Loader} {t t' : Traversal} {roots previous : List LibraryId}

/-! ## States -/

/-- The state after some steps, if the visit goes on for so long. -/
def after? (load : Loader) : (steps : Nat) → Traversal → Option Traversal
  | 0, t => some t
  | steps + 1, t =>
    match t.step load with
    | .next t => after? load steps t
    | .finished | .failed .. => none

theorem after?_succ {steps : Nat} (h : after? load (steps + 1) t = some t') :
    ∃ next, step load t = .next next ∧ after? load steps next = some t' := by
  unfold after? at h
  cases hstep : step load t with
  | next next =>
      rw [hstep] at h
      exact ⟨next, rfl, h⟩
  | finished =>
      rw [hstep] at h
      cases h
  | failed =>
      rw [hstep] at h
      cases h

theorem reaches_of_after? {steps : Nat} (h : after? load steps t = some t') :
    Reaches load t t' := by
  induction steps generalizing t with
  | zero =>
      obtain rfl := Option.some.inj h
      exact .refl
  | succ steps ih =>
      obtain ⟨next, hstep, hrest⟩ := after?_succ h
      exact .head (move_of_step hstep) (ih hrest)

/-- A run comes by these states. -/
theorem run?_after? {steps : Nat} (h : after? load steps t = some t') (more : Nat) :
    run? load (steps + more) t = run? load more t' := by
  induction steps generalizing t with
  | zero =>
      obtain rfl := Option.some.inj h
      rw [Nat.zero_add]
  | succ steps ih =>
      obtain ⟨next, hstep, hrest⟩ := after?_succ h
      simp only [Nat.succ_add, run?, hstep]
      exact ih hrest

/-! ## The root that is visited -/

/-- The library of the first frame. -/
def root? (t : Traversal) : Option LibraryId := (t.frames.map (·.id)).getLast?

/-- The root that is visited, if there is one, and those that are left. -/
def ahead (t : Traversal) : List LibraryId := t.root?.toList ++ t.roots

@[simp] theorem need_ids (key : String) (frames : List Frame) :
    (need key frames).map (·.id) = frames.map (·.id) := by
  cases frames <;> rfl

theorem root?_leave (t : Traversal) (frame : Frame) (below : List Frame) :
    (t.leave frame below).root? = (below.map (·.id)).getLast? :=
  congrArg List.getLast? (need_ids frame.id.key below)

theorem ahead_congr (hroot : t'.root? = t.root?) (hroots : t'.roots = t.roots) :
    t'.ahead = t.ahead := by
  rw [ahead, hroot, hroots, ahead]

theorem exists_root? (h : t.frames ≠ []) : ∃ id, t.root? = some id := by
  obtain ⟨frame, below, hframes⟩ := List.exists_cons_of_ne_nil h
  exact ⟨_, by rw [root?, hframes, List.map_cons, List.getLast?_cons]⟩

theorem Move.doneKeys_subset (hmove : Move load t t') : t.doneKeys ⊆ t'.doneKeys := by
  cases hmove with
  | leave hframes hpending =>
      rw [doneKeys_leave]
      exact List.subset_append_left _ _
  | skip | enterRoot | share | enterChild => exact List.Subset.refl _

/-- A root is passed by only when it is done. -/
theorem Move.ahead (hmove : Move load t t') (hmarked : Marked t) :
    t'.ahead = t.ahead ∨ ∃ id, t.ahead = id :: t'.ahead ∧ id.key ∈ t'.doneKeys := by
  cases hmove with
  | @skip id rest hframes hroots hmark =>
      refine .inr ⟨id, ?_, (hmarked.done _).mp hmark⟩
      simp [Traversal.ahead, root?, hframes, hroots]
  | @enterRoot id rest artifact hframes hroots hmark hload =>
      refine .inl ?_
      simp [Traversal.ahead, root?, entered, hframes, hroots]
  | @leave frame below hframes hpending =>
      have hroot : t.root? = (frame.id :: below.map (·.id)).getLast? := by
        rw [root?, hframes, List.map_cons]
      have hleft : (t.leave frame below).root? = (below.map (·.id)).getLast? := root?_leave ..
      cases below with
      | nil =>
          refine .inr ⟨frame.id, ?_, ?_⟩
          · rw [Traversal.ahead, hroot, Traversal.ahead, hleft]
            rfl
          · rw [doneKeys_leave]
            exact List.mem_append_right _ (List.mem_singleton_self _)
      | cons next below =>
          refine .inl (ahead_congr ?_ rfl)
          rw [hleft, hroot, List.map_cons, List.getLast?_cons_cons]
  | @share frame below child pending hframes hpending hmark =>
      refine .inl (ahead_congr ?_ rfl)
      simp [root?, hframes]
  | @enterChild frame below child pending artifact hframes hpending hmark hload =>
      refine .inl (ahead_congr ?_ rfl)
      simp [root?, entered, hframes]

/-- The roots are some that are done and those ahead. -/
structure Placed (roots previous : List LibraryId) (t : Traversal) : Prop where
  split : roots = previous ++ t.ahead
  done : ∀ other ∈ previous, other.key ∈ t.doneKeys

theorem Placed.move (h : Placed roots previous t) (hmarked : Marked t) (hmove : Move load t t') :
    ∃ previous, Placed roots previous t' := by
  have hdone : ∀ other ∈ previous, other.key ∈ t'.doneKeys := fun other hother =>
    hmove.doneKeys_subset (h.done other hother)
  rcases hmove.ahead hmarked with hsame | ⟨id, hpassed, hid⟩
  · exact ⟨previous, by rw [hsame, h.split], hdone⟩
  · refine ⟨previous ++ [id], by rw [h.split, hpassed, List.append_cons], fun other hother => ?_⟩
    rcases List.mem_append.mp hother with hother | hother
    · exact hdone other hother
    · rwa [List.mem_singleton.mp hother]

theorem placed_of_reaches (h : Reaches load (start roots) t) :
    ∃ previous, Placed roots previous t := by
  induction h with
  | refl => exact ⟨[], rfl, nofun⟩
  | tail hreach hmove ih =>
      obtain ⟨previous, hplaced⟩ := ih
      exact hplaced.move (Marked.reaches (.start roots) hreach) hmove

/-! ## Frame by frame -/

/-- Each frame is a reference of the one below it, the one that is visited. -/
theorem Stacked.consumed {current : List LibraryId} {above below : List Frame} {upper lower : Frame}
    (h : Stacked current (above ++ upper :: lower :: below)) : Consumed lower [upper.id] := by
  induction above generalizing current with
  | nil => exact h.2.1
  | cons frame above ih => exact ih h.2

end SolDeployer.Traversal

namespace SolDeployer

open Traversal

/-- **Each step finds the visit in order.** Take any loader, any libraries
visited before, the visit of one more library, and a state before a step of
this visit. A run comes by this state, the libraries visited before are done,
and the first frame is that of the library. Then the keys marked as under way
are those of the frames, each there once. A frame on top of another is a
reference of it, and the lower one has gone through those before this
reference, whose keys are its needs; the frame on top has gone through all but
those pending. The keys marked as done are those of the libraries done, each
there once, and a library done has the keys of its references as its needs,
all of libraries done before it. -/
theorem visit_invariant {load : Loader} {previous later : List LibraryId} {id : LibraryId}
    {steps : Nat} {t : Traversal}
    (hsteps : after? load steps (.start (previous ++ id :: later)) = some t)
    (hroots : t.roots = later) (hframes : t.frames ≠ []) :
    (∀ more, run? load (steps + more) (.start (previous ++ id :: later)) = run? load more t) ∧
    ((∀ other ∈ previous, other.key ∈ t.doneKeys) ∧ t.root? = some id) ∧
    ((∀ key, t.marks.get? key = some .underway ↔ key ∈ t.underwayKeys) ∧ t.underwayKeys.Nodup) ∧
    (∀ above upper lower below, t.frames = above ++ upper :: lower :: below →
      ∃ consumed, lower.artifact.libraryIds = consumed ++ upper.id :: lower.pending ∧
        lower.needs = consumed.map LibraryId.key) ∧
    (∀ top below, t.frames = top :: below →
      ∃ consumed, top.artifact.libraryIds = consumed ++ top.pending ∧
        top.needs = consumed.map LibraryId.key) ∧
    ((∀ key, t.marks.get? key = some .done ↔ key ∈ t.doneKeys) ∧ t.doneKeys.Nodup) ∧
    ∀ before library after, t.done = before ++ library :: after →
      library.needs = library.artifact.libraryIds.map LibraryId.key ∧
        ∀ key ∈ library.needs, key ∈ before.map (·.id.key) := by
  have hreach := reaches_of_after? hsteps
  obtain ⟨hmarked, hwired, -⟩ := coherent_of_reaches hreach
  obtain ⟨passed, hsplit, hdone⟩ := placed_of_reaches hreach
  refine ⟨run?_after? hsteps, ?_, ⟨hmarked.underway, hmarked.underway_nodup⟩, ?_, ?_,
    ⟨hmarked.done, hmarked.done_nodup⟩, fun before library after => hwired.ordered.before⟩
  · obtain ⟨root, hroot⟩ := exists_root? hframes
    rw [ahead, hroot, hroots] at hsplit
    obtain ⟨rfl, hnext⟩ := List.append_inj' hsplit rfl
    rw [hroot, (List.cons.inj hnext).1]
    exact ⟨hdone, rfl⟩
  · intro above upper lower below hstack
    have hstacked := hwired.stacked
    rw [hstack] at hstacked
    obtain ⟨consumed, hids, hneeds⟩ := hstacked.consumed
    exact ⟨consumed, by simpa using hids, hneeds⟩
  · intro top below hstack
    have hstacked := hwired.stacked
    rw [hstack] at hstacked
    obtain ⟨consumed, hids, hneeds⟩ := hstacked.1
    exact ⟨consumed, by simpa using hids, hneeds⟩

/-- The second of the libraries that the root needs is under way, and has gone
through the one that they share. -/
theorem visit_invariant_diamond :
    ∃ t, after? .diamond 8 (.start ([⟨"d.sol", "D"⟩] ++ ⟨"a.sol", "A"⟩ :: [⟨"b.sol", "B"⟩])) =
        some t ∧
      t.roots = [⟨"b.sol", "B"⟩] ∧ t.frames.map (·.needs) = [["d.sol:D"], ["b.sol:B"]] ∧
      (∀ key, t.marks.get? key = some .underway ↔ key ∈ ["c.sol:C", "a.sol:A"]) ∧
      (∀ key, t.marks.get? key = some .done ↔ key ∈ ["d.sol:D", "b.sol:B"]) ∧
      ∀ upper lower, t.frames = [upper, lower] →
        ∃ consumed, lower.artifact.libraryIds = consumed ++ upper.id :: lower.pending ∧
          lower.needs = consumed.map LibraryId.key := by
  have hstate : (after? .diamond 8
      (.start ([⟨"d.sol", "D"⟩] ++ ⟨"a.sol", "A"⟩ :: [⟨"b.sol", "B"⟩]))).map
        (fun t => (t.roots, t.frames.map (·.needs), t.underwayKeys, t.doneKeys)) =
      some ([⟨"b.sol", "B"⟩], [["d.sol:D"], ["b.sol:B"]], ["c.sol:C", "a.sol:A"],
        ["d.sol:D", "b.sol:B"]) := by rfl
  obtain ⟨t, hsteps, hparts⟩ := Option.map_eq_some_iff.mp hstate
  simp only [Prod.mk.injEq] at hparts
  obtain ⟨hroots, hneeds, hunderway, hdone⟩ := hparts
  have hframes : t.frames ≠ [] := fun hnone => by simp [hnone] at hneeds
  obtain ⟨-, -, ⟨hmarked, -⟩, habove, -, ⟨hresolved, -⟩, -⟩ :=
    visit_invariant hsteps hroots hframes
  rw [hunderway] at hmarked
  rw [hdone] at hresolved
  exact ⟨t, hsteps, hroots, hneeds, hmarked, hresolved,
    fun upper lower hstack => habove [] upper lower [] hstack⟩

end SolDeployer
