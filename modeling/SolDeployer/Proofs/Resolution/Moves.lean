import Mathlib.Logic.Relation
import SolDeployer.Resolution

/-!
# The moves of a visit

Everything that one step of a visit can do, said once: `Move` has a
constructor for each way to go on, with the guard under which it is
taken, and `Stop` one for each way to fail. A run ends if it is a chain of
moves to a state in which nothing is left or which fails (`Ends`), and the
steps that are allowed play no other part (`run?_mono`). So a fact about
all libraries that are done follows from what each move keeps (`visit_ok`).
-/

namespace SolDeployer.Traversal

variable {load : Loader} {t t' : Traversal}

/-- The state after a library is marked and put on top. -/
def entered (t : Traversal) (id : LibraryId) (artifact : Artifact) : Traversal :=
  { t with
    marks := t.marks.insert id.key .underway
    frames := ⟨id, artifact, artifact.libraryIds, []⟩ :: t.frames
    loads := t.loads ++ [id] }

theorem enter_eq_next {id : LibraryId} (h : enter load t id = .next t') :
    ∃ artifact, load id = .ok artifact ∧ t' = t.entered id artifact := by
  unfold enter at h
  cases hload : load id with
  | error failure => simp [hload] at h
  | ok artifact =>
      simp only [hload, Step.next.injEq] at h
      exact ⟨artifact, rfl, h.symm⟩

/-- One way to go on. -/
inductive Move (load : Loader) : Traversal → Traversal → Prop
  /-- A root is done already. -/
  | skip {t : Traversal} {id : LibraryId} {roots : List LibraryId}
      (hframes : t.frames = []) (hroots : t.roots = id :: roots)
      (hmark : t.marks.get? id.key = some .done) : Move load t { t with roots }
  /-- A root is entered. -/
  | enterRoot {t : Traversal} {id : LibraryId} {roots : List LibraryId} {artifact : Artifact}
      (hframes : t.frames = []) (hroots : t.roots = id :: roots)
      (hmark : t.marks.get? id.key ≠ some .done) (hload : load id = .ok artifact) :
      Move load t (entered { t with roots } id artifact)
  /-- The last library under way needs nothing more. -/
  | leave {t : Traversal} {frame : Frame} {below : List Frame}
      (hframes : t.frames = frame :: below) (hpending : frame.pending = []) :
      Move load t (t.leave frame below)
  /-- The last library under way needs one that is done. -/
  | share {t : Traversal} {frame : Frame} {below : List Frame} {child : LibraryId}
      {pending : List LibraryId}
      (hframes : t.frames = frame :: below) (hpending : frame.pending = child :: pending)
      (hmark : t.marks.get? child.key = some .done) :
      Move load t { t with frames := need child.key ({ frame with pending } :: below) }
  /-- The last library under way needs one that is not visited yet. -/
  | enterChild {t : Traversal} {frame : Frame} {below : List Frame} {child : LibraryId}
      {pending : List LibraryId} {artifact : Artifact}
      (hframes : t.frames = frame :: below) (hpending : frame.pending = child :: pending)
      (hmark : t.marks.get? child.key = none) (hload : load child = .ok artifact) :
      Move load t (entered { t with frames := { frame with pending } :: below } child artifact)

/-- States that moves lead to. -/
abbrev Reaches (load : Loader) : Traversal → Traversal → Prop :=
  Relation.ReflTransGen (Move load)

/-! ## Steps are moves -/

theorem move_of_step (h : step load t = .next t') : Move load t t' := by
  unfold step at h
  split at h
  · rename_i hframes
    split at h
    · cases h
    · rename_i id roots hroots
      split at h
      · rename_i hmark
        cases h
        exact .skip hframes hroots hmark
      · rename_i hmark
        obtain ⟨artifact, hload, rfl⟩ := enter_eq_next h
        exact .enterRoot hframes hroots hmark hload
  · rename_i frame below hframes
    split at h
    · rename_i hpending
      cases h
      exact .leave hframes hpending
    · rename_i child pending hpending
      simp only at h
      split at h
      · cases h
      · rename_i hmark
        cases h
        exact .share hframes hpending hmark
      · rename_i hmark
        obtain ⟨artifact, hload, rfl⟩ := enter_eq_next h
        exact .enterChild hframes hpending hmark hload

theorem step_of_move (h : Move load t t') : step load t = .next t' := by
  cases h with
  | skip hframes hroots hmark => simp only [step, hframes, hroots, hmark, if_true]
  | enterRoot hframes hroots hmark hload =>
      simp only [step, hframes, hroots, if_neg hmark, enter, hload, entered]
  | leave hframes hpending => simp only [step, hframes, hpending]
  | share hframes hpending hmark => simp only [step, hframes, hpending, hmark]
  | enterChild hframes hpending hmark hload =>
      simp only [step, hframes, hpending, hmark, enter, hload, entered]

theorem enter_ne_finished {id : LibraryId} : enter load t id ≠ .finished := by
  unfold enter
  cases load id <;> simp

/-- A visit is finished when nothing is under way and no root is left. -/
theorem nothing_left_of_finished (h : step load t = .finished) :
    t.frames = [] ∧ t.roots = [] := by
  unfold step at h
  split at h
  · rename_i hframes
    split at h
    · rename_i hroots
      exact ⟨hframes, hroots⟩
    · split at h
      · cases h
      · exact absurd h enter_ne_finished
  · split at h
    · cases h
    · simp only at h
      split at h
      · cases h
      · cases h
      · exact absurd h enter_ne_finished

/-! ## Failures -/

/-- One way to fail, with the loads up to then. -/
inductive Stop (load : Loader) (t : Traversal) : List LibraryId → Failure → Prop
  /-- A root cannot be loaded. -/
  | rootFails {id : LibraryId} {roots : List LibraryId} {failure : Failure}
      (hframes : t.frames = []) (hroots : t.roots = id :: roots)
      (hmark : t.marks.get? id.key ≠ some .done) (hload : load id = .error failure) :
      Stop load t (t.loads ++ [id]) failure
  /-- The last library under way needs one that cannot be loaded. -/
  | childFails {frame : Frame} {below : List Frame} {child : LibraryId}
      {pending : List LibraryId} {failure : Failure}
      (hframes : t.frames = frame :: below) (hpending : frame.pending = child :: pending)
      (hmark : t.marks.get? child.key = none) (hload : load child = .error failure) :
      Stop load t (t.loads ++ [child]) failure
  /-- The last library under way needs one that is under way. -/
  | circular {frame : Frame} {below : List Frame} {child : LibraryId}
      {pending : List LibraryId}
      (hframes : t.frames = frame :: below) (hpending : frame.pending = child :: pending)
      (hmark : t.marks.get? child.key = some .underway) :
      Stop load t t.loads (.circular child.key)

theorem enter_eq_failed {id : LibraryId} {loads : List LibraryId} {failure : Failure}
    (h : enter load t id = .failed loads failure) :
    load id = .error failure ∧ loads = t.loads ++ [id] := by
  unfold enter at h
  cases hload : load id with
  | error other =>
      simp only [hload, Step.failed.injEq] at h
      exact ⟨by rw [h.2], h.1.symm⟩
  | ok artifact => simp [hload] at h

theorem stop_of_step {loads : List LibraryId} {failure : Failure}
    (h : step load t = .failed loads failure) : Stop load t loads failure := by
  unfold step at h
  split at h
  · rename_i hframes
    split at h
    · cases h
    · rename_i id roots hroots
      split at h
      · cases h
      · rename_i hmark
        obtain ⟨hload, rfl⟩ := enter_eq_failed h
        exact .rootFails hframes hroots hmark hload
  · rename_i frame below hframes
    split at h
    · cases h
    · rename_i child pending hpending
      simp only at h
      split at h
      · rename_i hmark
        cases h
        exact .circular hframes hpending hmark
      · cases h
      · rename_i hmark
        obtain ⟨hload, rfl⟩ := enter_eq_failed h
        exact .childFails hframes hpending hmark hload

theorem step_of_stop {loads : List LibraryId} {failure : Failure}
    (h : Stop load t loads failure) : step load t = .failed loads failure := by
  cases h with
  | rootFails hframes hroots hmark hload =>
      simp only [step, hframes, hroots, if_neg hmark, enter, hload]
  | childFails hframes hpending hmark hload =>
      simp only [step, hframes, hpending, hmark, enter, hload]
  | circular hframes hpending hmark => simp only [step, hframes, hpending, hmark]

/-! ## Runs -/

/-- How a run ends. -/
inductive Ends (load : Loader) (t : Traversal) : Outcome → Prop
  | finished {last : Traversal} (hreach : Reaches load t last) (hframes : last.frames = [])
      (hroots : last.roots = []) : Ends load t ⟨last.loads, .ok last.done⟩
  | failed {last : Traversal} {loads : List LibraryId} {failure : Failure}
      (hreach : Reaches load t last) (hstop : Stop load last loads failure) :
      Ends load t ⟨loads, .error failure⟩

/-- What a run does after some moves it does before them. -/
theorem Ends.of_reaches {outcome : Outcome} (hmoves : Reaches load t t')
    (h : Ends load t' outcome) : Ends load t outcome := by
  cases h with
  | finished hreach hframes hroots => exact .finished (hmoves.trans hreach) hframes hroots
  | failed hreach hstop => exact .failed (hmoves.trans hreach) hstop

theorem ends_of_run {steps : Nat} {outcome : Outcome} (hrun : run? load steps t = some outcome) :
    Ends load t outcome := by
  induction steps generalizing t with
  | zero => simp [run?] at hrun
  | succ steps ih =>
      unfold run? at hrun
      cases hstep : step load t with
      | next t₁ =>
          simp only [hstep] at hrun
          exact (ih hrun).of_reaches (.single (move_of_step hstep))
      | finished =>
          simp only [hstep, Option.some.injEq] at hrun
          subst hrun
          obtain ⟨hframes, hroots⟩ := nothing_left_of_finished hstep
          exact .finished .refl hframes hroots
      | failed loads failure =>
          simp only [hstep, Option.some.injEq] at hrun
          subst hrun
          exact .failed .refl (stop_of_step hstep)

/-- A run that ends is the same with more steps. -/
theorem run?_mono {steps more : Nat} {outcome : Outcome} (hle : steps ≤ more)
    (hrun : run? load steps t = some outcome) : run? load more t = some outcome := by
  induction steps generalizing t more with
  | zero => simp [run?] at hrun
  | succ steps ih =>
      obtain ⟨more, rfl⟩ : ∃ m, more = m + 1 := ⟨more - 1, by omega⟩
      unfold run? at hrun ⊢
      cases hstep : step load t with
      | next t₁ =>
          simp only [hstep] at hrun ⊢
          exact ih (by omega) hrun
      | finished =>
          simp only [hstep] at hrun ⊢
          exact hrun
      | failed loads failure =>
          simp only [hstep] at hrun ⊢
          exact hrun

theorem run?_of_reaches {last : Traversal} {steps : Nat} {outcome : Outcome}
    (hreach : Reaches load t last) (hrun : run? load steps last = some outcome) :
    ∃ more, run? load more t = some outcome := by
  induction hreach using Relation.ReflTransGen.head_induction_on with
  | refl => exact ⟨steps, hrun⟩
  | head hmove _ ih =>
      obtain ⟨more, hmore⟩ := ih
      exact ⟨more + 1, by simp only [run?, step_of_move hmove, hmore]⟩

theorem run_of_ends {outcome : Outcome} (h : Ends load t outcome) :
    ∃ steps, run? load steps t = some outcome := by
  cases h with
  | finished hreach hframes hroots =>
      refine run?_of_reaches hreach (show run? load 1 _ = _ from ?_)
      simp only [run?, step, hframes, hroots]
  | failed hreach hstop =>
      refine run?_of_reaches hreach (show run? load 1 _ = _ from ?_)
      simp only [run?, step_of_stop hstop]

theorem Ends.unique {outcome other : Outcome} (h : Ends load t outcome)
    (hother : Ends load t other) : outcome = other := by
  obtain ⟨steps, hsteps⟩ := run_of_ends h
  obtain ⟨more, hmore⟩ := run_of_ends hother
  rcases Nat.le_total steps more with hle | hle
  · exact Option.some.inj ((run?_mono hle hsteps).symm.trans hmore)
  · exact Option.some.inj (hsteps.symm.trans (run?_mono hle hmore))

theorem visit_ends {steps : Nat} {roots : List LibraryId} {outcome : Outcome}
    (h : run? load steps (start roots) = some outcome) : visit load steps roots = outcome := by
  rw [visit, h, Option.getD_some]

/-- A visit that ends well goes by moves to a state in which nothing is left. -/
theorem visit_ok {steps : Nat} {roots : List LibraryId} {visited : List Visited}
    (h : (visit load steps roots).result = .ok visited) :
    ∃ last, Reaches load (start roots) last ∧ last.frames = [] ∧ last.roots = [] ∧
      last.done = visited := by
  cases hrun : run? load steps (start roots) with
  | none => simp [visit, hrun] at h
  | some outcome =>
      rw [visit_ends hrun] at h
      cases ends_of_run hrun with
      | @finished last hreach hframes hroots =>
          exact ⟨last, hreach, hframes, hroots, Except.ok.inj h⟩
      | failed => cases h

end SolDeployer.Traversal
