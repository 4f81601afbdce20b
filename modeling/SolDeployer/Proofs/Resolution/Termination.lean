import Mathlib.Algebra.Order.BigOperators.Group.List
import Mathlib.Algebra.Order.Group.Nat
import SolDeployer.Proofs.Library
import SolDeployer.Proofs.Resolution.DeploymentOrder

/-!
# Every visit of finitely many libraries ends

A run is given the most steps that it may take, and says nothing if they
do not suffice. Here is how many do. The measure of a state is

    (cost + 2) * (keys without a mark)
      + (references pending, and one for each library under way)
      + (roots left)

where no library in reach lists more than `cost` references. A step that
marks a key pays for the references that come with it, and every other
step takes one reference, one library or one root away. So every move
lowers the measure (`measure_lt_of_move`), and a run with more steps than
the measure of its start comes to an end (`visit_runs`).

Only the libraries in reach count: `Grounded` says that a visit never
meets another. A key is the key of finitely many libraries, one for each
place where it may be cut in two, so finitely many keys in reach give a
`cost` (`exists_cost`).
-/

namespace SolDeployer

/-! ## What a loader has in reach -/

namespace Loader

/-- The libraries in reach of some roots along the artifacts of a loader. -/
inductive Reachable (load : Loader) (roots : List LibraryId) : LibraryId → Prop
  | root {id : LibraryId} (hid : id ∈ roots) : Reachable load roots id
  | link {id child : LibraryId} {artifact : Artifact} (hid : Reachable load roots id)
      (hload : load id = .ok artifact) (hchild : child ∈ artifact.libraryIds) :
      Reachable load roots child

/-- All keys in reach are among these. -/
def ReachesWithin (load : Loader) (roots : List LibraryId) (keys : List String) : Prop :=
  ∀ id, Reachable load roots id → id.key ∈ keys

/-- Finitely many keys are in reach. -/
def FiniteReach (load : Loader) (roots : List LibraryId) : Prop :=
  ∃ keys, ReachesWithin load roots keys

/-- No library in reach lists more references than this. -/
def CostsAtMost (load : Loader) (roots : List LibraryId) (cost : Nat) : Prop :=
  ∀ id artifact, Reachable load roots id → load id = .ok artifact →
    artifact.libraryIds.length ≤ cost

/-- Does every reference of these libraries lead to one of them? -/
def closed (load : Loader) (ids : List LibraryId) : Bool :=
  ids.all fun id =>
    match load id with
    | .ok artifact => artifact.libraryIds.all fun child => ids.contains child
    | .error _ => true

theorem Reachable.mem_of_closed {load : Loader} {roots ids : List LibraryId}
    (hroots : ∀ id ∈ roots, id ∈ ids) (hclosed : closed load ids = true) {id : LibraryId}
    (h : Reachable load roots id) : id ∈ ids := by
  induction h with
  | root hid => exact hroots _ hid
  | @link parent child artifact _ hload hchild ih =>
      have hparent := List.all_eq_true.mp hclosed parent ih
      rw [hload] at hparent
      exact List.contains_iff_mem.mp (List.all_eq_true.mp hparent child hchild)

theorem FiniteReach.of_closed {load : Loader} {roots ids : List LibraryId}
    (hroots : ∀ id ∈ roots, id ∈ ids) (hclosed : closed load ids = true) :
    FiniteReach load roots :=
  ⟨ids.map LibraryId.key, fun _ hid => List.mem_map_of_mem (hid.mem_of_closed hroots hclosed)⟩

end Loader

/-- The libraries with a key, one for each way to cut it in two, and some
that have other keys. -/
def LibraryId.cuts (key : String) : List LibraryId :=
  (List.range key.length).map fun n =>
    ⟨String.ofList (key.toList.take n), String.ofList (key.toList.drop (n + 1))⟩

theorem LibraryId.mem_cuts (id : LibraryId) : id ∈ cuts id.key := by
  have hkey := id.toList_key
  refine List.mem_map.mpr ⟨id.file.toList.length, List.mem_range.mpr ?_, ?_⟩
  · simp [← String.length_toList, hkey]
  · simp [hkey, List.drop_length_add_append]

/-- Finitely many keys have a greatest number of references. -/
theorem Loader.exists_cost {load : Loader} {roots : List LibraryId} {keys : List String}
    (hkeys : ReachesWithin load roots keys) : ∃ cost, CostsAtMost load roots cost := by
  let references (id : LibraryId) : Nat :=
    match load id with
    | .ok artifact => artifact.libraryIds.length
    | .error _ => 0
  refine ⟨((keys.flatMap LibraryId.cuts).map references).sum, fun id artifact hid hload => ?_⟩
  have hmem : id ∈ keys.flatMap LibraryId.cuts :=
    List.mem_flatMap.mpr ⟨id.key, hkeys id hid, id.mem_cuts⟩
  have hvalue : references id = artifact.libraryIds.length := by simp only [references, hload]
  rw [← hvalue]
  exact List.le_sum_of_mem (List.mem_map_of_mem hmem)

namespace Traversal

variable {load : Loader} {t t' : Traversal} {roots : List LibraryId}

/-! ## A visit stays in reach -/

/-- What a visit knows or is going to look at is in reach. -/
structure Grounded (load : Loader) (roots : List LibraryId) (t : Traversal) : Prop where
  left : ∀ id ∈ t.roots, Loader.Reachable load roots id
  pending : ∀ frame ∈ t.frames, ∀ id ∈ frame.pending, Loader.Reachable load roots id
  known : ∀ id artifact, (id, artifact) ∈ t.known → Loader.Reachable load roots id

theorem Grounded.start (load : Loader) (roots : List LibraryId) :
    Grounded load roots (start roots) :=
  ⟨fun _ hid => .root hid, fun _ hframe => (List.not_mem_nil hframe).elim,
    fun _ _ hmem => (List.not_mem_nil hmem).elim⟩

theorem pending_need {key : String} {frames : List Frame} {frame : Frame}
    (hframe : frame ∈ need key frames) : ∃ old ∈ frames, frame.pending = old.pending := by
  cases frames with
  | nil => cases hframe
  | cons top below =>
      rcases List.mem_cons.mp hframe with rfl | hbelow
      · exact ⟨top, List.mem_cons_self .., rfl⟩
      · exact ⟨frame, List.mem_cons_of_mem _ hbelow, rfl⟩

theorem Grounded.entered (h : Grounded load roots t) {id : LibraryId} {artifact : Artifact}
    (hid : Loader.Reachable load roots id) (hload : load id = .ok artifact) :
    Grounded load roots (t.entered id artifact) := by
  refine ⟨h.left, fun frame hframe child hchild => ?_, fun other a hmem => ?_⟩
  · rcases List.mem_cons.mp hframe with rfl | hold
    · exact .link hid hload hchild
    · exact h.pending frame hold child hchild
  · rcases List.mem_cons.mp hmem with heq | hold
    · obtain ⟨rfl, rfl⟩ := Prod.mk.inj heq
      exact hid
    · exact h.known other a hold

/-- The last library under way goes on to its next reference. -/
theorem Grounded.advance (h : Grounded load roots t) {frame : Frame} {below : List Frame}
    {child : LibraryId} {pending : List LibraryId} (hframes : t.frames = frame :: below)
    (hpending : frame.pending = child :: pending) :
    Grounded load roots { t with frames := { frame with pending } :: below } := by
  refine ⟨h.left, fun other hother id hid => ?_, fun id a hmem => ?_⟩
  · rcases List.mem_cons.mp hother with rfl | hbelow
    · exact h.pending frame (hframes ▸ List.mem_cons_self ..) id
        (hpending ▸ List.mem_cons_of_mem _ hid)
    · exact h.pending other (hframes ▸ List.mem_cons_of_mem _ hbelow) id hid
  · exact h.known id a (by simpa [Traversal.known, hframes] using hmem)

theorem Grounded.move (h : Grounded load roots t) (hmove : Move load t t') :
    Grounded load roots t' := by
  cases hmove with
  | skip hframes hroots hmark =>
      exact ⟨fun id hid => h.left id (hroots ▸ List.mem_cons_of_mem _ hid), h.pending, h.known⟩
  | @enterRoot id rest artifact hframes hroots hmark hload =>
      have hrest : Grounded load roots { t with roots := rest } :=
        ⟨fun id hid => h.left id (hroots ▸ List.mem_cons_of_mem _ hid), h.pending, h.known⟩
      exact hrest.entered (h.left id (hroots ▸ List.mem_cons_self ..)) hload
  | @leave frame below hframes hpending =>
      refine ⟨h.left, fun other hother id hid => ?_, fun id a hmem => ?_⟩
      · obtain ⟨old, hold, heq⟩ := pending_need hother
        exact h.pending old (hframes ▸ List.mem_cons_of_mem _ hold) id (heq ▸ hid)
      · exact h.known id a ((mem_known_leave hframes _).mp hmem)
  | @share frame below child pending hframes hpending hmark =>
      have hrest := h.advance hframes hpending
      refine ⟨h.left, fun other hother id hid => ?_, fun id a hmem => ?_⟩
      · have hneed : other ∈ need child.key ({ frame with pending } :: below) := hother
        obtain ⟨old, hold, heq⟩ := pending_need hneed
        exact hrest.pending old hold id (heq ▸ hid)
      · exact h.known id a (by simpa [Traversal.known, need, hframes] using hmem)
  | @enterChild frame below child pending artifact hframes hpending hmark hload =>
      have hchild : Loader.Reachable load roots child :=
        h.pending frame (hframes ▸ List.mem_cons_self ..) child (hpending ▸ List.mem_cons_self ..)
      exact (h.advance hframes hpending).entered hchild hload

theorem grounded_of_reaches (h : Reaches load (Traversal.start roots) t) :
    Grounded load roots t := by
  induction h with
  | refl => exact .start load roots
  | tail _ hmove ih => exact ih.move hmove

/-- What a finished visit returns is in reach. -/
theorem visited_reachable {steps : Nat} {visited : List Visited}
    (h : (visit load steps roots).result = .ok visited) {library : Visited}
    (hmem : library ∈ visited) : Loader.Reachable load roots library.id := by
  obtain ⟨last, hreach, -, -, rfl⟩ := visit_ok h
  exact (grounded_of_reaches hreach).known library.id library.artifact
    (List.mem_append_right _ (List.mem_map.mpr ⟨library, hmem, rfl⟩))

/-! ## The measure -/

/-- How many of some keys have no mark. -/
def unmarked (keys : List String) (marks : Entries String Mark) : Nat :=
  keys.countP fun key => (marks.get? key).isNone

/-- The references pending, and one for each library under way. -/
def openReferences : List Frame → Nat
  | [] => 0
  | frame :: below => frame.pending.length + 1 + openReferences below

/-- What every move lowers. -/
def measure (keys : List String) (cost : Nat) (t : Traversal) : Nat :=
  (cost + 2) * unmarked keys t.marks + openReferences t.frames + t.roots.length

theorem unmarked_insert_le (keys : List String) (marks : Entries String Mark) (key : String)
    (mark : Mark) : unmarked keys (marks.insert key mark) ≤ unmarked keys marks := by
  refine List.countP_mono_left fun other _ hother => ?_
  by_cases heq : other = key
  · subst heq
    simp at hother
  · rwa [Entries.get?_insert_of_ne _ _ heq] at hother

/-- A key that gets its first mark is one less. -/
theorem unmarked_insert_lt {keys : List String} {marks : Entries String Mark} {key : String}
    (hmem : key ∈ keys) (hnew : marks.get? key = none) (mark : Mark) :
    unmarked keys (marks.insert key mark) < unmarked keys marks := by
  obtain ⟨before, after, rfl⟩ := List.append_of_mem hmem
  have hbefore := unmarked_insert_le before marks key mark
  have hafter := unmarked_insert_le after marks key mark
  simp only [unmarked, List.countP_append, List.countP_cons, hnew, Entries.get?_insert_self,
    Option.isNone_none, Option.isNone_some, if_true, Bool.false_eq_true, if_false] at *
  omega

@[simp] theorem openReferences_need (key : String) (frames : List Frame) :
    openReferences (need key frames) = openReferences frames := by
  cases frames <;> rfl

/-- A library that is entered pays for the references it brings. -/
theorem measure_entered {keys : List String} {cost : Nat}
    (hkeys : Loader.ReachesWithin load roots keys) (hcost : Loader.CostsAtMost load roots cost)
    {id : LibraryId} {artifact : Artifact} (hid : Loader.Reachable load roots id)
    (hload : load id = .ok artifact) (hnew : t.marks.get? id.key = none) :
    measure keys cost (t.entered id artifact) + 1 ≤ measure keys cost t := by
  have hmarks := unmarked_insert_lt (hkeys id hid) hnew .underway
  have hbring := hcost id artifact hid hload
  have hpay : (cost + 2) * unmarked keys (t.marks.insert id.key .underway) + (cost + 2) ≤
      (cost + 2) * unmarked keys t.marks := by
    rw [← Nat.mul_succ]
    exact Nat.mul_le_mul_left _ hmarks
  simp only [measure, Traversal.entered, openReferences]
  omega

theorem measure_lt_of_move {keys : List String} {cost : Nat}
    (hkeys : Loader.ReachesWithin load roots keys) (hcost : Loader.CostsAtMost load roots cost)
    (hmarked : Marked t) (hgrounded : Grounded load roots t) (hmove : Move load t t') :
    measure keys cost t' < measure keys cost t := by
  cases hmove with
  | skip hframes hroots hmark =>
      simp only [measure, hroots, List.length_cons]
      omega
  | @enterRoot id rest artifact hframes hroots hmark hload =>
      have hid := hgrounded.left id (hroots ▸ List.mem_cons_self ..)
      have hentered := measure_entered (t := { t with roots := rest }) hkeys hcost hid hload
        (hmarked.root_new hframes hmark)
      have hrest : measure keys cost { t with roots := rest } < measure keys cost t := by
        simp only [measure, hroots, List.length_cons]
        omega
      omega
  | @leave frame below hframes hpending =>
      have hmarks := Nat.mul_le_mul_left (cost + 2)
        (unmarked_insert_le keys t.marks frame.id.key .done)
      simp only [measure, leave, openReferences_need, hframes, openReferences]
      omega
  | share hframes hpending hmark =>
      simp only [measure, openReferences_need, hframes, openReferences, hpending,
        List.length_cons]
      omega
  | @enterChild frame below child pending artifact hframes hpending hmark hload =>
      have hchild := hgrounded.pending frame (hframes ▸ List.mem_cons_self ..) child
        (hpending ▸ List.mem_cons_self ..)
      have hentered := measure_entered
        (t := { t with frames := { frame with pending } :: below }) hkeys hcost hchild hload hmark
      have hrest : measure keys cost { t with frames := { frame with pending } :: below } <
          measure keys cost t := by
        simp only [measure, hframes, openReferences, hpending, List.length_cons]
        omega
      omega

/-! ## Runs end -/

theorem run_of_measure {keys : List String} {cost : Nat}
    (hkeys : Loader.ReachesWithin load roots keys) (hcost : Loader.CostsAtMost load roots cost)
    (hmarked : Marked t) (hgrounded : Grounded load roots t) {steps : Nat}
    (hsteps : measure keys cost t < steps) : ∃ outcome, run? load steps t = some outcome := by
  induction steps generalizing t with
  | zero => omega
  | succ steps ih =>
      unfold run?
      cases hstep : step load t with
      | next t₁ =>
          have hmove := move_of_step hstep
          have hlower := measure_lt_of_move hkeys hcost hmarked hgrounded hmove
          exact ih (hmarked.move hmove) (hgrounded.move hmove) (by omega)
      | finished => exact ⟨_, rfl⟩
      | failed loads failure => exact ⟨_, rfl⟩

/-- A visit with this many steps comes to an end. -/
theorem visit_runs {keys : List String} {cost : Nat}
    (hkeys : Loader.ReachesWithin load roots keys) (hcost : Loader.CostsAtMost load roots cost)
    {steps : Nat} (hsteps : (cost + 2) * keys.length + roots.length < steps) :
    ∃ outcome, run? load steps (Traversal.start roots) = some outcome := by
  refine run_of_measure hkeys hcost (.start roots) (.start load roots) ?_
  have hall : unmarked keys [] ≤ keys.length := List.countP_le_length
  have hscale := Nat.mul_le_mul_left (cost + 2) hall
  simp only [measure, Traversal.start, openReferences]
  omega

end Traversal

/-- What a resolution returns is in reach. -/
theorem resolved_reachable {load : Loader} {steps : Nat} {disambiguate : Bool}
    {links : LinkReferences} {libraries : List Resolved}
    (h : (resolve load steps disambiguate links).result = .ok libraries) {library : Resolved}
    (hmem : library ∈ libraries) : Loader.Reachable load links.libraryIds library.id := by
  obtain ⟨visited, hvisit, other, hother, hid, -⟩ := visited_of_resolved h hmem
  rw [← hid]
  exact Traversal.visited_reachable hvisit hother

end SolDeployer
