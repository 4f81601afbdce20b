import SolDeployer.Proofs.Resolution.Termination

/-!
# No load is made twice

A resolution of finitely many libraries ends, and on its way it asks the
loader for libraries in reach only, and at most once under each key. So
there are no more loads than keys, however many paths lead to them.

What carries this is that a library is marked before it is loaded, and that
no mark is ever taken away: a library on record has a mark (`Accounted`),
and a visit loads a library only where it finds none. A load that fails
stands on record too, so how a visit ends plays no part.
-/

namespace SolDeployer.Traversal

open Loader (Reachable ReachesWithin)

/-- The loads are of libraries in reach, no two of them under one key. -/
structure LoadedOnce (load : Loader) (roots loads : List LibraryId) : Prop where
  once : (loads.map LibraryId.key).Nodup
  reachable : ∀ id ∈ loads, Reachable load roots id

section

variable {load : Loader} {roots loads : List LibraryId}

theorem LoadedOnce.concat (h : LoadedOnce load roots loads) {id : LibraryId}
    (hnew : id.key ∉ loads.map LibraryId.key) (hid : Reachable load roots id) :
    LoadedOnce load roots (loads ++ [id]) := by
  refine ⟨?_, fun other hother => ?_⟩
  · rw [List.map_append, List.map_singleton, ← List.concat_eq_append]
    exact h.once.concat hnew
  · rcases List.mem_append.mp hother with hother | hother
    · exact h.reachable other hother
    · rw [List.mem_singleton.mp hother]
      exact hid

/-- There are no more loads than keys in reach. -/
theorem LoadedOnce.length_le (h : LoadedOnce load roots loads) {keys : List String}
    (hkeys : ReachesWithin load roots keys) : loads.length ≤ keys.length := by
  have hsubset : loads.map LibraryId.key ⊆ keys := fun key hkey => by
    obtain ⟨id, hid, rfl⟩ := List.mem_map.mp hkey
    exact hkeys id (h.reachable id hid)
  simpa using h.once.length_le_of_subset hsubset

end

/-! ## Every library on record has a mark -/

/-- The loads of a visit so far, each of a library that has a mark. -/
structure Accounted (load : Loader) (roots : List LibraryId) (t : Traversal) : Prop extends
    LoadedOnce load roots t.loads where
  marked : ∀ id ∈ t.loads, t.marks.get? id.key ≠ none

variable {load : Loader} {t t' : Traversal} {roots : List LibraryId}

theorem Accounted.start (load : Loader) (roots : List LibraryId) :
    Accounted load roots (start roots) :=
  ⟨⟨List.nodup_nil, nofun⟩, nofun⟩

/-- A library without a mark is not on record. -/
theorem Accounted.concat (h : Accounted load roots t) {id : LibraryId}
    (hnew : t.marks.get? id.key = none) (hid : Reachable load roots id) :
    LoadedOnce load roots (t.loads ++ [id]) := by
  refine h.toLoadedOnce.concat (fun hmem => ?_) hid
  obtain ⟨other, hother, hkey⟩ := List.mem_map.mp hmem
  exact h.marked other hother (hkey ▸ hnew)

theorem Accounted.entered (h : Accounted load roots t) {id : LibraryId} (artifact : Artifact)
    (hnew : t.marks.get? id.key = none) (hid : Reachable load roots id) :
    Accounted load roots (t.entered id artifact) := by
  refine ⟨h.concat hnew hid, fun other hother => ?_⟩
  rcases List.mem_append.mp hother with hother | hother
  · exact Entries.get?_insert_ne_none (h.marked other hother) _ _
  · rw [List.mem_singleton.mp hother, marks_entered]
    simp

theorem Accounted.move (h : Accounted load roots t) (hmarked : Marked t)
    (hgrounded : Grounded load roots t) (hmove : Move load t t') : Accounted load roots t' := by
  cases hmove with
  | skip hframes hroots hmark => exact ⟨h.toLoadedOnce, h.marked⟩
  | @enterRoot id rest artifact hframes hroots hmark hload =>
      have hrest : Accounted load roots { t with roots := rest } := ⟨h.toLoadedOnce, h.marked⟩
      exact hrest.entered artifact (hmarked.root_new hframes hmark)
        (hgrounded.left id (hroots ▸ List.mem_cons_self ..))
  | leave hframes hpending =>
      exact ⟨h.toLoadedOnce, fun id hid => Entries.get?_insert_ne_none (h.marked id hid) _ _⟩
  | share hframes hpending hmark => exact ⟨h.toLoadedOnce, h.marked⟩
  | @enterChild frame below child pending artifact hframes hpending hmark hload =>
      have hrest : Accounted load roots { t with frames := { frame with pending } :: below } :=
        ⟨h.toLoadedOnce, h.marked⟩
      exact hrest.entered artifact hmark
        (hgrounded.pending frame (hframes ▸ List.mem_cons_self ..) child
          (hpending ▸ List.mem_cons_self ..))

theorem accounted_of_reaches (h : Reaches load (start roots) t) : Accounted load roots t := by
  induction h with
  | refl => exact .start load roots
  | tail hreach hmove ih =>
      exact ih.move (Marked.reaches (.start roots) hreach) (grounded_of_reaches hreach) hmove

/-! ## The record of a whole visit -/

theorem Stop.loadedOnce {loads : List LibraryId} {failure : Failure}
    (hstop : Stop load t loads failure) (h : Accounted load roots t) (hmarked : Marked t)
    (hgrounded : Grounded load roots t) : LoadedOnce load roots loads := by
  cases hstop with
  | @rootFails id rest failure hframes hroots hmark hload =>
      exact h.concat (hmarked.root_new hframes hmark)
        (hgrounded.left id (hroots ▸ List.mem_cons_self ..))
  | @childFails frame below child pending failure hframes hpending hmark hload =>
      exact h.concat hmark
        (hgrounded.pending frame (hframes ▸ List.mem_cons_self ..) child
          (hpending ▸ List.mem_cons_self ..))
  | circular hframes hpending hmark => exact h.toLoadedOnce

theorem Ends.loadedOnce {outcome : Outcome} (h : Ends load (Traversal.start roots) outcome) :
    LoadedOnce load roots outcome.loads := by
  cases h with
  | finished hreach hframes hroots => exact (accounted_of_reaches hreach).toLoadedOnce
  | failed hreach hstop =>
      exact hstop.loadedOnce (accounted_of_reaches hreach)
        (Marked.reaches (.start roots) hreach) (grounded_of_reaches hreach)

end SolDeployer.Traversal

namespace SolDeployer

open Loader (Reachable ReachesWithin FiniteReach)

/-- **Every resolution ends, and loads nothing twice.** If finitely many keys
are in reach of the link references, some number of steps is enough for the
visit to come to an end, well or with a failure, and the resolution returns
what it ended with. The loads up to then are of libraries in reach, no two
of them under one key, so they are no more than the keys in reach. -/
theorem resolve_ends {load : Loader} {links : LinkReferences}
    (hfinite : FiniteReach load links.libraryIds) :
    ∃ bound outcome,
      (∀ steps, bound ≤ steps →
        Traversal.run? load steps (.start links.libraryIds) = some outcome ∧
        ∀ disambiguate, resolve load steps disambiguate links =
          ⟨outcome.loads, outcome.result.bind (Resolved.ofVisited disambiguate)⟩) ∧
      (outcome.loads.map LibraryId.key).Nodup ∧
      (∀ id ∈ outcome.loads, Reachable load links.libraryIds id) ∧
      ∀ keys, ReachesWithin load links.libraryIds keys → outcome.loads.length ≤ keys.length := by
  obtain ⟨keys, hkeys⟩ := hfinite
  obtain ⟨cost, hcost⟩ := Loader.exists_cost hkeys
  obtain ⟨outcome, hrun⟩ := Traversal.visit_runs hkeys hcost (Nat.lt_succ_self _)
  have hloads := (Traversal.ends_of_run hrun).loadedOnce
  refine ⟨(cost + 2) * keys.length + links.libraryIds.length + 1, outcome, ?_, hloads.once,
    hloads.reachable, fun keys hkeys => hloads.length_le hkeys⟩
  intro steps hsteps
  have hmore := Traversal.run?_mono hsteps hrun
  exact ⟨hmore, fun disambiguate => by rw [resolve, Traversal.visit_ends hmore]⟩

/-- Each library refers to both libraries of the next level, and the last of
all back to the first. -/
def Loader.braid : Loader := Loader.ofCodes [
  (⟨"a.sol", "A"⟩, [], [("b.sol", [("B", []), ("C", [])])]),
  (⟨"b.sol", "B"⟩, [], [("c.sol", [("D", []), ("E", [])])]),
  (⟨"b.sol", "C"⟩, [], [("c.sol", [("D", []), ("E", [])])]),
  (⟨"c.sol", "D"⟩, [], []),
  (⟨"c.sol", "E"⟩, [], [("a.sol", [("A", [])])])]

/-- Four paths lead to the last level, and a circle leads back from there. -/
theorem resolve_ends_braid :
    ∃ bound outcome,
      (∀ steps, bound ≤ steps →
        Traversal.run? .braid steps (.start [⟨"c.sol", "D"⟩, ⟨"a.sol", "A"⟩]) = some outcome) ∧
      outcome.loads.length ≤ 5 := by
  let ids : List LibraryId := [⟨"a.sol", "A"⟩, ⟨"b.sol", "B"⟩, ⟨"b.sol", "C"⟩, ⟨"c.sol", "D"⟩,
    ⟨"c.sol", "E"⟩]
  have hroots : ∀ id ∈ [(⟨"c.sol", "D"⟩ : LibraryId), ⟨"a.sol", "A"⟩], id ∈ ids := by decide
  have hclosed : Loader.braid.closed ids = true := by decide
  obtain ⟨bound, outcome, hends, -, -, hlength⟩ := @resolve_ends .braid
    [("c.sol", [("D", [])]), ("a.sol", [("A", [])])] (.of_closed hroots hclosed)
  exact ⟨bound, outcome, fun steps hsteps => (hends steps hsteps).1,
    hlength (ids.map LibraryId.key) fun id hid =>
      List.mem_map_of_mem (hid.mem_of_closed hroots hclosed)⟩

end SolDeployer
