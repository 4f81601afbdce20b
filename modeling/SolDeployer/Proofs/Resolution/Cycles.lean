import SolDeployer.Proofs.Resolution.Termination

/-!
# Circular references

When every library in reach can be loaded, a resolution fails exactly if
some library in reach gets back to itself along references, and the key
that it reports is the key of such a library.

Soundness is read off the libraries under way: each stands on one that
refers to it (`Stacked`), so they are a path to the last one entered
(`links_to_top`), and a reference from there back to one of them closes a
cycle. Completeness is read off the order of a finished visit: a reference
leads to an earlier place (`place_lt_of_links`), so no chain of references
ends where it began.

References are followed from key to key. They are those of the loader and
not those of the traversal, and the two agree only if libraries with one
key have one artifact, because a visit looks at one library for each key.
-/

namespace SolDeployer

namespace Loader

/-- A library in reach with one key refers to a library with the other. -/
def Links (load : Loader) (roots : List LibraryId) (key other : String) : Prop :=
  ∃ id artifact child, Reachable load roots id ∧ id.key = key ∧ load id = .ok artifact ∧
    child ∈ artifact.libraryIds ∧ child.key = other

/-- A key in reach that gets back to itself along one or more references. -/
structure OnCycle (load : Loader) (roots : List LibraryId) (key : String) : Prop where
  reachable : ∃ id, Reachable load roots id ∧ id.key = key
  cycle : Relation.TransGen (Links load roots) key key

/-- Every library in reach can be loaded. -/
def Loads (load : Loader) (roots : List LibraryId) : Prop :=
  ∀ id, Reachable load roots id → ∃ artifact, load id = .ok artifact

/-- Libraries in reach with one key have one artifact. -/
def KeyDetermines (load : Loader) (roots : List LibraryId) : Prop :=
  ∀ id other, Reachable load roots id → Reachable load roots other → id.key = other.key →
    load id = load other

end Loader

namespace Traversal

open Loader (Reachable Links OnCycle Loads KeyDetermines)

variable {load : Loader} {t : Traversal} {roots : List LibraryId}

/-! ## A failure is a cycle -/

/-- The library that is visited now is a reference of the one below it. -/
theorem Consumed.refers {frame : Frame} {child : LibraryId} (h : Consumed frame [child]) :
    child ∈ frame.artifact.libraryIds := by
  obtain ⟨before, hids, -⟩ := h
  simp [hids]

/-- A reference that is left is a reference. -/
theorem Consumed.pending {frame : Frame} {current : List LibraryId} (h : Consumed frame current)
    {child : LibraryId} (hchild : child ∈ frame.pending) : child ∈ frame.artifact.libraryIds := by
  obtain ⟨before, hids, -⟩ := h
  rw [hids]
  exact List.mem_append_right _ hchild

/-- A library under way has the references of the loader. -/
theorem links_of_frame (hspanning : Spanning load roots t) (hgrounded : Grounded load roots t)
    {frame : Frame} (hframe : frame ∈ t.frames) {child : LibraryId}
    (hchild : child ∈ frame.artifact.libraryIds) : Links load roots frame.id.key child.key := by
  have hknown : (frame.id, frame.artifact) ∈ t.known :=
    List.mem_append_left _ (List.mem_map_of_mem hframe)
  exact ⟨frame.id, frame.artifact, child, hgrounded.known _ _ hknown, rfl,
    hspanning.loaded _ _ hknown, hchild, rfl⟩

/-- From each library under way a chain of references leads to the last one entered. -/
theorem links_to_top {current : List LibraryId} {frame : Frame} {below : List Frame}
    (hstacked : Stacked current (frame :: below))
    (hlinks : ∀ lower ∈ frame :: below, ∀ child ∈ lower.artifact.libraryIds,
      Links load roots lower.id.key child.key) :
    ∀ lower ∈ frame :: below,
      Relation.ReflTransGen (Links load roots) lower.id.key frame.id.key := by
  induction below generalizing current frame with
  | nil =>
      intro lower hlower
      rw [List.mem_singleton.mp hlower]
  | cons next rest ih =>
      obtain ⟨-, hbelow⟩ := hstacked
      intro lower hlower
      rcases List.mem_cons.mp hlower with rfl | hlower
      · exact .refl
      · have hpath := ih hbelow (fun other hother => hlinks other (List.mem_cons_of_mem _ hother))
          lower hlower
        exact hpath.tail (hlinks next (List.mem_cons_of_mem _ (List.mem_cons_self ..)) frame.id
          hbelow.1.refers)

/-- A visit of libraries that can be loaded fails only on a cycle. -/
theorem cycle_of_stop (hloads : Loads load roots) (hmarked : Marked t) (hwired : Wired t)
    (hspanning : Spanning load roots t) (hgrounded : Grounded load roots t)
    {loads : List LibraryId} {failure : Failure} (hstop : Stop load t loads failure) :
    ∃ key, failure = .circular key ∧ OnCycle load roots key := by
  cases hstop with
  | @rootFails id rest failure hframes hroots hmark hload =>
      obtain ⟨artifact, hok⟩ := hloads id (hgrounded.left id (hroots ▸ List.mem_cons_self ..))
      rw [hload] at hok
      cases hok
  | @childFails frame below child pending failure hframes hpending hmark hload =>
      obtain ⟨artifact, hok⟩ := hloads child (hgrounded.pending frame
        (hframes ▸ List.mem_cons_self ..) child (hpending ▸ List.mem_cons_self ..))
      rw [hload] at hok
      cases hok
  | @circular frame below child pending hframes hpending hmark =>
      have htop : frame ∈ t.frames := hframes ▸ List.mem_cons_self ..
      have hpend : child ∈ frame.pending := hpending ▸ List.mem_cons_self ..
      have hstacked : Stacked [] (frame :: below) := hframes ▸ hwired.stacked
      have hback : Links load roots frame.id.key child.key :=
        links_of_frame hspanning hgrounded htop (hstacked.1.pending hpend)
      obtain ⟨lower, hlower, hkey⟩ := List.mem_map.mp ((hmarked.underway _).mp hmark)
      have hpath : Relation.ReflTransGen (Links load roots) lower.id.key frame.id.key :=
        links_to_top hstacked (fun other hother child hchild =>
          links_of_frame hspanning hgrounded (hframes ▸ hother) hchild) lower (hframes ▸ hlower)
      rw [hkey] at hpath
      exact ⟨child.key, rfl, ⟨child, hgrounded.pending frame htop child hpend, rfl⟩,
        .tail' hpath hback⟩

/-! ## A finished visit has no cycle -/

/-- What is in reach of a loader is visited, when keys determine artifacts. -/
theorem visited_of_reachable (hsame : KeyDetermines load roots) {steps : Nat}
    {visited : List Visited} (hvisit : (visit load steps roots).result = .ok visited)
    {id : LibraryId} (hid : Reachable load roots id) :
    ∃ library ∈ visited, library.id.key = id.key ∧ load id = .ok library.artifact := by
  obtain ⟨-, -, hloaded, hspans⟩ := visited_spec hvisit
  have hhas : ∀ other, Reachable load roots other → other.key ∈ visited.map (·.id.key) →
      ∃ library ∈ visited, library.id.key = other.key ∧ load other = .ok library.artifact := by
    intro other hother hmem
    obtain ⟨library, hlibrary, hkey⟩ := List.mem_map.mp hmem
    refine ⟨library, hlibrary, hkey, ?_⟩
    rw [← hsame library.id other (visited_reachable hvisit hlibrary) hother hkey]
    exact hloaded library hlibrary
  refine hhas id hid ?_
  induction hid with
  | root hid => exact (hspans _).mpr (.root hid)
  | @link parent child artifact hparent hload hchild ih =>
      obtain ⟨library, hlibrary, hkey, hartifact⟩ := hhas parent hparent ih
      obtain rfl := Except.ok.inj (hload.symm.trans hartifact)
      refine (hspans _).mpr (.link ((hspans _).mp ih) ?_)
      exact ⟨library, hlibrary, hkey, hchild⟩

/-- A reference leads to an earlier place. -/
theorem place_lt_of_links (hsame : KeyDetermines load roots) {steps : Nat}
    {visited : List Visited} (hvisit : (visit load steps roots).result = .ok visited)
    {key other : String} (hlinks : Links load roots key other) :
    (visited.map (·.id.key)).idxOf other < (visited.map (·.id.key)).idxOf key := by
  obtain ⟨id, artifact, child, hid, rfl, hload, hchild, rfl⟩ := hlinks
  obtain ⟨library, hlibrary, hkey, hartifact⟩ := visited_of_reachable hsame hvisit hid
  obtain rfl := Except.ok.inj (hload.symm.trans hartifact)
  obtain ⟨hnodup, hordered, -, -⟩ := visited_spec hvisit
  obtain ⟨before, after, rfl⟩ := List.append_of_mem hlibrary
  obtain ⟨hneeds, hbefore⟩ := hordered.before rfl
  have hearlier : child.key ∈ before.map (·.id.key) := by
    refine hbefore _ ?_
    rw [hneeds]
    exact List.mem_map_of_mem hchild
  rw [List.map_append, List.map_cons, hkey] at hnodup ⊢
  have hfirst : id.key ∉ before.map (·.id.key) := fun hmem =>
    (List.nodup_append.mp hnodup).2.2 _ hmem _ (List.mem_cons_self ..) rfl
  rw [List.idxOf_append_of_mem hearlier, List.idxOf_append_of_notMem hfirst, List.idxOf_cons_self]
  exact List.idxOf_lt_length_of_mem hearlier

/-- A finished visit has found no cycle. -/
theorem not_onCycle_of_visit (hsame : KeyDetermines load roots) {steps : Nat}
    {visited : List Visited} (hvisit : (visit load steps roots).result = .ok visited)
    (key : String) : ¬ OnCycle load roots key := by
  intro hcycle
  have hlower : ∀ other, Relation.TransGen (Links load roots) key other →
      (visited.map (·.id.key)).idxOf other < (visited.map (·.id.key)).idxOf key := by
    intro other hpath
    induction hpath with
    | single hlinks => exact place_lt_of_links hsame hvisit hlinks
    | tail _ hlinks ih => exact (place_lt_of_links hsame hvisit hlinks).trans ih
  exact Nat.lt_irrefl _ (hlower key hcycle.cycle)

end Traversal

/-! ## Resolutions -/

open Loader (Reachable Links OnCycle Loads KeyDetermines FiniteReach)

/-- Renaming always works. -/
theorem Resolved.ofVisited_renaming (visited : List Visited) :
    ∃ libraries, Resolved.ofVisited true visited = .ok libraries := by
  simp only [Resolved.ofVisited]
  split
  · exact ⟨_, rfl⟩
  · exact ⟨_, rfl⟩

/-- With enough steps a resolution of libraries that can be loaded has an
order or has found a cycle. -/
theorem resolve_ordered_or_cyclic {load : Loader} {links : LinkReferences}
    (hfinite : FiniteReach load links.libraryIds) (hloads : Loads load links.libraryIds)
    (hsame : KeyDetermines load links.libraryIds) :
    ∃ bound, ∀ steps, bound ≤ steps →
      ((∃ libraries, (resolve load steps true links).result = .ok libraries) ∧
        ∀ key, ¬ OnCycle load links.libraryIds key) ∨
      ∃ key, (resolve load steps true links).result = .error (.circular key) ∧
        OnCycle load links.libraryIds key := by
  obtain ⟨keys, hreaches⟩ := hfinite
  obtain ⟨cost, hcost⟩ := Loader.exists_cost hreaches
  refine ⟨(cost + 2) * keys.length + links.libraryIds.length + 1, fun steps hsteps => ?_⟩
  obtain ⟨outcome, hrun⟩ := Traversal.visit_runs hreaches hcost hsteps
  have hvisit := Traversal.visit_ends hrun
  cases Traversal.ends_of_run hrun with
  | @finished last hreach hframes hroots =>
      have hresult : (Traversal.visit load steps links.libraryIds).result = .ok last.done := by
        rw [hvisit]
      obtain ⟨libraries, hnamed⟩ := Resolved.ofVisited_renaming last.done
      refine .inl ⟨⟨libraries, ?_⟩, Traversal.not_onCycle_of_visit hsame hresult⟩
      simp only [resolve, hresult]
      exact hnamed
  | @failed last loads failure hreach hstop =>
      obtain ⟨hmarked, hwired, hspanning⟩ := Traversal.coherent_of_reaches hreach
      obtain ⟨key, rfl, hcycle⟩ := Traversal.cycle_of_stop hloads hmarked hwired hspanning
        (Traversal.grounded_of_reaches hreach) hstop
      refine .inr ⟨key, ?_, hcycle⟩
      simp only [resolve, hvisit]
      rfl

/-- **Circular references.** A resolution of finitely many libraries that
can all be loaded reports a circular reference exactly if a key in reach
gets back to itself along references. The key reported is such a key, and
without one there is an order of deployment. -/
theorem resolve_circular_iff {load : Loader} {links : LinkReferences}
    (hfinite : FiniteReach load links.libraryIds) (hloads : Loads load links.libraryIds)
    (hsame : KeyDetermines load links.libraryIds) :
    ∃ bound, ∀ steps, bound ≤ steps →
      ((∃ key, (resolve load steps true links).result = .error (.circular key)) ↔
        ∃ key, OnCycle load links.libraryIds key) ∧
      (∀ key, (resolve load steps true links).result = .error (.circular key) →
        OnCycle load links.libraryIds key) ∧
      ((∀ key, ¬ OnCycle load links.libraryIds key) →
        ∃ libraries, (resolve load steps true links).result = .ok libraries) := by
  obtain ⟨bound, hbound⟩ := resolve_ordered_or_cyclic hfinite hloads hsame
  refine ⟨bound, fun steps hsteps => ?_⟩
  rcases hbound steps hsteps with ⟨⟨libraries, hok⟩, hnone⟩ | ⟨key, herror, hcycle⟩
  · refine ⟨⟨?_, ?_⟩, ?_, fun _ => ⟨libraries, hok⟩⟩
    · rintro ⟨key, herror⟩
      rw [hok] at herror
      cases herror
    · rintro ⟨key, hcycle⟩
      exact absurd hcycle (hnone key)
    · intro key herror
      rw [hok] at herror
      cases herror
  · refine ⟨⟨fun _ => ⟨key, hcycle⟩, fun _ => ⟨key, herror⟩⟩, ?_, fun hnone => ?_⟩
    · intro other hother
      rw [herror] at hother
      cases hother
      exact hcycle
    · exact absurd hcycle (hnone key)

/-- Two libraries refer to each other; a third leads to them. -/
def Loader.looped : Loader := Loader.ofCodes [
  (⟨"a.sol", "A"⟩, [], [("d.sol", [("D", [])]), ("b.sol", [("B", [])])]),
  (⟨"b.sol", "B"⟩, [], [("d.sol", [("D", [])]), ("c.sol", [("C", [])])]),
  (⟨"c.sol", "C"⟩, [], [("b.sol", [("B", [])])]),
  (⟨"d.sol", "D"⟩, [], [])]

/-- The circle is entered from the second root, and the library shared on
the way to it is none. -/
theorem resolve_circular_looped :
    ∃ bound, ∀ steps, bound ≤ steps → ∃ key,
      (resolve .looped steps true [("d.sol", [("D", [])]), ("a.sol", [("A", [])])]).result =
        .error (.circular key) ∧
      OnCycle .looped [⟨"d.sol", "D"⟩, ⟨"a.sol", "A"⟩] key := by
  let ids : List LibraryId := [⟨"a.sol", "A"⟩, ⟨"b.sol", "B"⟩, ⟨"c.sol", "C"⟩, ⟨"d.sol", "D"⟩]
  have hroots : ∀ id ∈ [(⟨"d.sol", "D"⟩ : LibraryId), ⟨"a.sol", "A"⟩], id ∈ ids := by decide
  have hclosed : Loader.looped.closed ids = true := by decide
  have hloads : Loads .looped [⟨"d.sol", "D"⟩, ⟨"a.sol", "A"⟩] := fun id hid => by
    have hmem := hid.mem_of_closed hroots hclosed
    simp only [ids, List.mem_cons, List.not_mem_nil, or_false] at hmem
    rcases hmem with rfl | rfl | rfl | rfl <;> exact ⟨_, rfl⟩
  have hsame : KeyDetermines .looped [⟨"d.sol", "D"⟩, ⟨"a.sol", "A"⟩] :=
    fun id other hid hother hkey => by
      have hinj : ∀ id ∈ ids, ∀ other ∈ ids, id.key = other.key → id = other := by decide
      rw [hinj id (hid.mem_of_closed hroots hclosed) other (hother.mem_of_closed hroots hclosed)
        hkey]
  have ha : Reachable .looped [⟨"d.sol", "D"⟩, ⟨"a.sol", "A"⟩] ⟨"a.sol", "A"⟩ :=
    .root (by decide)
  have hb : Reachable .looped [⟨"d.sol", "D"⟩, ⟨"a.sol", "A"⟩] ⟨"b.sol", "B"⟩ :=
    .link ha rfl (by decide)
  have hc : Reachable .looped [⟨"d.sol", "D"⟩, ⟨"a.sol", "A"⟩] ⟨"c.sol", "C"⟩ :=
    .link hb rfl (by decide)
  have hcycle : OnCycle .looped [⟨"d.sol", "D"⟩, ⟨"a.sol", "A"⟩] "b.sol:B" :=
    ⟨⟨_, hb, rfl⟩, .tail (.single ⟨_, _, ⟨"c.sol", "C"⟩, hb, rfl, rfl, by decide, rfl⟩)
      ⟨_, _, ⟨"b.sol", "B"⟩, hc, rfl, rfl, by decide, rfl⟩⟩
  obtain ⟨bound, hbound⟩ := @resolve_circular_iff .looped
    [("d.sol", [("D", [])]), ("a.sol", [("A", [])])] (.of_closed hroots hclosed) hloads hsame
  refine ⟨bound, fun steps hsteps => ?_⟩
  obtain ⟨hiff, hreported, -⟩ := hbound steps hsteps
  obtain ⟨key, herror⟩ := hiff.mpr ⟨_, hcycle⟩
  exact ⟨key, herror, hreported key herror⟩

end SolDeployer
