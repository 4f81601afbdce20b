import SolDeployer.Proofs.Resolution.Coherence
import SolDeployer.Proofs.Resolution.Names

/-!
# The order of deployment

What a resolution returns. Its libraries are those in reach of the link
references, each once, and each after every library that its own
artifact refers to.

Names play no part: `named_entries` says that naming changes neither the
libraries nor their order, so all of it is read off the state in which
the visit ends (`visited_spec`). The reach is that of the artifacts that
are returned and not that of the loader, because two libraries with one
key count as one and only the artifact of the first is looked at.
-/

namespace SolDeployer

/-! ## What a visit ends with -/

namespace Traversal

/-- A visited library with a key refers to another. -/
def VisitedRefers (visited : List Visited) (key : String) (child : LibraryId) : Prop :=
  ∃ library ∈ visited, library.id.key = key ∧ child ∈ library.artifact.libraryIds

/-- References of an ordered list stay in the list. -/
theorem Ordered.refers_mem {visited : List Visited} (h : Ordered visited) {key : String}
    {child : LibraryId} (hrefers : VisitedRefers visited key child) :
    child.key ∈ visited.map (·.id.key) := by
  obtain ⟨library, hmem, -, hchild⟩ := hrefers
  obtain ⟨before, after, heq⟩ := List.append_of_mem hmem
  obtain ⟨hneeds, hbefore⟩ := h.before heq
  have hkey : child.key ∈ library.needs := by
    rw [hneeds]
    exact List.mem_map_of_mem hchild
  rw [heq, List.map_append]
  exact List.mem_append_left _ (hbefore _ hkey)

/-- A finished visit has loaded and ordered exactly what is in reach. -/
theorem visited_spec {load : Loader} {steps : Nat} {roots : List LibraryId}
    {visited : List Visited} (h : (visit load steps roots).result = .ok visited) :
    (visited.map (·.id.key)).Nodup ∧ Ordered visited ∧
      (∀ library ∈ visited, load library.id = .ok library.artifact) ∧
      ∀ key, key ∈ visited.map (·.id.key) ↔ InReach (VisitedRefers visited) roots key := by
  obtain ⟨last, hreach, hframes, hroots, rfl⟩ := visit_ok h
  obtain ⟨hmarked, hwired, hspanning⟩ := coherent_of_reaches hreach
  have hknown : ∀ id artifact, (id, artifact) ∈ last.known ↔
      ∃ library ∈ last.done, library.id = id ∧ library.artifact = artifact := fun id artifact => by
    simp [known, hframes]
  refine ⟨hmarked.done_nodup, hwired.ordered, fun library hmem => ?_, fun key => ⟨?_, ?_⟩⟩
  · exact hspanning.loaded _ _ ((hknown _ _).mpr ⟨library, hmem, rfl, rfl⟩)
  · intro hkey
    obtain ⟨library, hmem, rfl⟩ := List.mem_map.mp hkey
    refine (hspanning.reached _ _ ((hknown _ _).mpr ⟨library, hmem, rfl, rfl⟩)).imp ?_
    rintro key child ⟨id, artifact, hentry, hkey, hchild⟩
    obtain ⟨other, hother, rfl, rfl⟩ := (hknown _ _).mp hentry
    exact ⟨other, hother, hkey, hchild⟩
  · intro hkey
    cases hkey with
    | root hid =>
        rcases hspanning.covered _ hid with hleft | ⟨other, artifact, hentry, hkey⟩
        · rw [hroots] at hleft
          cases hleft
        · obtain ⟨library, hmem, rfl, rfl⟩ := (hknown _ _).mp hentry
          exact List.mem_map.mpr ⟨library, hmem, hkey⟩
    | link _ hchild => exact hwired.ordered.refers_mem hchild

end Traversal

/-! ## Naming -/

namespace Resolved

theorem length_named {visited : List Visited} {identifiers : List String}
    (h : identifiers.length = visited.length) :
    (named visited identifiers).length = visited.length := by
  simp [named, h]

/-- Naming keeps the libraries, their artifacts and their order. -/
theorem named_entries {visited : List Visited} {identifiers : List String}
    (h : identifiers.length = visited.length) :
    (named visited identifiers).map (fun library => (library.id, library.artifact)) =
      visited.map fun library => (library.id, library.artifact) := by
  refine List.ext_getElem (by simp [length_named h]) fun i h₁ h₂ => ?_
  simp [named]

theorem named_identifiers {visited : List Visited} {identifiers : List String}
    (h : identifiers.length = visited.length) :
    (named visited identifiers).map identifier = identifiers := by
  refine List.ext_getElem (by simp [length_named h, h]) fun i h₁ h₂ => ?_
  simp [named]

/-- Visited libraries are named by identifiers that differ. -/
theorem ofVisited_ok {disambiguate : Bool} {visited : List Visited} {libraries : List Resolved}
    (h : ofVisited disambiguate visited = .ok libraries) :
    ∃ identifiers : List String, identifiers.length = visited.length ∧ identifiers.Nodup ∧
      libraries = named visited identifiers := by
  simp only [ofVisited] at h
  split at h
  · split at h
    · exact ⟨_, by simp, Naming.identifiers_nodup _, (Except.ok.inj h).symm⟩
    · cases h
  · rename_i hnone
    exact ⟨_, by simp, Naming.nodup_of_shared_nil (Naming.smallest?_eq_none hnone),
      (Except.ok.inj h).symm⟩

/-- The identifier of a resolved library is that of a visited one, or that with an index. -/
theorem ofVisited_identifier {disambiguate : Bool} {visited : List Visited}
    {libraries : List Resolved} (h : ofVisited disambiguate visited = .ok libraries)
    {library : Resolved} (hmem : library ∈ libraries) :
    ∃ other ∈ visited, library.identifier = other.id.identifier ∨
      ∃ index : Nat, library.identifier = other.id.identifier ++ toString index := by
  have hform : ∃ name ∈ visited.map (·.id.identifier), library.identifier = name ∨
      ∃ index : Nat, library.identifier = name ++ toString index := by
    have hnames : ∀ identifiers : List String, identifiers.length = visited.length →
        libraries = named visited identifiers → library.identifier ∈ identifiers := by
      rintro identifiers hlength rfl
      rw [← named_identifiers hlength]
      exact List.mem_map_of_mem hmem
    simp only [ofVisited] at h
    split at h
    · split at h
      · exact Naming.assign_form (hnames _ (by simp) (Except.ok.inj h).symm)
      · cases h
    · exact ⟨_, hnames _ (by simp) (Except.ok.inj h).symm, .inl rfl⟩
  obtain ⟨name, hname, hidentifier⟩ := hform
  obtain ⟨other, hother, rfl⟩ := List.mem_map.mp hname
  exact ⟨other, hother, hidentifier⟩

/-- A resolved library with a key refers to another. -/
def Refers (libraries : List Resolved) (key : String) (child : LibraryId) : Prop :=
  ∃ library ∈ libraries, library.key = key ∧ child ∈ library.artifact.libraryIds

end Resolved

/-! ## Resolutions -/

theorem resolve_ok {load : Loader} {steps : Nat} {disambiguate : Bool} {links : LinkReferences}
    {libraries : List Resolved} (h : (resolve load steps disambiguate links).result = .ok libraries) :
    ∃ visited, (Traversal.visit load steps links.libraryIds).result = .ok visited ∧
      Resolved.ofVisited disambiguate visited = .ok libraries := by
  simp only [resolve] at h
  cases hvisit : (Traversal.visit load steps links.libraryIds).result with
  | error failure =>
      rw [hvisit] at h
      cases h
  | ok visited =>
      rw [hvisit] at h
      exact ⟨visited, rfl, h⟩

/-- The libraries of a resolution are the visited ones in the same order. -/
theorem resolve_entries {load : Loader} {steps : Nat} {disambiguate : Bool}
    {links : LinkReferences} {libraries : List Resolved}
    (h : (resolve load steps disambiguate links).result = .ok libraries) :
    ∃ visited, (Traversal.visit load steps links.libraryIds).result = .ok visited ∧
      libraries.map (fun library => (library.id, library.artifact)) =
        visited.map (fun library => (library.id, library.artifact)) ∧
      (libraries.map Resolved.identifier).Nodup := by
  obtain ⟨visited, hvisit, hnamed⟩ := resolve_ok h
  obtain ⟨identifiers, hlength, hnodup, rfl⟩ := Resolved.ofVisited_ok hnamed
  refine ⟨visited, hvisit, Resolved.named_entries hlength, ?_⟩
  rwa [Resolved.named_identifiers hlength]

theorem keys_of_entries {libraries : List Resolved} {visited : List Visited}
    (h : libraries.map (fun library => (library.id, library.artifact)) =
      visited.map (fun library => (library.id, library.artifact))) :
    libraries.map Resolved.key = visited.map (·.id.key) := by
  have hkeys := congrArg (List.map fun entry : LibraryId × Artifact => entry.1.key) h
  rw [List.map_map, List.map_map] at hkeys
  exact hkeys

theorem refers_of_entries {libraries : List Resolved} {visited : List Visited}
    (h : libraries.map (fun library => (library.id, library.artifact)) =
      visited.map (fun library => (library.id, library.artifact))) :
    Resolved.Refers libraries = Traversal.VisitedRefers visited := by
  have hentry : ∀ id artifact, (∃ library ∈ libraries, library.id = id ∧ library.artifact = artifact) ↔
      ∃ library ∈ visited, library.id = id ∧ library.artifact = artifact := fun id artifact => by
    have hmem : (id, artifact) ∈ libraries.map (fun library => (library.id, library.artifact)) ↔
        (id, artifact) ∈ visited.map (fun library => (library.id, library.artifact)) := by rw [h]
    simpa using hmem
  funext key child
  refine propext ⟨?_, ?_⟩
  · rintro ⟨library, hmem, hkey, hchild⟩
    obtain ⟨other, hother, hid, hartifact⟩ := (hentry _ _).mp ⟨library, hmem, rfl, rfl⟩
    exact ⟨other, hother, by rw [hid]; exact hkey, by rw [hartifact]; exact hchild⟩
  · rintro ⟨library, hmem, hkey, hchild⟩
    obtain ⟨other, hother, hid, hartifact⟩ := (hentry _ _).mpr ⟨library, hmem, rfl, rfl⟩
    exact ⟨other, hother, by rw [← hkey, ← hid]; rfl, by rw [hartifact]; exact hchild⟩

section

variable {load : Loader} {steps : Nat} {disambiguate : Bool} {links : LinkReferences}
  {libraries : List Resolved}

theorem resolved_keys_nodup (h : (resolve load steps disambiguate links).result = .ok libraries) :
    (libraries.map Resolved.key).Nodup := by
  obtain ⟨visited, hvisit, hentries, -⟩ := resolve_entries h
  rw [keys_of_entries hentries]
  exact (Traversal.visited_spec hvisit).1

/-- A library of a resolution was visited with the artifact it has. -/
theorem visited_of_resolved (h : (resolve load steps disambiguate links).result = .ok libraries)
    {library : Resolved} (hmem : library ∈ libraries) :
    ∃ visited, (Traversal.visit load steps links.libraryIds).result = .ok visited ∧
      ∃ other ∈ visited, other.id = library.id ∧ other.artifact = library.artifact := by
  obtain ⟨visited, hvisit, hentries, -⟩ := resolve_entries h
  have hentry : (library.id, library.artifact) ∈
      visited.map (fun library => (library.id, library.artifact)) := by
    rw [← hentries]
    exact List.mem_map_of_mem hmem
  obtain ⟨other, hother, heq⟩ := List.mem_map.mp hentry
  exact ⟨visited, hvisit, other, hother, Prod.mk.inj heq⟩

theorem resolved_loaded (h : (resolve load steps disambiguate links).result = .ok libraries)
    {library : Resolved} (hmem : library ∈ libraries) : load library.id = .ok library.artifact := by
  obtain ⟨visited, hvisit, other, hother, hid, hartifact⟩ := visited_of_resolved h hmem
  rw [← hid, ← hartifact]
  exact (Traversal.visited_spec hvisit).2.2.1 other hother

/-- A library stands after all that its artifact refers to. -/
theorem resolved_before (h : (resolve load steps disambiguate links).result = .ok libraries)
    {before after : List Resolved} {library : Resolved}
    (hsplit : libraries = before ++ library :: after) {child : LibraryId}
    (hchild : child ∈ library.artifact.libraryIds) : child.key ∈ before.map Resolved.key := by
  obtain ⟨visited, hvisit, hentries, -⟩ := resolve_entries h
  have hordered := (Traversal.visited_spec hvisit).2.1
  rw [hsplit, List.map_append, List.map_cons] at hentries
  obtain ⟨before', rest, rfl, hbefore, hrest⟩ := List.map_eq_append_iff.mp hentries.symm
  obtain ⟨other, after', rfl, heq, -⟩ := List.map_eq_cons_iff.mp hrest
  obtain ⟨hneeds, hstands⟩ := hordered.before rfl
  rw [keys_of_entries hbefore.symm]
  refine hstands _ ?_
  rw [hneeds, (Prod.mk.inj heq).2]
  exact List.mem_map_of_mem hchild

/-- Everything that is referred to is among the libraries. -/
theorem resolved_closed (h : (resolve load steps disambiguate links).result = .ok libraries) :
    (∀ id ∈ links.libraryIds, id.key ∈ libraries.map Resolved.key) ∧
      ∀ library ∈ libraries, ∀ child ∈ library.artifact.libraryIds,
        child.key ∈ libraries.map Resolved.key := by
  refine ⟨?_, ?_⟩
  · intro id hid
    obtain ⟨visited, hvisit, hentries, -⟩ := resolve_entries h
    rw [keys_of_entries hentries]
    exact ((Traversal.visited_spec hvisit).2.2.2 _).mpr (.root hid)
  · intro library hmem child hchild
    obtain ⟨before, after, heq⟩ := List.append_of_mem hmem
    rw [heq, List.map_append]
    exact List.mem_append_left _ (resolved_before h heq hchild)

/-- No library refers to itself, nor to one that stands behind it. -/
structure Resolved.InOrder (libraries : List Resolved) : Prop where
  itself : ∀ library ∈ libraries, ∀ child ∈ library.artifact.libraryIds, child.key ≠ library.key
  later : libraries.Pairwise fun library later =>
    ∀ child ∈ library.artifact.libraryIds, child.key ≠ later.key

theorem Resolved.InOrder.sublist {given : List Resolved} (h : Resolved.InOrder libraries)
    (hgiven : given.Sublist libraries) : Resolved.InOrder given := by
  refine ⟨?_, h.later.sublist hgiven⟩
  intro library hmem
  exact h.itself library (hgiven.subset hmem)

/-- A library that another refers to can only stand before it. -/
theorem Resolved.InOrder.before {before after : List Resolved} {library other : Resolved}
    (h : Resolved.InOrder (before ++ library :: after)) {child : LibraryId}
    (hchild : child ∈ library.artifact.libraryIds) (hmem : other ∈ before ++ library :: after)
    (hkey : other.key = child.key) : other ∈ before := by
  rcases List.mem_append.mp hmem with hbefore | hmem
  · exact hbefore
  · rcases List.mem_cons.mp hmem with rfl | hafter
    · exact absurd hkey.symm (h.itself _ (List.mem_append_right _ (List.mem_cons_self ..)) _ hchild)
    · have hlater := (List.pairwise_cons.mp (List.pairwise_append.mp h.later).2.1).1 other hafter
      exact absurd hkey.symm (hlater child hchild)

theorem resolved_inOrder (h : (resolve load steps disambiguate links).result = .ok libraries) :
    Resolved.InOrder libraries := by
  have hnodup := resolved_keys_nodup h
  refine ⟨?_, List.pairwise_iff_forall_sublist.mpr ?_⟩
  · intro library hmem child hchild hkey
    obtain ⟨before, after, heq⟩ := List.append_of_mem hmem
    have hbefore := resolved_before h heq hchild
    rw [hkey] at hbefore
    rw [heq, List.map_append, List.map_cons] at hnodup
    exact (List.nodup_append.mp hnodup).2.2 _ hbefore _ (List.mem_cons_self ..) rfl
  · intro library later hsublist child hchild hkey
    -- the keys before the library and behind it differ
    obtain ⟨front, back, rfl, hfront, hback⟩ := List.cons_sublist_iff.mp hsublist
    obtain ⟨before, after, rfl⟩ := List.append_of_mem hfront
    have hlater : later ∈ back := hback.subset (List.mem_cons_self ..)
    have hbefore := resolved_before h (List.append_assoc before (library :: after) back) hchild
    rw [hkey] at hbefore
    rw [List.append_assoc, List.cons_append, List.map_append, List.map_cons] at hnodup
    exact (List.nodup_append.mp hnodup).2.2 _ hbefore _
      (List.mem_cons_of_mem _ (List.mem_map_of_mem (List.mem_append_right after hlater))) rfl

/-- **Deployment order.** The libraries of a resolution are those in reach
of the link references along the artifacts returned, each key once; each
artifact is the one that was loaded, and each library stands after all
that its artifact refers to. -/
theorem resolve_deployment_order
    (h : (resolve load steps disambiguate links).result = .ok libraries) :
    (∀ key, key ∈ libraries.map Resolved.key ↔
      Traversal.InReach (Resolved.Refers libraries) links.libraryIds key) ∧
    (libraries.map Resolved.key).Nodup ∧
    (∀ library ∈ libraries, load library.id = .ok library.artifact) ∧
    ∀ before library after, libraries = before ++ library :: after →
      ∀ child ∈ library.artifact.libraryIds, child.key ∈ before.map Resolved.key := by
  obtain ⟨visited, hvisit, hentries, -⟩ := resolve_entries h
  have hreach := (Traversal.visited_spec hvisit).2.2.2
  refine ⟨?_, resolved_keys_nodup h, fun library hmem => resolved_loaded h hmem, ?_⟩
  · rw [keys_of_entries hentries, refers_of_entries hentries]
    exact hreach
  · intro before library after hsplit child hchild
    exact resolved_before h hsplit hchild

end

/-- An artifact that holds nothing but a bytecode and its link references. -/
def Artifact.ofCode (name : String) (bytecode : List Char) (links : LinkReferences) : Artifact :=
  ⟨name, [], bytecode, links, .null, ⟨"", .null, .null, .null, .null, .null⟩⟩

/-- A loader of such artifacts. -/
def Loader.ofCodes (codes : Entries LibraryId (List Char × LinkReferences)) : Loader := fun id =>
  match codes.get? id with
  | none => .error (.noDocument id)
  | some (bytecode, links) => .ok (.ofCode id.name bytecode links)

/-- Two libraries share a third, which is also a root of its own. -/
def Loader.diamond : Loader := Loader.ofCodes [
  (⟨"a.sol", "A"⟩, [], [("b.sol", [("B", [])]), ("c.sol", [("C", [])])]),
  (⟨"b.sol", "B"⟩, [], [("d.sol", [("D", [])])]),
  (⟨"c.sol", "C"⟩, [], [("d.sol", [("D", [])])]),
  (⟨"d.sol", "D"⟩, [], [])]

/-- The shared library comes first although it is the last root. -/
theorem resolve_deployment_order_diamond :
    ∃ libraries,
      (resolve .diamond 20 true [("a.sol", [("A", [])]), ("d.sol", [("D", [])])]).result =
        .ok libraries ∧
      libraries.map Resolved.key = ["d.sol:D", "b.sol:B", "c.sol:C", "a.sol:A"] ∧
      ∀ before library after, libraries = before ++ library :: after →
        ∀ child ∈ library.artifact.libraryIds, child.key ∈ before.map Resolved.key := by
  have hkeys : (resolve .diamond 20 true [("a.sol", [("A", [])]), ("d.sol", [("D", [])])]).result.map
      (·.map Resolved.key) = .ok ["d.sol:D", "b.sol:B", "c.sol:C", "a.sol:A"] := by rfl
  cases hresult : (resolve .diamond 20 true [("a.sol", [("A", [])]), ("d.sol", [("D", [])])]).result with
  | error failure =>
      rw [hresult] at hkeys
      cases hkeys
  | ok libraries =>
      rw [hresult] at hkeys
      exact ⟨libraries, rfl, Except.ok.inj hkeys, (resolve_deployment_order hresult).2.2.2⟩

end SolDeployer
