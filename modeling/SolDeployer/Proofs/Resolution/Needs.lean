import Mathlib.Data.List.Forall2
import SolDeployer.Proofs.Resolution.DeploymentOrder

/-!
# What a library needs

A resolved library lists the libraries it needs by identifier, and the
identifiers are given last, when renaming is over. So the list cannot go
stale: reference by reference it holds the identifier that the library
with that key has in the end (`resolve_needs`).

Two facts make each entry name one library. The keys of visited libraries
differ, so a key has the identifier of its own place (`get?_named`), and
the identifiers differ too. The visit has put what is needed before.
-/

namespace SolDeployer

namespace Resolved

variable {visited : List Visited} {identifiers : List String}

/-- One library has the key of a reference and the identifier, no other
library has either, and it stands among those before. -/
def Designates (libraries before : List Resolved) (child : LibraryId) (identifier : String) : Prop :=
  ∃ needed ∈ before, needed.key = child.key ∧ needed.identifier = identifier ∧
    ∀ other ∈ libraries, other.key = child.key ∨ other.identifier = identifier → other = needed

/-- The identifiers of the keys of visited libraries. -/
def namesOf (visited : List Visited) (identifiers : List String) : Entries String String :=
  (visited.map (·.id.key)).zip identifiers

/-- A named library is a visited one under the identifier of its place. -/
theorem mem_named {library : Resolved} (h : library ∈ named visited identifiers) :
    ∃ other ∈ visited, ∃ identifier, (other.id.key, identifier) ∈ namesOf visited identifiers ∧
      library = ⟨other.id, identifier, other.artifact,
        other.needs.map fun key => ((namesOf visited identifiers).get? key).getD ""⟩ := by
  rw [named, ← List.map_uncurry_zip_eq_zipWith] at h
  obtain ⟨⟨other, identifier⟩, hmem, rfl⟩ := List.mem_map.mp h
  refine ⟨other, (List.of_mem_zip hmem).1, identifier, ?_, rfl⟩
  rw [namesOf, List.zip_map_left]
  exact List.mem_map.mpr ⟨(other, identifier), hmem, rfl⟩

theorem keys_namesOf (h : identifiers.length = visited.length) :
    (namesOf visited identifiers).keys = visited.map (·.id.key) := by
  rw [Entries.keys, namesOf, List.map_fst_zip (by simp [h])]

theorem get?_named (hlength : identifiers.length = visited.length)
    (hkeys : (visited.map (·.id.key)).Nodup) {library : Resolved}
    (h : library ∈ named visited identifiers) :
    (namesOf visited identifiers).get? library.key = some library.identifier := by
  obtain ⟨other, -, identifier, hmem, rfl⟩ := mem_named h
  exact Entries.get?_of_nodup (by rwa [keys_namesOf hlength]) hmem

/-- The needs of a named library are the names of its references. -/
theorem needs_named (hordered : Traversal.Ordered visited) {library : Resolved}
    (h : library ∈ named visited identifiers) :
    library.needs = library.artifact.libraryIds.map fun child =>
      ((namesOf visited identifiers).get? child.key).getD "" := by
  obtain ⟨other, hother, identifier, -, rfl⟩ := mem_named h
  obtain ⟨before, after, hsplit⟩ := List.append_of_mem hother
  show other.needs.map _ = other.artifact.libraryIds.map _
  rw [(hordered.before hsplit).1, List.map_map]
  rfl

end Resolved

section

variable {load : Loader} {steps : Nat} {disambiguate : Bool} {links : LinkReferences}
  {libraries : List Resolved}

/-- **Needs are up to date.** The needs of a resolved library are, reference
by reference in the order of its own artifact, the identifiers that the
libraries with those keys have in the resolution. Each designates one
library, and that library stands before. -/
theorem resolve_needs (h : (resolve load steps disambiguate links).result = .ok libraries) :
    ∀ before library after, libraries = before ++ library :: after →
      List.Forall₂ (Resolved.Designates libraries before) library.artifact.libraryIds
        library.needs := by
  intro before library after hsplit
  obtain ⟨visited, hvisit, hnamed⟩ := resolve_ok h
  obtain ⟨identifiers, hlength, hnodup, hlibraries⟩ := Resolved.ofVisited_ok hnamed
  obtain ⟨hkeys, hordered, -, -⟩ := Traversal.visited_spec hvisit
  have hmem : library ∈ Resolved.named visited identifiers := by
    rw [← hlibraries, hsplit]
    exact List.mem_append_right _ (List.mem_cons_self ..)
  have hidentifiers : (libraries.map Resolved.identifier).Nodup := by
    rwa [hlibraries, Resolved.named_identifiers hlength]
  rw [Resolved.needs_named hordered hmem, List.forall₂_map_right_iff, List.forall₂_same]
  intro child hchild
  obtain ⟨needed, hneeded, hkey⟩ := List.mem_map.mp (resolved_before h hsplit hchild)
  have hneeded' : needed ∈ libraries := hsplit ▸ List.mem_append_left _ hneeded
  have hname := Resolved.get?_named hlength hkeys (hlibraries ▸ hneeded')
  rw [hkey] at hname
  refine ⟨needed, hneeded, hkey, by rw [hname, Option.getD_some], ?_⟩
  rintro other hother (hsame | hsame)
  · exact List.inj_on_of_nodup_map (resolved_keys_nodup h) hother hneeded' (hsame.trans hkey.symm)
  · rw [hname, Option.getD_some] at hsame
    exact List.inj_on_of_nodup_map hidentifiers hother hneeded' hsame

end

/-- The last library needs two of one name, and the first of them needs the
other. -/
def Loader.homonyms : Loader := Loader.ofCodes [
  (⟨"c.sol", "Calc"⟩, [], [("a.sol", [("Math", [])]), ("b.sol", [("Math", [])])]),
  (⟨"a.sol", "Math"⟩, [], [("b.sol", [("Math", [])])]),
  (⟨"b.sol", "Math"⟩, [], [])]

/-- What is renamed is needed under its new name. -/
theorem resolve_needs_homonyms :
    ∃ before library,
      (resolve .homonyms 20 true [("c.sol", [("Calc", [])])]).result = .ok (before ++ [library]) ∧
      library.needs = ["math2", "math"] ∧
      List.Forall₂ (Resolved.Designates (before ++ [library]) before)
        library.artifact.libraryIds library.needs := by
  let first : Resolved := ⟨⟨"b.sol", "Math"⟩, "math", .ofCode "Math" [] [], []⟩
  let second : Resolved :=
    ⟨⟨"a.sol", "Math"⟩, "math2", .ofCode "Math" [] [("b.sol", [("Math", [])])], ["math"]⟩
  let last : Resolved := ⟨⟨"c.sol", "Calc"⟩, "calc",
    .ofCode "Calc" [] [("a.sol", [("Math", [])]), ("b.sol", [("Math", [])])], ["math2", "math"]⟩
  have hresult : (resolve .homonyms 20 true [("c.sol", [("Calc", [])])]).result =
      .ok ([first, second] ++ [last]) := by rfl
  exact ⟨_, _, hresult, rfl, resolve_needs hresult _ _ [] rfl⟩

end SolDeployer
