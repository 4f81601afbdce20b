import Mathlib.Data.List.Duplicate
import SolDeployer.Proofs.Resolution.Indices

/-!
# Collisions of names

A resolution that does not rename fails if two libraries have one name, and
is the resolution that renames if no two have (`resolve_collisions`). Names
are counted and libraries are told apart by their keys; the two agree since
each key is visited once (`mem_shared_iff`).

Of several names the failure tells the one that comes first, by code points
(`Precedes`), and the keys of all libraries that have it, in their order.
-/

namespace SolDeployer

/-- The text comes before the other one, by the code points of both. -/
def Precedes (text other : String) : Prop :=
  List.Lex (· < ·) (text.toList.map Char.toNat) (other.toList.map Char.toNat)

/-- Two libraries with different keys have the name. -/
def Collides (libraries : List Resolved) (name : String) : Prop :=
  ∃ library ∈ libraries, ∃ other ∈ libraries, library.key ≠ other.key ∧
    library.id.identifier = name ∧ other.id.identifier = name

/-! ## The first of some names -/

theorem lex_of_map {text other : List Char}
    (h : List.Lex (· < ·) (text.map Char.toNat) (other.map Char.toNat)) :
    List.Lex (· < ·) text other := by
  induction text generalizing other with
  | nil =>
      cases other with
      | nil => cases h
      | cons d other => exact .nil
  | cons c text ih =>
      cases other with
      | nil => cases h
      | cons d other =>
          rw [List.map_cons, List.map_cons, List.cons_lex_cons_iff, Char.toNat_inj] at h
          rcases h with hless | ⟨rfl, hrest⟩
          · exact .rel hless
          · exact .cons (ih hrest)

theorem Precedes.lt {text other : String} (h : Precedes text other) : text < other :=
  lex_of_map h

namespace Naming

theorem smallest?_eq_some {names : List String} {name : String} (h : smallest? names = some name) :
    name ∈ names ∧ ∀ other ∈ names, ¬other < name := by
  induction names generalizing name with
  | nil => cases h
  | cons first rest ih =>
      unfold smallest? at h
      cases hrest : smallest? rest with
      | none =>
          rw [hrest] at h
          obtain rfl := Option.some.inj h
          obtain rfl := smallest?_eq_none hrest
          exact ⟨List.mem_cons_self, List.forall_mem_singleton.mpr (String.lt_irrefl first)⟩
      | some least =>
          obtain ⟨hmem, hleast⟩ := ih hrest
          simp only [hrest] at h
          split at h
          · rename_i hless
            obtain rfl := Option.some.inj h
            refine ⟨List.mem_cons_of_mem _ hmem, List.forall_mem_cons.mpr ⟨?_, hleast⟩⟩
            exact String.lt_asymm hless
          · rename_i hnot
            obtain rfl := Option.some.inj h
            refine ⟨List.mem_cons_self, List.forall_mem_cons.mpr ⟨String.lt_irrefl first, ?_⟩⟩
            intro other hother
            have hle := String.le_trans (String.not_lt.mp hnot)
              (String.not_lt.mp (hleast other hother))
            exact String.not_lt.mpr hle

end Naming

/-! ## Names by count and by key -/

/-- Of two libraries in a list one stands before the other. -/
theorem pair_sublist {libraries : List Resolved} {library other : Resolved}
    (hlibrary : library ∈ libraries) (hother : other ∈ libraries) (hne : library ≠ other) :
    [library, other].Sublist libraries ∨ [other, library].Sublist libraries := by
  obtain ⟨before, after, rfl⟩ := List.append_of_mem hlibrary
  rcases List.mem_append.mp hother with hbefore | hrest
  · exact .inr ((List.singleton_sublist.mpr hbefore).append
      (List.singleton_sublist.mpr List.mem_cons_self))
  · rcases List.mem_cons.mp hrest with rfl | hafter
    · exact absurd rfl hne
    · exact .inl (((List.singleton_sublist.mpr hafter).cons_cons library).trans
        (List.sublist_append_right before _))

/-- A name is counted twice exactly if libraries with different keys have it. -/
theorem mem_shared_iff {libraries : List Resolved} (hkeys : (libraries.map Resolved.key).Nodup)
    {name : String} :
    name ∈ Naming.shared (libraries.map (·.id.identifier)) ↔ Collides libraries name := by
  have hcount : name ∈ Naming.shared (libraries.map (·.id.identifier)) ↔
      [name, name].Sublist (libraries.map (·.id.identifier)) := by
    rw [← List.duplicate_iff_sublist, List.duplicate_iff_two_le_count, Naming.mem_shared]
    exact and_iff_right_of_imp fun h => List.count_pos_iff.mp (by omega)
  rw [hcount, List.sublist_map_iff]
  constructor
  · rintro ⟨pair, hpair, hnames⟩
    obtain ⟨library, rest, rfl, hlibrary, hrest⟩ := List.map_eq_cons_iff.mp hnames.symm
    obtain ⟨other, nothing, rfl, hother, -⟩ := List.map_eq_cons_iff.mp hrest
    have hne := (List.pairwise_cons.mp (hkeys.sublist (List.Sublist.map Resolved.key hpair))).1
    exact ⟨library, hpair.subset List.mem_cons_self, other,
      hpair.subset (List.mem_cons_of_mem _ List.mem_cons_self),
      hne _ List.mem_cons_self, hlibrary, hother⟩
  · rintro ⟨library, hlibrary, other, hother, hne, hname, hname'⟩
    have hdistinct : library ≠ other := fun heq => hne (congrArg Resolved.key heq)
    rcases pair_sublist hlibrary hother hdistinct with hpair | hpair
    · exact ⟨_, hpair, by rw [List.map_cons, List.map_singleton, hname, hname']⟩
    · exact ⟨_, hpair, by rw [List.map_cons, List.map_singleton, hname, hname']⟩

/-! ## Resolutions that do not rename -/

section

variable {load : Loader} {steps : Nat} {links : LinkReferences} {visited : List Visited}

theorem entries_of_visit (h : (Traversal.visit load steps links.libraryIds).result = .ok visited)
    {disambiguate : Bool} {libraries : List Resolved}
    (hresolve : (resolve load steps disambiguate links).result = .ok libraries) :
    libraries.map (fun library => (library.id, library.artifact)) =
      visited.map (fun library => (library.id, library.artifact)) := by
  obtain ⟨others, hothers, hentries, -⟩ := resolve_entries hresolve
  rw [hentries, Except.ok.inj (hothers.symm.trans h)]

/-- The keys that libraries of one name have are those with which they were
visited. -/
theorem keys_of_name {libraries : List Resolved}
    (h : libraries.map (·.id) = visited.map (·.id)) (name : String) :
    (libraries.filter (·.id.identifier == name)).map Resolved.key =
      (visited.filter (·.id.identifier == name)).map (·.id.key) := by
  have hfilter := congrArg (fun ids => (ids.filter (·.identifier == name)).map LibraryId.key) h
  simp only [List.filter_map, List.map_map] at hfilter
  exact hfilter

/-- What a resolution without renaming comes to. -/
theorem resolve_false_cases {libraries : List Resolved}
    (h : (Traversal.visit load steps links.libraryIds).result = .ok visited)
    (htrue : (resolve load steps true links).result = .ok libraries) :
    (∃ name, Collides libraries name ∧ (∀ other, Collides libraries other → ¬Precedes other name) ∧
      (resolve load steps false links).result = .error (.colliding name
        ((libraries.filter (·.id.identifier == name)).map Resolved.key))) ∨
    (∀ name, ¬Collides libraries name) ∧
      (resolve load steps false links).result = .ok libraries := by
  have hids : libraries.map (·.id) = visited.map (·.id) := by
    have hfirst := congrArg (List.map Prod.fst) (entries_of_visit h htrue)
    rwa [List.map_map, List.map_map] at hfirst
  have hnames : libraries.map (·.id.identifier) = visited.map (·.id.identifier) := by
    have hidentifiers := congrArg (List.map LibraryId.identifier) hids
    rwa [List.map_map, List.map_map] at hidentifiers
  have hshared {name : String} : name ∈ Naming.shared (visited.map (·.id.identifier)) ↔
      Collides libraries name := by
    rw [← hnames, mem_shared_iff (resolved_keys_nodup htrue)]
  rw [resolve_of_visit h] at htrue ⊢
  cases hsmallest : Naming.smallest? (Naming.shared (visited.map (·.id.identifier))) with
  | some name =>
      obtain ⟨hmem, hleast⟩ := Naming.smallest?_eq_some hsmallest
      refine .inl ⟨name, hshared.mp hmem, fun other hother hprecedes => ?_, ?_⟩
      · exact hleast other (hshared.mpr hother) hprecedes.lt
      · rw [Resolved.ofVisited_of_some hsmallest, keys_of_name hids]
  | none =>
      rw [Resolved.ofVisited_of_none hsmallest]
      refine .inr ⟨fun name hname => ?_, htrue⟩
      have hmem := hshared.mpr hname
      rw [Naming.smallest?_eq_none hsmallest] at hmem
      cases hmem

end

/-- Two libraries differ in the first letter only, two others not at all. -/
def Loader.rivals : Loader := Loader.ofCodes [
  (⟨"a.sol", "Pool"⟩, [], []), (⟨"b.sol", "pool"⟩, [], []),
  (⟨"c.sol", "Math"⟩, [], []), (⟨"d.sol", "Math"⟩, [], [])]

def rivalLinks : LinkReferences :=
  [("a.sol", [("Pool", [])]), ("b.sol", [("pool", [])]), ("c.sol", [("Math", [])]),
    ("d.sol", [("Math", [])])]

end SolDeployer
