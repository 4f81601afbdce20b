import Mathlib.Order.Bounds.Basic
import SolDeployer.Proofs.Resolution.DeploymentOrder

/-!
# Indices of namesakes

Which identifier each library gets when several have one name. The first
of a name keeps it, and every other one takes the least index that is
above those of its namesakes before and whose name is free (`IsNext`).

Names are given one by one, so all that is needed is what the assignment
knows at each turn (`Tracks`): the names that are taken are all names
there are and all identifiers given so far, and the last index of a name
is the greatest one given. A turn makes the next index by this rule and
keeps `Tracks` (`assign_cons`), and a run is its turns
(`assign_eq_indexed`). A search never runs out of tries: a list of taken
names cannot hold more names with an index than it has entries.
-/

namespace SolDeployer

namespace Naming

/-! ## One name -/

/-- With as many tries as names taken, or more, the search ends at the
least free index. -/
theorem freeIndex_isLeast {taken : List String} (name : String) (start : Nat) {tries : Nat}
    (htries : taken.length ≤ tries) :
    IsLeast {k | start ≤ k ∧ name ++ toString k ∉ taken} (freeIndex taken name tries start) := by
  obtain ⟨passed, heq, hle, hpassed, hfree⟩ := freeIndex_spec taken name tries start
  rw [heq]
  have hnew : name ++ toString (start + passed) ∉ taken := by
    intro hmem
    rcases Nat.lt_or_eq_of_le hle with hlt | rfl
    · exact hfree hlt hmem
    · have hall : ∀ k < passed + 1, name ++ toString (start + k) ∈ taken := by
        intro k hk
        rcases Nat.lt_or_eq_of_le (Nat.le_of_lt_succ hk) with hk | rfl
        · exact hpassed k hk
        · exact hmem
      have hcount := passed_le_length hall
      omega
  refine ⟨⟨Nat.le_add_right .., hnew⟩, ?_⟩
  rintro k ⟨hk, hnot⟩
  by_contra hlt
  have hbetween := hpassed (k - start) (by omega)
  rw [show start + (k - start) = k by omega] at hbetween
  exact hnot hbetween

/-- A name with an index. The first library of a name has index one and
keeps the name. -/
def indexed : String × Nat → String
  | (name, index) => if index = 1 then name else name ++ toString index

theorem indexed_one (name : String) : indexed (name, 1) = name := rfl

theorem indexed_of_two_le {index : Nat} (name : String) (h : 2 ≤ index) :
    indexed (name, index) = name ++ toString index := by
  rw [indexed, if_neg (by omega)]

/-- The rule for the index of the next library: one for the first of its
name, and for the others the least index above those before whose name is
neither that of any library nor an identifier given before. -/
structure IsNext (names : List String) (earlier : List (String × Nat)) (name : String)
    (index : Nat) : Prop where
  first : name ∉ earlier.map Prod.fst → index = 1
  later : name ∈ earlier.map Prod.fst → 2 ≤ index ∧
    IsLeast {k | (∀ i, (name, i) ∈ earlier → i < k) ∧ name ++ toString k ∉ names ∧
      name ++ toString k ∉ earlier.map indexed} index

/-! ## One turn -/

/-- What an assignment knows of the libraries before. -/
structure Tracks (names : List String) (earlier : List (String × Nat)) (taken : List String)
    (last : Entries String Nat) : Prop where
  taken : ∀ other, other ∈ taken ↔ other ∈ names ∨ other ∈ earlier.map indexed
  unused : ∀ name ∈ shared names, last.get? name = none → name ∉ earlier.map Prod.fst
  used : ∀ name ∈ shared names, ∀ index, last.get? name = some index →
    1 ≤ index ∧ (name, index) ∈ earlier ∧ ∀ i, (name, i) ∈ earlier → i ≤ index

variable {names taken rest : List String} {earlier : List (String × Nat)}
  {last : Entries String Nat} {name : String} {index : Nat}

theorem Tracks.start (names : List String) : Tracks names [] names [] :=
  ⟨fun other => by simp, fun name _ _ => by simp, fun name _ index h => nomatch h⟩

/-- What was known of the other names is known after a turn. -/
theorem Tracks.unused_append (h : Tracks names earlier taken last) {other : String}
    (hshared : other ∈ shared names) (hne : other ≠ name) (hlast : last.get? other = none) :
    other ∉ (earlier ++ [(name, index)]).map Prod.fst := by
  simp only [List.map_append, List.map_cons, List.map_nil, List.mem_append, List.mem_singleton,
    not_or]
  exact ⟨h.unused other hshared hlast, hne⟩

theorem Tracks.used_append (h : Tracks names earlier taken last) {other : String} {j : Nat}
    (hshared : other ∈ shared names) (hne : other ≠ name) (hlast : last.get? other = some j) :
    1 ≤ j ∧ (other, j) ∈ earlier ++ [(name, index)] ∧
      ∀ i, (other, i) ∈ earlier ++ [(name, index)] → i ≤ j := by
  obtain ⟨hone, hmem, hmax⟩ := h.used other hshared j hlast
  refine ⟨hone, List.mem_append_left _ hmem, ?_⟩
  intro i hi
  rcases List.mem_append.mp hi with hi | hi
  · exact hmax i hi
  · exact absurd (Prod.mk.inj (List.mem_singleton.mp hi)).1 hne

/-- A name that is kept is one of those taken already. -/
theorem Tracks.taken_kept (h : Tracks names earlier taken last) (hname : name ∈ names)
    (other : String) :
    other ∈ taken ↔ other ∈ names ∨ other ∈ (earlier ++ [(name, 1)]).map indexed := by
  rw [h.taken, List.map_append, List.mem_append, List.map_singleton, indexed_one,
    List.mem_singleton]
  constructor
  · rintro (hother | hother)
    · exact .inl hother
    · exact .inr (.inl hother)
  · rintro (hother | hother | rfl)
    · exact .inl hother
    · exact .inr hother
    · exact .inl hname

/-- A name that no other library has is kept, and nothing is noted. -/
theorem Tracks.keep (h : Tracks names earlier taken last) (hname : name ∈ names)
    (hshared : name ∉ shared names) : Tracks names (earlier ++ [(name, 1)]) taken last := by
  have hne : ∀ other ∈ shared names, other ≠ name := fun other hother heq => hshared (heq ▸ hother)
  exact ⟨h.taken_kept hname,
    fun other hother hlast => h.unused_append hother (hne other hother) hlast,
    fun other hother j hlast => h.used_append hother (hne other hother) hlast⟩

/-- The greatest index of a shared name is noted. -/
theorem Tracks.note (h : Tracks names earlier taken last) {taken' : List String}
    (hone : 1 ≤ index) (hmax : ∀ i, (name, i) ∈ earlier → i ≤ index)
    (htaken : ∀ other, other ∈ taken' ↔
      other ∈ names ∨ other ∈ (earlier ++ [(name, index)]).map indexed) :
    Tracks names (earlier ++ [(name, index)]) taken' (last.insert name index) := by
  refine ⟨htaken, ?_, ?_⟩
  · intro other hother hlast
    by_cases heq : other = name
    · rw [heq, Entries.get?_insert_self] at hlast
      cases hlast
    · rw [Entries.get?_insert_of_ne _ _ heq] at hlast
      exact h.unused_append hother heq hlast
  · intro other hother j hlast
    by_cases heq : other = name
    · rw [heq, Entries.get?_insert_self] at hlast
      obtain rfl := Option.some.inj hlast
      refine ⟨hone, by simp [heq], ?_⟩
      intro i hi
      rcases List.mem_append.mp hi with hi | hi
      · exact hmax i (heq ▸ hi)
      · rw [(Prod.mk.inj (List.mem_singleton.mp hi)).2]
    · rw [Entries.get?_insert_of_ne _ _ heq] at hlast
      exact h.used_append hother heq hlast

/-- A later library of a shared name takes a new name. -/
theorem Tracks.taken_new (h : Tracks names earlier taken last) (htwo : 2 ≤ index)
    (other : String) :
    other ∈ (name ++ toString index) :: taken ↔
      other ∈ names ∨ other ∈ (earlier ++ [(name, index)]).map indexed := by
  rw [List.mem_cons, h.taken, List.map_append, List.mem_append, List.map_singleton,
    indexed_of_two_le name htwo, List.mem_singleton]
  tauto

/-- Above the greatest index before is above all of them. -/
theorem Tracks.isLeast (h : Tracks names earlier taken last) (hshared : name ∈ shared names)
    {j : Nat} (hlast : last.get? name = some j)
    (hleast : IsLeast {k | j + 1 ≤ k ∧ name ++ toString k ∉ taken} index) :
    IsLeast {k | (∀ i, (name, i) ∈ earlier → i < k) ∧ name ++ toString k ∉ names ∧
      name ++ toString k ∉ earlier.map indexed} index := by
  obtain ⟨-, hmem, hmax⟩ := h.used name hshared j hlast
  have hsame : {k | (∀ i, (name, i) ∈ earlier → i < k) ∧ name ++ toString k ∉ names ∧
      name ++ toString k ∉ earlier.map indexed} =
        {k | j + 1 ≤ k ∧ name ++ toString k ∉ taken} := by
    ext k
    simp only [Set.mem_ofPred_eq, h.taken, not_or]
    refine and_congr_left fun _ => ⟨fun hall => hall j hmem, ?_⟩
    intro hlt i hi
    exact Nat.lt_of_le_of_lt (hmax i hi) hlt
  rwa [hsame]

/-- One turn gives the next index and tracks it. -/
theorem assign_cons (h : Tracks names earlier taken last)
    (hnames : names = earlier.map Prod.fst ++ name :: rest) :
    ∃ index taken' last',
      assign (shared names) taken last (name :: rest) =
        indexed (name, index) :: assign (shared names) taken' last' rest ∧
      IsNext names earlier name index ∧
      Tracks names (earlier ++ [(name, index)]) taken' last' := by
  have hname : name ∈ names := by
    rw [hnames]
    exact List.mem_append_right _ (List.mem_cons_self ..)
  by_cases hshared : name ∈ shared names
  · cases hlast : last.get? name with
    | none =>
        have hnew := h.unused name hshared hlast
        have hnone : ∀ i, (name, i) ∈ earlier → i ≤ 1 := by
          intro i hi
          exact absurd (List.mem_map_of_mem (f := Prod.fst) hi) hnew
        refine ⟨1, taken, last.insert name 1, ?_, ⟨fun _ => rfl, fun hmem => absurd hmem hnew⟩,
          h.note (Nat.le_refl 1) hnone (h.taken_kept hname)⟩
        simp only [assign, List.contains_iff_mem.mpr hshared, Bool.not_true, Bool.false_eq_true,
          if_false, hlast, indexed_one]
    | some j =>
        have hleast := freeIndex_isLeast name (j + 1) (Nat.le_refl taken.length)
        obtain ⟨hone, hmem, hmax⟩ := h.used name hshared j hlast
        have hlt : j + 1 ≤ freeIndex taken name taken.length (j + 1) := hleast.1.1
        have htwo : 2 ≤ freeIndex taken name taken.length (j + 1) := by omega
        have hbelow : ∀ i, (name, i) ∈ earlier → i ≤ freeIndex taken name taken.length (j + 1) := by
          intro i hi
          exact Nat.le_trans (hmax i hi) (by omega)
        refine ⟨freeIndex taken name taken.length (j + 1), _, _, ?_,
          ⟨fun hnot => absurd (List.mem_map_of_mem (f := Prod.fst) hmem) hnot,
            fun _ => ⟨htwo, h.isLeast hshared hlast hleast⟩⟩,
          h.note (by omega) hbelow (h.taken_new htwo)⟩
        simp only [assign, List.contains_iff_mem.mpr hshared, Bool.not_true, Bool.false_eq_true,
          if_false, hlast, indexed_of_two_le name htwo]
  · have hnew : name ∉ earlier.map Prod.fst := by
      intro hmem
      have hcount : 1 < names.count name := by
        rw [hnames, List.count_append, List.count_cons_self]
        have hpos := List.count_pos_iff.mpr hmem
        omega
      exact hshared (mem_shared.mpr ⟨hname, hcount⟩)
    refine ⟨1, taken, last, ?_, ⟨fun _ => rfl, fun hmem => absurd hmem hnew⟩,
      h.keep hname hshared⟩
    have hcontains : (shared names).contains name = false := by simpa using hshared
    simp only [assign, hcontains, Bool.not_false, if_true, indexed_one]

/-! ## All names -/

theorem assign_eq_indexed (h : Tracks names earlier taken last)
    (hnames : names = earlier.map Prod.fst ++ rest) :
    ∃ indices : List Nat, indices.length = rest.length ∧
      assign (shared names) taken last rest = (rest.zip indices).map indexed ∧
      ∀ before name index after, rest.zip indices = before ++ (name, index) :: after →
        IsNext names (earlier ++ before) name index := by
  induction rest generalizing earlier taken last with
  | nil => exact ⟨[], rfl, rfl, fun before name index after heq => by simp at heq⟩
  | cons name rest ih =>
      obtain ⟨index, taken', last', hassign, hnext, htracks⟩ := assign_cons h hnames
      obtain ⟨indices, hlength, hrest, hrule⟩ := ih htracks (by simp [hnames])
      refine ⟨index :: indices, by simp [hlength], by rw [hassign, hrest]; rfl, ?_⟩
      intro before other k after heq
      rw [List.zip_cons_cons] at heq
      cases before with
      | nil =>
          obtain ⟨hhead, -⟩ := List.cons.inj heq
          obtain ⟨rfl, rfl⟩ := Prod.mk.inj hhead
          rwa [List.append_nil]
      | cons entry before =>
          obtain ⟨rfl, htail⟩ := List.cons.inj heq
          have hnext' := hrule before other k after htail
          rwa [List.append_assoc] at hnext'

/-- Names that differ are kept. -/
theorem identifiers_of_shared_nil (h : shared names = []) : identifiers names = names := by
  have hkept : ∀ taken last rest, assign [] taken last rest = rest := by
    intro taken last rest
    induction rest with
    | nil => rfl
    | cons name rest ih => exact congrArg (name :: ·) ih
  rw [identifiers, h, hkept]

end Naming

/-! ## Libraries -/

theorem Resolved.ofVisited_of_some {visited : List Visited} {name : String}
    (h : Naming.smallest? (Naming.shared (visited.map (·.id.identifier))) = some name) :
    ofVisited false visited = .error (.colliding name
      ((visited.filter (·.id.identifier == name)).map (·.id.key))) := by
  simp only [ofVisited, h, Bool.false_eq_true, if_false]

theorem Resolved.ofVisited_of_none {visited : List Visited}
    (h : Naming.smallest? (Naming.shared (visited.map (·.id.identifier))) = none)
    (disambiguate : Bool) : ofVisited disambiguate visited = ofVisited true visited := by
  simp only [ofVisited, h]

theorem Resolved.ofVisited_true (visited : List Visited) :
    ofVisited true visited =
      .ok (named visited (Naming.identifiers (visited.map (·.id.identifier)))) := by
  simp only [ofVisited]
  split
  · rfl
  · rename_i hnone
    rw [Naming.identifiers_of_shared_nil (Naming.smallest?_eq_none hnone)]

/-- The name of a library, and the index of its key. -/
def Resolved.withIndex (index : String → Nat) (library : Resolved) : String × Nat :=
  (library.id.identifier, index library.key)

/-- Values of keys that differ are those of a function of the keys. -/
theorem exists_map_eq {keys : List String} (hnodup : keys.Nodup) {values : List Nat}
    (hlength : values.length = keys.length) : ∃ f : String → Nat, keys.map f = values := by
  induction keys generalizing values with
  | nil => exact ⟨fun _ => 0, (List.length_eq_zero_iff.mp hlength).symm⟩
  | cons key rest ih =>
      obtain ⟨value, values, rfl⟩ := List.exists_cons_of_length_eq_add_one hlength
      obtain ⟨hkey, hrest⟩ := List.nodup_cons.mp hnodup
      obtain ⟨f, hf⟩ := ih hrest (Nat.succ.inj hlength)
      refine ⟨fun other => if other = key then value else f other, ?_⟩
      rw [List.map_cons, if_pos rfl, ← hf]
      refine congrArg (value :: ·) (List.map_congr_left fun other hother => ?_)
      rw [if_neg fun heq : other = key => hkey (heq ▸ hother)]

section

variable {load : Loader} {steps : Nat} {links : LinkReferences} {libraries : List Resolved}

/-- The identifiers of a resolution are its names with indices by the rule. -/
theorem resolve_indexed (h : (resolve load steps true links).result = .ok libraries) :
    ∃ index : String → Nat,
      (∀ library ∈ libraries,
        library.identifier = Naming.indexed (library.withIndex index)) ∧
      ∀ before library after, libraries = before ++ library :: after →
        Naming.IsNext (libraries.map (·.id.identifier))
          (before.map (·.withIndex index))
          library.id.identifier (index library.key) := by
  obtain ⟨visited, hvisit, hnamed⟩ := resolve_ok h
  rw [Resolved.ofVisited_true] at hnamed
  have hlibraries := (Except.ok.inj hnamed).symm
  have hlength : (Naming.identifiers (visited.map (·.id.identifier))).length = visited.length := by
    rw [Naming.length_identifiers, List.length_map]
  have hnames : libraries.map (·.id.identifier) = visited.map (·.id.identifier) := by
    have hentries := congrArg (List.map fun entry : LibraryId × Artifact => entry.1.identifier)
      (Resolved.named_entries hlength)
    rwa [← hlibraries, List.map_map, List.map_map] at hentries
  have hidentifiers : libraries.map Resolved.identifier =
      Naming.identifiers (libraries.map (·.id.identifier)) := by
    rw [hnames, hlibraries, Resolved.named_identifiers hlength]
  obtain ⟨indices, hsize, hindexed, hrule⟩ :=
    Naming.assign_eq_indexed (.start (libraries.map (·.id.identifier))) (List.nil_append _).symm
  obtain ⟨index, rfl⟩ := exists_map_eq (resolved_keys_nodup h)
    (hsize.trans (by rw [List.length_map, List.length_map]))
  rw [List.map_map, List.zip_map'] at hindexed hrule
  refine ⟨index, ?_, ?_⟩
  · rw [show Naming.assign _ _ _ _ = Naming.identifiers _ from rfl, ← hidentifiers,
      List.map_map] at hindexed
    exact List.map_inj_left.mp hindexed
  · intro before library after hsplit
    refine hrule _ _ _ (after.map (·.withIndex index)) ?_
    rw [hsplit, List.map_append, List.map_cons]
    rfl

theorem resolve_of_visit {visited : List Visited}
    (h : (Traversal.visit load steps links.libraryIds).result = .ok visited)
    (disambiguate : Bool) :
    (resolve load steps disambiguate links).result = Resolved.ofVisited disambiguate visited := by
  simp only [resolve, h]
  rfl

/-- Where no name is shared renaming changes nothing. -/
theorem resolve_true {disambiguate : Bool}
    (h : (resolve load steps disambiguate links).result = .ok libraries) :
    (resolve load steps true links).result = .ok libraries := by
  cases disambiguate with
  | true => exact h
  | false =>
      obtain ⟨visited, hvisit, hnamed⟩ := resolve_ok h
      rw [resolve_of_visit hvisit]
      cases hsmallest : Naming.smallest? (Naming.shared (visited.map (·.id.identifier))) with
      | some name =>
          rw [Resolved.ofVisited_of_some hsmallest] at hnamed
          cases hnamed
      | none =>
          rwa [Resolved.ofVisited_of_none hsmallest] at hnamed

/-- An identifier that is not the name of its library is the name of none. -/
theorem resolved_identifier_new {disambiguate : Bool}
    (h : (resolve load steps disambiguate links).result = .ok libraries) {library : Resolved}
    (hmem : library ∈ libraries) : library.identifier = library.id.identifier ∨
      library.identifier ∉ libraries.map (·.id.identifier) := by
  obtain ⟨index, hindexed, hrule⟩ := resolve_indexed (resolve_true h)
  obtain ⟨before, after, heq⟩ := List.append_of_mem hmem
  have hnext := hrule before library after heq
  have hidentifier : library.identifier =
      Naming.indexed (library.id.identifier, index library.key) := hindexed library hmem
  by_cases hearlier : library.id.identifier ∈ (before.map (·.withIndex index)).map Prod.fst
  · obtain ⟨htwo, hleast⟩ := hnext.later hearlier
    rw [hidentifier, Naming.indexed_of_two_le _ htwo]
    exact .inr hleast.1.2.1
  · rw [hidentifier, hnext.first hearlier]
    exact .inl (Naming.indexed_one _)

/-- **Identifiers.** The identifiers of a resolution differ. The first
library of each name keeps the name, and so does a library that shares its
name with no other. Every later library of a name gets it with an index:
the least one that is above the indices of its namesakes before and whose
name is neither the name of any library nor an identifier given before.
The search for an index ends after no more tries than names are taken, and
further tries change nothing. -/
theorem resolve_identifiers (h : (resolve load steps true links).result = .ok libraries) :
    (libraries.map Resolved.identifier).Nodup ∧
    (∃ index : String → Nat, ∀ before library after, libraries = before ++ library :: after →
      (library.id.identifier ∉ before.map (·.id.identifier) →
        library.identifier = library.id.identifier ∧ index library.key = 1) ∧
      (library.id.identifier ∈ before.map (·.id.identifier) →
        library.identifier = library.id.identifier ++ toString (index library.key) ∧
        2 ≤ index library.key ∧
        IsLeast {k | (∀ other ∈ before, other.id.identifier = library.id.identifier →
            index other.key < k) ∧
          library.id.identifier ++ toString k ∉ libraries.map (·.id.identifier) ∧
          library.id.identifier ++ toString k ∉ before.map Resolved.identifier}
          (index library.key))) ∧
    ∀ taken name start tries, taken.length ≤ tries →
      IsLeast {k | start ≤ k ∧ name ++ toString k ∉ taken}
        (Naming.freeIndex taken name tries start) := by
  obtain ⟨visited, -, -, hnodup⟩ := resolve_entries h
  obtain ⟨index, hindexed, hrule⟩ := resolve_indexed h
  refine ⟨hnodup, ⟨index, ?_⟩, fun taken name start tries htries =>
    Naming.freeIndex_isLeast name start htries⟩
  intro before library after hsplit
  have hnext := hrule before library after hsplit
  have hlibrary := hindexed library (hsplit ▸ List.mem_append_right _ (List.mem_cons_self ..))
  have hnames : (before.map (·.withIndex index)).map Prod.fst =
      before.map (·.id.identifier) := by
    rw [List.map_map]
    rfl
  have hgiven : (before.map (·.withIndex index)).map Naming.indexed =
      before.map Resolved.identifier := by
    rw [List.map_map]
    refine List.map_congr_left fun other hother => ?_
    exact (hindexed other (hsplit ▸ List.mem_append_left _ hother)).symm
  have habove (k : Nat) : (∀ i, (library.id.identifier, i) ∈ before.map (·.withIndex index) → i < k) ↔
      ∀ other ∈ before, other.id.identifier = library.id.identifier → index other.key < k := by
    constructor
    · intro hall other hother hsame
      exact hall _ (List.mem_map.mpr ⟨other, hother, by rw [Resolved.withIndex, hsame]⟩)
    · intro hall i hi
      obtain ⟨other, hother, heq⟩ := List.mem_map.mp hi
      obtain ⟨hsame, rfl⟩ := Prod.mk.inj heq
      exact hall other hother hsame
  constructor
  · intro hfirst
    have hone := hnext.first (hnames ▸ hfirst)
    rw [Resolved.withIndex, hone] at hlibrary
    exact ⟨hlibrary, hone⟩
  · intro hlater
    obtain ⟨htwo, hleast⟩ := hnext.later (hnames ▸ hlater)
    rw [Resolved.withIndex, Naming.indexed_of_two_le _ htwo] at hlibrary
    refine ⟨hlibrary, htwo, ?_⟩
    simpa only [habove, hgiven] using hleast

end

/-- Two libraries of one name, and one whose name the second cannot take. -/
def Loader.crowded : Loader := Loader.ofCodes [
  (⟨"a.sol", "Math"⟩, [], []), (⟨"b.sol", "Math"⟩, [], []), (⟨"c.sol", "Math2"⟩, [], [])]

/-- The index two is passed over, because a library has the name. -/
theorem resolve_identifiers_crowded :
    ∃ (libraries : List Resolved) (index : String → Nat),
      (resolve .crowded 20 true
        [("a.sol", [("Math", [])]), ("b.sol", [("Math", [])]), ("c.sol", [("Math2", [])])]).result =
          .ok libraries ∧
      libraries.map Resolved.identifier = ["math", "math3", "math2"] ∧
      (libraries.map Resolved.identifier).Nodup ∧
      "math3" = "math" ++ toString (index "b.sol:Math") ∧
      index "a.sol:Math" < index "b.sol:Math" := by
  let first : Resolved := ⟨⟨"a.sol", "Math"⟩, "math", .ofCode "Math" [] [], []⟩
  let second : Resolved := ⟨⟨"b.sol", "Math"⟩, "math3", .ofCode "Math" [] [], []⟩
  let third : Resolved := ⟨⟨"c.sol", "Math2"⟩, "math2", .ofCode "Math2" [] [], []⟩
  have hresult : (resolve .crowded 20 true
      [("a.sol", [("Math", [])]), ("b.sol", [("Math", [])]), ("c.sol", [("Math2", [])])]).result =
        .ok [first, second, third] := by rfl
  obtain ⟨hnodup, ⟨index, hindex⟩, -⟩ := resolve_identifiers hresult
  obtain ⟨hname, -, hleast⟩ := (hindex [first] second [third] rfl).2 (by decide +kernel)
  have hmath : second.id.identifier = "math" := by decide +kernel
  rw [hmath] at hname
  exact ⟨_, index, hresult, rfl, hnodup, hname, hleast.1.1 first (List.mem_singleton.mpr rfl) rfl⟩

end SolDeployer
