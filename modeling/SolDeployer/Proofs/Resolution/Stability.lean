import SolDeployer.Proofs.Resolution.Indices

/-!
# Indices that other libraries leave alone

The identifier of a library depends on its namesakes and on the names that
are taken, and not on where the other libraries stand. The rule for the
next index (`IsNext`) looks at the libraries before in two ways only: it
asks for the indices of the same name, and for the identifiers that are
not names already. A library that shares its name with no other has
neither to show. So two resolutions that come to the libraries with shared
names in one order give the same indices, one after the other
(`index_eq_of_labels`).

What this needs besides the order is that a key stands for one name. With
a colon in a name it may stand for two, and then the library that is met
first gives its own (`renaming_unstable_colons`).
-/

namespace SolDeployer

namespace Naming

variable {names other : List String} {earlier others : List (String × Nat)} {name : String}
  {i j : Nat}

/-- The rule gives one index, and reads no more of the libraries before than
the indices of the name and the identifiers that are not names. -/
theorem IsNext.unique (h : IsNext names earlier name i) (hother : IsNext other others name j)
    (hnames : ∀ x, x ∈ names ↔ x ∈ other)
    (hindices : ∀ k, (name, k) ∈ earlier ↔ (name, k) ∈ others)
    (hgiven : ∀ x, x ∉ names → (x ∈ earlier.map indexed ↔ x ∈ others.map indexed)) : i = j := by
  have hmet : name ∈ earlier.map Prod.fst ↔ name ∈ others.map Prod.fst := by
    simp only [List.mem_map, Prod.exists, exists_and_right, exists_eq_right, hindices]
  by_cases hfirst : name ∈ earlier.map Prod.fst
  · obtain ⟨-, hleast⟩ := h.later hfirst
    obtain ⟨-, hleast'⟩ := hother.later (hmet.mp hfirst)
    have hsame : {k | (∀ i, (name, i) ∈ earlier → i < k) ∧ name ++ toString k ∉ names ∧
          name ++ toString k ∉ earlier.map indexed} =
        {k | (∀ i, (name, i) ∈ others → i < k) ∧ name ++ toString k ∉ other ∧
          name ++ toString k ∉ others.map indexed} := by
      ext k
      simp only [Set.mem_ofPred_eq, hindices, ← hnames]
      refine and_congr_right fun _ => and_congr_right fun hnew => ?_
      rw [hgiven _ hnew]
    rw [hsame] at hleast
    exact hleast.unique hleast'
  · rw [h.first hfirst, hother.first (hmet.not.mp hfirst)]

end Naming

/-! ## Libraries with shared names -/

/-- The libraries that share their name with another one, in their order. -/
def namesakes (libraries : List Resolved) : List Resolved :=
  libraries.filter fun library =>
    (Naming.shared (libraries.map (·.id.identifier))).contains library.id.identifier

theorem mem_namesakes {libraries : List Resolved} {library : Resolved} :
    library ∈ namesakes libraries ↔ library ∈ libraries ∧
      library.id.identifier ∈ Naming.shared (libraries.map (·.id.identifier)) := by
  rw [namesakes, List.mem_filter, List.contains_iff_mem]

/-- What stands before a library with a shared name, and the ones with
shared names among that. -/
theorem split_namesakes {libraries before after : List Resolved} {library : Resolved}
    (h : namesakes libraries = before ++ library :: after) :
    ∃ front back, libraries = front ++ library :: back ∧
      front.filter (fun one =>
        (Naming.shared (libraries.map (·.id.identifier))).contains one.id.identifier) = before := by
  obtain ⟨front, rest, hlibraries, hfront, hrest⟩ := List.filter_eq_append_iff.mp h
  obtain ⟨passed, back, rfl, hpassed, -, -⟩ := List.filter_eq_cons_iff.mp hrest
  refine ⟨front ++ passed, back, ?_, ?_⟩
  · rw [hlibraries, List.append_assoc]
  · rw [List.filter_append, hfront, List.filter_eq_nil_iff.mpr hpassed, List.append_nil]

/-- The key and the name of a library: all that its identifier may depend
on, besides the other libraries. -/
def Resolved.label (library : Resolved) : String × String := (library.key, library.id.identifier)

/-! ## Indices of a list -/

/-- What the libraries of a list are named by: the index of each is the
next one by the rule. -/
structure Resolved.Numbered (libraries : List Resolved) (index : String → Nat) : Prop where
  keys : (libraries.map Resolved.key).Nodup
  identifier : ∀ library ∈ libraries,
    library.identifier = Naming.indexed (library.withIndex index)
  rule : ∀ before library after, libraries = before ++ library :: after →
    Naming.IsNext (libraries.map (·.id.identifier)) (before.map (·.withIndex index))
      library.id.identifier (index library.key)

namespace Resolved.Numbered

variable {libraries others : List Resolved} {index index' : String → Nat}

/-- A library that shares its name with no other keeps it. -/
theorem index_unshared (h : Numbered libraries index) {library : Resolved}
    (hmem : library ∈ libraries) (hunshared : library ∉ namesakes libraries) :
    index library.key = 1 := by
  obtain ⟨before, after, hsplit⟩ := List.append_of_mem hmem
  refine (h.rule before library after hsplit).first fun hmet => hunshared ?_
  have hbefore : library.id.identifier ∈ before.map (·.id.identifier) := by
    rw [List.map_map] at hmet
    exact hmet
  have hcount : 1 < (libraries.map (·.id.identifier)).count library.id.identifier := by
    rw [hsplit, List.map_append, List.map_cons, List.count_append, List.count_cons_self]
    have hpos := List.count_pos_iff.mpr hbefore
    omega
  exact mem_namesakes.mpr ⟨hmem, Naming.mem_shared.mpr ⟨List.mem_map_of_mem hmem, hcount⟩⟩

/-- Of the libraries before one with a shared name, those with shared names
are all that the rule reads. -/
theorem rule_namesakes (h : Numbered libraries index) {before after : List Resolved}
    {library : Resolved} (hsplit : namesakes libraries = before ++ library :: after) :
    ∃ earlier, Naming.IsNext (libraries.map (·.id.identifier)) earlier library.id.identifier
        (index library.key) ∧
      (∀ k, (library.id.identifier, k) ∈ earlier ↔
        (library.id.identifier, k) ∈ before.map (·.withIndex index)) ∧
      ∀ x, x ∉ libraries.map (·.id.identifier) →
        (x ∈ earlier.map Naming.indexed ↔
          x ∈ (before.map (·.withIndex index)).map Naming.indexed) := by
  have hlibrary : library ∈ namesakes libraries := by
    rw [hsplit]
    exact List.mem_append_right _ (List.mem_cons_self ..)
  obtain ⟨front, back, hlibraries, hbefore⟩ := split_namesakes hsplit
  have hfront : ∀ one ∈ front, one ∈ libraries := by
    intro one hone
    rw [hlibraries]
    exact List.mem_append_left _ hone
  have hkept : ∀ one, one ∈ before ↔ one ∈ front ∧ one ∈ namesakes libraries := by
    intro one
    rw [← hbefore, List.mem_filter, List.contains_iff_mem, mem_namesakes]
    exact and_congr_right fun hone => (and_iff_right (hfront one hone)).symm
  refine ⟨front.map (·.withIndex index), h.rule front library back hlibraries, ?_, ?_⟩
  · intro k
    simp only [List.mem_map, hkept]
    constructor
    · rintro ⟨one, hone, hindex⟩
      -- a namesake of the library shares its name, too
      have hname : one.id.identifier = library.id.identifier := congrArg Prod.fst hindex
      refine ⟨one, ⟨hone, mem_namesakes.mpr ⟨hfront one hone, ?_⟩⟩, hindex⟩
      rw [hname]
      exact (mem_namesakes.mp hlibrary).2
    · rintro ⟨one, ⟨hone, -⟩, hindex⟩
      exact ⟨one, hone, hindex⟩
  · intro x hx
    simp only [List.map_map, List.mem_map, hkept, Function.comp_apply]
    constructor
    · rintro ⟨one, hone, rfl⟩
      refine ⟨one, ⟨hone, ?_⟩, rfl⟩
      by_contra hunshared
      rw [Resolved.withIndex, h.index_unshared (hfront one hone) hunshared,
        Naming.indexed_one] at hx
      exact hx (List.mem_map_of_mem (hfront one hone))
    · rintro ⟨one, ⟨hone, -⟩, heq⟩
      exact ⟨one, hone, heq⟩

theorem map_withIndex (index : String → Nat) (libraries : List Resolved) :
    libraries.map (·.withIndex index) =
      (libraries.map label).map fun (key, name) => (name, index key) := by
  rw [List.map_map]
  rfl

/-- Lists that come to the libraries with shared names in one order give
them the same indices. -/
theorem index_eq_of_labels (h : Numbered libraries index) (h' : Numbered others index')
    (hnames : ∀ x, x ∈ libraries.map (·.id.identifier) ↔ x ∈ others.map (·.id.identifier))
    {before before' after after' : List Resolved}
    (hsplit : namesakes libraries = before ++ after)
    (hsplit' : namesakes others = before' ++ after')
    (hlabels : before.map label = before'.map label) :
    ∀ library ∈ before, index library.key = index' library.key := by
  induction before using List.reverseRecOn generalizing before' after after' with
  | nil => exact fun library hmem => nomatch hmem
  | append_singleton before library ih =>
      rw [List.map_append, List.map_singleton] at hlabels
      obtain ⟨earlier, last, rfl, hearlier, hlast⟩ := List.map_eq_append_iff.mp hlabels.symm
      obtain ⟨other, rfl, hother⟩ := List.map_eq_singleton_iff.mp hlast
      rw [List.append_assoc, List.singleton_append] at hsplit hsplit'
      obtain ⟨hkey, hname⟩ := Prod.mk.inj hother
      have hbefore := ih hsplit hsplit' hearlier.symm
      have hindices : before.map (·.withIndex index) = earlier.map (·.withIndex index') := by
        rw [map_withIndex, map_withIndex, hearlier, ← map_withIndex, ← map_withIndex]
        refine List.map_congr_left fun one hone => ?_
        rw [Resolved.withIndex, Resolved.withIndex, hbefore one hone]
      obtain ⟨met, hnext, hmet, hgiven⟩ := h.rule_namesakes hsplit
      obtain ⟨met', hnext', hmet', hgiven'⟩ := h'.rule_namesakes hsplit'
      rw [hname, hkey] at hnext'
      rw [hname] at hmet'
      have hindex : index library.key = index' library.key := by
        refine hnext.unique hnext' hnames ?_ ?_
        · intro k
          rw [hmet, hmet', hindices]
        · intro x hx
          rw [hgiven x hx, hgiven' x ((hnames x).not.mp hx), hindices]
      intro one hone
      rcases List.mem_append.mp hone with hone | hone
      · exact hbefore one hone
      · rw [List.mem_singleton.mp hone]
        exact hindex

end Resolved.Numbered

/-! ## Two resolutions -/

section

variable {load load' : Loader} {steps steps' : Nat} {links links' : LinkReferences}
  {libraries others : List Resolved}

theorem numbered_of_resolve (h : (resolve load steps true links).result = .ok libraries) :
    ∃ index, Resolved.Numbered libraries index := by
  obtain ⟨index, hidentifier, hrule⟩ := resolve_indexed h
  exact ⟨index, resolved_keys_nodup h, hidentifier, hrule⟩

/-- Lists with the same keys, each for one name, have the same labels. -/
theorem labels_perm (hkeys : (libraries.map Resolved.key).Nodup)
    (hkeys' : (others.map Resolved.key).Nodup)
    (hsame : ∀ key, key ∈ libraries.map Resolved.key ↔ key ∈ others.map Resolved.key)
    (hnames : ∀ library ∈ libraries, ∀ other ∈ others, library.key = other.key →
      library.id.identifier = other.id.identifier) :
    (libraries.map Resolved.label).Perm (others.map Resolved.label) := by
  have hnodup : ∀ {list : List Resolved}, (list.map Resolved.key).Nodup →
      (list.map Resolved.label).Nodup := by
    intro list hlist
    refine List.Nodup.of_map Prod.fst ?_
    rwa [List.map_map]
  rw [List.perm_ext_iff_of_nodup (hnodup hkeys) (hnodup hkeys')]
  intro label
  simp only [List.mem_map] at hsame ⊢
  constructor
  · rintro ⟨library, hlibrary, rfl⟩
    obtain ⟨other, hother, hkey⟩ := (hsame library.key).mp ⟨library, hlibrary, rfl⟩
    refine ⟨other, hother, ?_⟩
    rw [Resolved.label, Resolved.label, hkey, hnames library hlibrary other hother hkey.symm]
  · rintro ⟨other, hother, rfl⟩
    obtain ⟨library, hlibrary, hkey⟩ := (hsame other.key).mpr ⟨other, hother, rfl⟩
    refine ⟨library, hlibrary, ?_⟩
    rw [Resolved.label, Resolved.label, hkey, hnames library hlibrary other hother hkey]

theorem map_label_eq {libraries others : List Resolved}
    (hkeys : libraries.map Resolved.key = others.map Resolved.key)
    (hnames : ∀ library ∈ libraries, ∀ other ∈ others, library.key = other.key →
      library.id.identifier = other.id.identifier) :
    libraries.map Resolved.label = others.map Resolved.label := by
  induction libraries generalizing others with
  | nil => rw [List.map_eq_nil_iff.mp hkeys.symm]
  | cons library rest ih =>
      obtain ⟨other, left, rfl, hkey, hrest⟩ := List.map_eq_cons_iff.mp hkeys.symm
      have hname := hnames library (List.mem_cons_self ..) other (List.mem_cons_self ..) hkey.symm
      rw [List.map_cons, List.map_cons, Resolved.label, Resolved.label, hkey, hname]
      refine congrArg (_ :: ·) (ih hrest.symm fun one hone another hanother => ?_)
      exact hnames one (List.mem_cons_of_mem _ hone) another (List.mem_cons_of_mem _ hanother)

/-- **Stability.** Take two resolutions of the same keys, in any orders, in
which a key stands for libraries of one name. If they come to the libraries
that share their name with another in the same order, then every key has
one identifier in both. -/
theorem resolve_renaming_stable
    (h : (resolve load steps true links).result = .ok libraries)
    (h' : (resolve load' steps' true links').result = .ok others)
    (hkeys : ∀ key, key ∈ libraries.map Resolved.key ↔ key ∈ others.map Resolved.key)
    (hnames : ∀ library ∈ libraries, ∀ other ∈ others, library.key = other.key →
      library.id.identifier = other.id.identifier)
    (horder : (namesakes libraries).map Resolved.key = (namesakes others).map Resolved.key) :
    ∀ library ∈ libraries, ∀ other ∈ others, library.key = other.key →
      library.identifier = other.identifier := by
  obtain ⟨index, hnumbered⟩ := numbered_of_resolve h
  obtain ⟨index', hnumbered'⟩ := numbered_of_resolve h'
  have hperm : (libraries.map (·.id.identifier)).Perm (others.map (·.id.identifier)) := by
    have hlabels := labels_perm hnumbered.keys hnumbered'.keys hkeys hnames
    have hlast := hlabels.map Prod.snd
    rwa [List.map_map, List.map_map] at hlast
  have hlabels : (namesakes libraries).map Resolved.label =
      (namesakes others).map Resolved.label := by
    refine map_label_eq horder ?_
    intro library hlibrary other hother hkey
    exact hnames library (mem_namesakes.mp hlibrary).1 other (mem_namesakes.mp hother).1 hkey
  intro library hlibrary other hother hkey
  have hname := hnames library hlibrary other hother hkey
  have hindex : index library.key = index' other.key := by
    by_cases hshared : library ∈ namesakes libraries
    · rw [← hkey]
      exact hnumbered.index_eq_of_labels hnumbered' (fun _ => hperm.mem_iff)
        (List.append_nil _).symm (List.append_nil _).symm hlabels library hshared
    · have hshared' : other ∉ namesakes others := by
        rw [mem_namesakes, Naming.mem_shared, ← hperm.mem_iff, ← hperm.count_eq, ← hname]
        rw [mem_namesakes, Naming.mem_shared] at hshared
        exact fun hother => hshared ⟨hlibrary, hother.2⟩
      rw [hnumbered.index_unshared hlibrary hshared, hnumbered'.index_unshared hother hshared']
  rw [hnumbered.identifier library hlibrary, hnumbered'.identifier other hother,
    Resolved.withIndex, Resolved.withIndex, hname, hindex]

end

/-- The library with the taken name comes last or first; the two others are
named alike. -/
theorem resolve_renaming_stable_crowded :
    ∃ libraries others : List Resolved,
      (resolve .crowded 20 true
        [("a.sol", [("Math", [])]), ("b.sol", [("Math", [])]), ("c.sol", [("Math2", [])])]).result =
          .ok libraries ∧
      (resolve .crowded 20 true
        [("c.sol", [("Math2", [])]), ("a.sol", [("Math", [])]), ("b.sol", [("Math", [])])]).result =
          .ok others ∧
      libraries.map Resolved.key ≠ others.map Resolved.key ∧
      (namesakes libraries).map Resolved.key = ["a.sol:Math", "b.sol:Math"] ∧
      ∀ library ∈ libraries, ∀ other ∈ others, library.key = other.key →
        library.identifier = other.identifier := by
  let first : Resolved := ⟨⟨"a.sol", "Math"⟩, "math", .ofCode "Math" [] [], []⟩
  let second : Resolved := ⟨⟨"b.sol", "Math"⟩, "math3", .ofCode "Math" [] [], []⟩
  let third : Resolved := ⟨⟨"c.sol", "Math2"⟩, "math2", .ofCode "Math2" [] [], []⟩
  have hlast : (resolve .crowded 20 true
      [("a.sol", [("Math", [])]), ("b.sol", [("Math", [])]), ("c.sol", [("Math2", [])])]).result =
        .ok [first, second, third] := by rfl
  have hfirst : (resolve .crowded 20 true
      [("c.sol", [("Math2", [])]), ("a.sol", [("Math", [])]), ("b.sol", [("Math", [])])]).result =
        .ok [third, first, second] := by rfl
  have hnames : ∀ library ∈ [first, second, third], ∀ other ∈ [third, first, second],
      library.key = other.key → library.id.identifier = other.id.identifier := by
    decide +kernel
  have horder : (namesakes [first, second, third]).map Resolved.key =
      (namesakes [third, first, second]).map Resolved.key := by
    decide +kernel
  refine ⟨_, _, hlast, hfirst, by decide +kernel, by decide +kernel, ?_⟩
  have hperm : ([first, second, third].map Resolved.key).Perm
      ([third, first, second].map Resolved.key) := by decide +kernel
  exact resolve_renaming_stable hlast hfirst (fun _ => hperm.mem_iff) hnames horder

/-- Two libraries under one key. -/
def Loader.colons : Loader := Loader.ofCodes [(⟨"a:b", "c"⟩, [], []), (⟨"a", "b:c"⟩, [], [])]

/-- The key is resolved alone, and its identifier is that of the library
which is met first. -/
theorem renaming_unstable_colons :
    ∃ libraries others : List Resolved,
      (resolve .colons 20 true [("a:b", [("c", [])]), ("a", [("b:c", [])])]).result =
        .ok libraries ∧
      (resolve .colons 20 true [("a", [("b:c", [])]), ("a:b", [("c", [])])]).result =
        .ok others ∧
      libraries.map Resolved.key = others.map Resolved.key ∧
      namesakes libraries = [] ∧ namesakes others = [] ∧
      libraries.map Resolved.identifier = ["c"] ∧ others.map Resolved.identifier = ["b:c"] := by
  let short : Resolved := ⟨⟨"a:b", "c"⟩, "c", .ofCode "c" [] [], []⟩
  let long : Resolved := ⟨⟨"a", "b:c"⟩, "b:c", .ofCode "b:c" [] [], []⟩
  have hshort : (resolve .colons 20 true [("a:b", [("c", [])]), ("a", [("b:c", [])])]).result =
      .ok [short] := by rfl
  have hlong : (resolve .colons 20 true [("a", [("b:c", [])]), ("a:b", [("c", [])])]).result =
      .ok [long] := by rfl
  have halone : (namesakes [short]).length = 0 ∧ (namesakes [long]).length = 0 := by
    decide +kernel
  exact ⟨_, _, hshort, hlong, by decide +kernel, List.length_eq_zero_iff.mp halone.1,
    List.length_eq_zero_iff.mp halone.2, rfl, rfl⟩

end SolDeployer
