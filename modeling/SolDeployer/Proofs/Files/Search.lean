import Mathlib.Data.List.Basic
import SolDeployer.Proofs.Entries
import SolDeployer.Proofs.Files.Matching
import SolDeployer.Proofs.Report
import SolDeployer.Proofs.Sorting

/-!
# Searches below a directory

A search for a name goes to every directory below a place and looks there for what
the name, taken as a pattern, matches. On a tree it finds all that is so named at
any depth, each once and in order (`Disk.glob_name`), as long as the paths that it
looks at are not too long.
-/

namespace SolDeployer

namespace Files

/-! ## The order of paths -/

theorem Path.before_total (a b : Path) : a.before b = true ∨ b.before a = true := by
  simp only [Path.before, decide_eq_true_eq]
  exact List.le_total a.parts b.parts

theorem Path.before_trans (a b c : Path) (hab : a.before b = true) (hbc : b.before c = true) :
    a.before c = true := by
  simp only [Path.before, decide_eq_true_eq] at hab hbc ⊢
  exact List.le_trans hab hbc

/-! ## Trees -/

/-- A text that can be the name of a file or of a directory. -/
def IsName (name : String) : Prop :=
  name ≠ "" ∧ name ≠ "." ∧ name ≠ ".." ∧ '/' ∉ name.toList ∧ Disk.hasForeign name = false

instance (name : String) : Decidable (IsName name) := inferInstanceAs (Decidable (_ ∧ _))

/-- All that is on a disk is there once, has a name and is in a directory. -/
structure Disk.IsTree (disk : Disk) : Prop where
  once : disk.nodes.keys.Nodup
  named : ∀ place ∈ disk.nodes.keys, ∀ name ∈ place, IsName name
  housed : ∀ place ∈ disk.nodes.keys, place ≠ [] ∧ disk.isDirectory place.dropLast = true

namespace Disk

variable {disk : Disk} {place : Place} {name : String}

theorem mem_keys_iff (hplace : place ≠ []) :
    place ∈ disk.nodes.keys ↔ (disk.node? place).isSome = true := by
  have hget : disk.node? place = disk.nodes.get? place := by
    rw [node?, if_neg (by simpa using hplace)]
  rw [hget, Option.isSome_iff_exists]
  constructor
  · exact Entries.exists_get?_of_mem_keys
  · rintro ⟨node, hnode⟩
    exact List.mem_map_of_mem (Entries.mem_of_get? hnode)

theorem mem_children : name ∈ disk.children place ↔ place ++ [name] ∈ disk.nodes.keys := by
  unfold children Entries.keys
  rw [List.mem_filterMap, List.mem_map]
  constructor
  · rintro ⟨⟨other, node⟩, hmem, hname⟩
    refine ⟨(other, node), hmem, ?_⟩
    simp only at hname ⊢
    split at hname
    · rename_i hplace
      rw [← beq_iff_eq.mp hplace, List.dropLast_append_getLast? name hname]
    · cases hname
  · rintro ⟨⟨other, node⟩, hmem, rfl⟩
    exact ⟨_, hmem, by simp⟩

namespace IsTree

variable (htree : disk.IsTree)

include htree

theorem isDirectory_iff (hplace : place ≠ []) :
    disk.isDirectory place = true ↔ (place, Node.directory) ∈ disk.nodes := by
  rw [isDirectory, node?, if_neg (by simpa using hplace), beq_iff_eq]
  exact ⟨Entries.mem_of_get?, Entries.get?_of_nodup htree.once⟩

theorem mem_directoriesFrom (hplace : disk.isDirectory place = true) {other : Place} :
    other ∈ disk.directoriesFrom place ↔ place <+: other ∧ disk.isDirectory other = true := by
  unfold directoriesFrom
  rw [List.mem_cons, List.mem_filterMap]
  constructor
  · rintro (rfl | ⟨⟨found, node⟩, hmem, hfound⟩)
    · exact ⟨List.prefix_refl _, hplace⟩
    · simp only at hfound
      split at hfound
      · rename_i htest
        obtain rfl := Option.some.inj hfound
        simp only [Bool.and_eq_true, bne_iff_ne, beq_iff_eq, List.isPrefixOf_iff_prefix] at htest
        obtain ⟨⟨rfl, hbelow⟩, -⟩ := htest
        have hne := (htree.housed found (List.mem_map_of_mem hmem)).1
        exact ⟨hbelow, (htree.isDirectory_iff hne).mpr hmem⟩
      · cases hfound
  · rintro ⟨hbelow, hdirectory⟩
    by_cases hsame : other = place
    · exact .inl hsame
    · have hne : other ≠ [] := by
        rintro rfl
        exact hsame (List.prefix_nil.mp hbelow).symm
      refine .inr ⟨(other, .directory), (htree.isDirectory_iff hne).mp hdirectory, ?_⟩
      simp [hbelow, Ne.symm hsame]

/-- What is below a place is in a directory at the place or below it. -/
theorem housed_below {names : List String} (h : place ++ names ++ [name] ∈ disk.nodes.keys) :
    disk.isDirectory (place ++ names) = true := by
  have hhoused := (htree.housed _ h).2
  rwa [List.dropLast_concat] at hhoused

end IsTree

end Disk

/-! ## Patterns for one name -/

theorem splitSlashes_of_notMem {text : List Char} (h : '/' ∉ text) : splitSlashes text = [text] := by
  induction text with
  | nil => rfl
  | cons c text ih =>
      rw [List.mem_cons, not_or] at h
      rw [splitSlashes, if_neg (Ne.symm h.1), ih h.2]

theorem Path.ofText_name {name : String} (hslash : '/' ∉ name.toList) (hempty : name ≠ "")
    (hpoint : name ≠ ".") : Path.ofText name = ⟨"", [name]⟩ := by
  have hslashes : (name.toList.takeWhile (· = '/')).length = 0 := by
    cases hchars : name.toList with
    | nil => rfl
    | cons c rest =>
        rw [hchars, List.mem_cons, not_or] at hslash
        rw [List.takeWhile_cons_of_neg (by simpa using Ne.symm hslash.1)]
        rfl
  unfold Path.ofText
  simp only [hslashes, if_true, namesOf, splitSlashes_of_notMem hslash, List.map_cons, List.map_nil,
    String.ofList_toList]
  simp [hempty, hpoint]

namespace Glob

variable {disk : Disk} {base : Path} {place : Place}

theorem partsOf_name {name : String} (hslash : '/' ∉ name.toList) (hempty : name ≠ "")
    (hpoint : name ≠ ".") : partsOf name = (Part.ofName name).map ([·]) := by
  unfold partsOf
  simp only [Path.ofText_name hslash hempty hpoint]
  rw [if_neg (by decide), List.mapM_cons, List.mapM_nil]
  cases Part.ofName name <;> rfl

/-- A pattern for one name is a part: the name itself if no character is special. -/
theorem Part.ofName_plain {name : String} (h : IsPlain name.toList) :
    Part.ofName name = .ok (.exact name) := by
  have hanywhere : name ≠ "**" := by
    rintro rfl
    exact h '*' (by decide) (by decide)
  have hnone : (name.toList.any fun c => c == '*' || c == '?' || c == '[') = false := by
    rw [List.any_eq_false]
    intro c hmem hc
    refine h c hmem ?_
    simp only [Bool.or_eq_true, beq_iff_eq, or_assoc] at hc
    rcases hc with rfl | rfl | rfl <;> decide
  unfold Part.ofName
  rw [if_neg (by simpa using hanywhere), hasDoubleStar_plain h, hnone]
  rfl

theorem Part.ofName_special {name : String} (hspecial : ¬IsPlain name.toList)
    (hanywhere : name ≠ "**") (hstars : hasDoubleStar name.toList = false) :
    Part.ofName name = .ok (.wild (items name.toList)) := by
  have hsome : (name.toList.any fun c => c == '*' || c == '?' || c == '[') = true := by
    rw [List.any_eq_true]
    simp only [IsPlain, not_forall, not_not] at hspecial
    obtain ⟨c, hmem, hc⟩ := hspecial
    refine ⟨c, hmem, ?_⟩
    simp only [show "*?[".toList = ['*', '?', '['] from rfl, List.mem_cons, List.not_mem_nil,
      or_false] at hc
    rcases hc with rfl | rfl | rfl <;> rfl
  unfold Part.ofName
  rw [if_neg (by simpa using hanywhere), hstars, hsome]
  rfl

/-! ## One directory -/

/-- No path is too long that a search for a pattern looks at in a directory. Only a
pattern without special characters is looked up as a path. -/
structure InReach (base : Path) (pattern : String) (names : List String) : Prop where
  directory : isTooFar base names = false
  file : IsPlain pattern.toList → Disk.hasForeign pattern = false →
    pattern.utf8ByteSize ≤ maxNameBytes ∧ isTooFar base (names ++ [pattern]) = false

theorem mem_entriesOf {found next : Found} : next ∈ entriesOf disk found ↔
    ∃ name, found.place ++ [name] ∈ disk.nodes.keys ∧
      next = ⟨found.names ++ [name], found.place ++ [name]⟩ := by
  simp only [entriesOf, List.mem_map, Disk.mem_children, eq_comm]

/-- What one name finds in a directory. -/
def Finds (disk : Disk) (pattern : String) (found next : Found) : Prop :=
  ∃ name, found.place ++ [name] ∈ disk.nodes.keys ∧
    Matches (items pattern.toList) name.toList ∧
    next = ⟨found.names ++ [name], found.place ++ [name]⟩

section

variable {found : Found}

theorem select_wild (items : List Item) (hnear : isTooFar base found.names = false) :
    select disk base [.wild items] found = .ok ((entriesOf disk found).filter fun next =>
      matchesItems items ((next.names.getLast?.getD "").toList)) := by
  have hnext (founds : List Found) : founds.mapM (fun next => (.ok [next] : Except Failure _)) =
      .ok (founds.map ([·])) := List.mapM_pure
  simp only [select, hnear, List.isEmpty_nil, Bool.true_or, Bool.and_true, Bool.false_eq_true,
    if_false, hnext, Except.map, ← List.flatMap_def, List.flatMap_singleton']

theorem select_exact {name : String} (hname : name ≠ "" ∧ name ≠ "." ∧ name ≠ "..")
    (hdirectory : disk.isDirectory found.place = true) (hforeign : Disk.hasForeign name = false)
    (hlong : name.utf8ByteSize ≤ maxNameBytes)
    (hnear : isTooFar base (found.names ++ [name]) = false) :
    select disk base [.exact name] found =
      .ok (if (disk.node? (found.place ++ [name])).isSome then
        [⟨found.names ++ [name], found.place ++ [name]⟩] else []) := by
  obtain ⟨hempty, hpoint, hup⟩ := hname
  have hfollow : disk.follow found.place name =
      if (disk.node? (found.place ++ [name])).isSome then .ok (found.place ++ [name])
      else .error .missing := by
    simp [Disk.follow, hdirectory, hempty, hpoint, hup, Nat.not_lt.mpr hlong]
  simp only [select, step, hforeign, hnear, hfollow, List.isEmpty_nil, Bool.true_or, Bool.false_eq_true,
    if_false, if_true]
  by_cases hthere : (disk.node? (found.place ++ [name])).isSome = true
  · simp only [hthere, if_true]
  · simp only [hthere, Bool.false_eq_true, if_false]

theorem select_exact_foreign {name : String} (hforeign : Disk.hasForeign name = true) :
    select disk base [.exact name] found = .ok [] := by
  simp only [select, step, hforeign, if_true]

theorem select_exact_far {name : String} (hname : name ≠ "" ∧ name ≠ "." ∧ name ≠ "..")
    (hdirectory : disk.isDirectory found.place = true) (hforeign : Disk.hasForeign name = false)
    (hfar : ¬(name.utf8ByteSize ≤ maxNameBytes ∧ isTooFar base (found.names ++ [name]) = false)) :
    select disk base [.exact name] found = .error .fileSystem := by
  obtain ⟨hempty, hpoint, hup⟩ := hname
  by_cases hnext : isTooFar base (found.names ++ [name]) = true
  · simp only [select, step, hforeign, hnext, Bool.false_eq_true, if_false, if_true]
  · rw [Bool.not_eq_true] at hnext
    have hlong : maxNameBytes < name.utf8ByteSize :=
      Nat.lt_of_not_le fun hshort => hfar ⟨hshort, hnext⟩
    have hfollow : disk.follow found.place name = .error .nameTooLong := by
      simp [Disk.follow, hdirectory, hempty, hpoint, hup, hlong]
    simp only [select, step, hforeign, hnext, hfollow, Bool.false_eq_true, if_false]

end

/-- In any directory a part finds the names that match a pattern, or fails if a path
is too long. -/
def SearchesFor (disk : Disk) (base : Path) (pattern : String) (part : Part) : Prop :=
  ∀ found : Found, disk.isDirectory found.place = true → isTooFar base found.names = false →
    (InReach base pattern found.names → ∃ listed, select disk base [part] found = .ok listed ∧
      ∀ next, next ∈ listed ↔ Finds disk pattern found next) ∧
    (¬InReach base pattern found.names → select disk base [part] found = .error .fileSystem)

section

variable (htree : disk.IsTree) {pattern : String}
  (hname : pattern ≠ "" ∧ pattern ≠ "." ∧ pattern ≠ "..")

theorem searchesFor_wild (hspecial : ¬IsPlain pattern.toList) :
    SearchesFor disk base pattern (.wild (items pattern.toList)) := by
  intro found hdirectory hnear
  refine ⟨fun _ => ⟨_, select_wild _ hnear, fun next => ?_⟩, fun hfar => ?_⟩
  · rw [List.mem_filter, mem_entriesOf, matchesItems_iff]
    constructor
    · rintro ⟨⟨name, hmem, rfl⟩, hmatches⟩
      exact ⟨name, hmem, by simpa using hmatches, rfl⟩
    · rintro ⟨name, hmem, hmatches, rfl⟩
      exact ⟨⟨name, hmem, rfl⟩, by simpa using hmatches⟩
  · exact absurd ⟨hnear, fun hplain => absurd hplain hspecial⟩ hfar

include htree hname

theorem searchesFor_exact (hplain : IsPlain pattern.toList) :
    SearchesFor disk base pattern (.exact pattern) := by
  intro found hdirectory hnear
  simp only [Finds, matches_plain hplain, String.toList_inj]
  cases hforeign : Disk.hasForeign pattern with
  | true =>
      -- no name on a tree holds the character
      have hnone : ¬∃ name, found.place ++ [name] ∈ disk.nodes.keys ∧ name = pattern := by
        rintro ⟨name, hmem, rfl⟩
        have hfree := (htree.named _ hmem name (by simp)).2.2.2.2
        rw [hforeign] at hfree
        cases hfree
      refine ⟨fun _ => ⟨[], select_exact_foreign hforeign, fun next => ?_⟩, fun hfar => ?_⟩
      · exact iff_of_false List.not_mem_nil fun ⟨name, hmem, heq, _⟩ => hnone ⟨name, hmem, heq⟩
      · exact absurd ⟨hnear, fun _ hfree => absurd hfree (by rw [hforeign]; decide)⟩ hfar
  | false =>
      refine ⟨fun hreach => ?_, fun hfar => ?_⟩
      · obtain ⟨hlong, hnext⟩ := hreach.file hplain hforeign
        refine ⟨_, select_exact hname hdirectory hforeign hlong hnext, fun next => ?_⟩
        rw [List.mem_ite_nil_right, ← Disk.mem_keys_iff (by simp), List.mem_singleton]
        constructor
        · rintro ⟨hthere, rfl⟩
          exact ⟨pattern, hthere, rfl, rfl⟩
        · rintro ⟨name, hthere, rfl, rfl⟩
          exact ⟨hthere, rfl⟩
      · exact select_exact_far hname hdirectory hforeign fun hall => hfar ⟨hnear, fun _ _ => hall⟩

/-- A pattern for one name is a part that searches for it. -/
theorem exists_searchesFor (base : Path) (hanywhere : pattern ≠ "**")
    (hstars : hasDoubleStar pattern.toList = false) :
    ∃ part, Part.ofName pattern = .ok part ∧ SearchesFor disk base pattern part := by
  by_cases hplain : IsPlain pattern.toList
  · exact ⟨_, Part.ofName_plain hplain, searchesFor_exact htree hname hplain⟩
  · exact ⟨_, Part.ofName_special hplain hanywhere hstars, searchesFor_wild hplain⟩

end

/-! ## All directories -/

theorem mem_distinct {found : List Found} {next : Found}
    (hnames : ∀ a ∈ found, ∀ b ∈ found, a.names = b.names → a = b) :
    next ∈ distinct found ↔ next ∈ found := by
  induction found with
  | nil => exact Iff.rfl
  | cons first rest ih =>
      rw [distinct, List.mem_cons, List.mem_filter, List.mem_cons, bne_iff_ne,
        ih fun a ha b hb => hnames a (List.mem_cons_of_mem _ ha) b (List.mem_cons_of_mem _ hb)]
      constructor
      · rintro (hfirst | ⟨hrest, -⟩)
        · exact .inl hfirst
        · exact .inr hrest
      · rintro (hfirst | hrest)
        · exact .inl hfirst
        · by_cases hsame : next.names = first.names
          · exact .inl (hnames next (List.mem_cons_of_mem _ hrest) first List.mem_cons_self hsame)
          · exact .inr ⟨hrest, hsame⟩

theorem nodup_distinct (found : List Found) : ((distinct found).map Found.names).Nodup := by
  induction found with
  | nil => exact List.nodup_nil
  | cons first rest ih =>
      rw [distinct, List.map_cons, List.nodup_cons]
      refine ⟨fun hmem => ?_, ih.sublist (List.filter_sublist.map _)⟩
      obtain ⟨other, hother, hnames⟩ := List.mem_map.mp hmem
      exact bne_iff_ne.mp (List.mem_filter.mp hother).2 hnames

theorem pathFrom_injective (base : Path) : Function.Injective (pathFrom base) := by
  intro names others h
  exact List.append_cancel_left (Path.mk.inj h).2

theorem pathFrom_name (names : List String) (name : String) :
    (pathFrom base (names ++ [name])).name = name := by
  rw [Path.name, pathFrom, ← List.append_assoc, List.getLast?_concat, Option.getD_some]

/-- The directories that a search at a place goes to. -/
def startsFrom (disk : Disk) (place : Place) : List Found :=
  (disk.directoriesFrom place).map fun other => ⟨other.drop place.length, other⟩

theorem mem_startsFrom (htree : disk.IsTree) (hplace : disk.isDirectory place = true)
    {start : Found} : start ∈ startsFrom disk place ↔
      ∃ names, disk.isDirectory (place ++ names) = true ∧ start = ⟨names, place ++ names⟩ := by
  rw [startsFrom, List.mem_map]
  constructor
  · rintro ⟨other, hmem, rfl⟩
    obtain ⟨⟨names, rfl⟩, hdirectory⟩ := (htree.mem_directoriesFrom hplace).mp hmem
    exact ⟨names, hdirectory, by rw [List.drop_left]⟩
  · rintro ⟨names, hdirectory, rfl⟩
    have hmem := (htree.mem_directoriesFrom hplace).mpr ⟨List.prefix_append place names, hdirectory⟩
    exact ⟨_, hmem, by rw [List.drop_left]⟩

/-- What is found from any start is what is so named below the place. -/
theorem exists_finds (htree : disk.IsTree) (hplace : disk.isDirectory place = true)
    {pattern : String} {next : Found} :
    (∃ start ∈ startsFrom disk place, Finds disk pattern start next) ↔
      ∃ names name, place ++ names ++ [name] ∈ disk.nodes.keys ∧
        Matches (items pattern.toList) name.toList ∧
        next = ⟨names ++ [name], place ++ names ++ [name]⟩ := by
  constructor
  · rintro ⟨start, hstart, name, hthere, hmatches, rfl⟩
    obtain ⟨names, -, rfl⟩ := (mem_startsFrom htree hplace).mp hstart
    exact ⟨names, name, hthere, hmatches, rfl⟩
  · rintro ⟨names, name, hthere, hmatches, rfl⟩
    have hstart := (mem_startsFrom htree hplace).mpr ⟨names, htree.housed_below hthere, rfl⟩
    exact ⟨_, hstart, name, hthere, hmatches, rfl⟩

theorem select_anywhere (part : Part) : select disk base [.anywhere, part] ⟨[], place⟩ =
    if (startsFrom disk place).any fun start => isTooFar base start.names then .error .fileSystem
    else ((startsFrom disk place).mapM (select disk base [part])).map fun found =>
      distinct found.flatten := by
  rfl

end Glob

/-- A list has all paths of some kind, each once and in order. -/
structure Lists (found : List Path) (P : Path → Prop) : Prop where
  ordered : found.Pairwise fun a b => a.before b = true
  once : found.Nodup
  exact : ∀ path, path ∈ found ↔ P path

theorem Lists.sortBy {found : List Path} {P : Path → Prop} (honce : found.Nodup)
    (hexact : ∀ path, path ∈ found ↔ P path) : Lists (sortBy Path.before found) P where
  ordered := sortBy_pairwise Path.before_total Path.before_trans found
  once := (sortBy_perm found).nodup_iff.mpr honce
  exact path := (sortBy_perm found).mem_iff.trans (hexact path)

/-- A filter of a list for a kind leaves what is of that kind and passes. -/
theorem Lists.filter {found : List Path} {P : Path → Prop} (h : Lists found P)
    (keep : Path → Bool) : Lists (found.filter keep) fun path => P path ∧ keep path = true where
  ordered := h.ordered.sublist List.filter_sublist
  once := h.once.sublist List.filter_sublist
  exact path := by rw [List.mem_filter, h.exact]

theorem Lists.congr {found : List Path} {P Q : Path → Prop} (h : Lists found P)
    (hPQ : ∀ path, P path ↔ Q path) : Lists found Q where
  ordered := h.ordered
  once := h.once
  exact path := (h.exact path).trans (hPQ path)

namespace Disk

open Glob

variable {disk : Disk} {base : Path} {place : Place} (htree : disk.IsTree)
  (hplace : disk.isDirectory place = true) {pattern : String} (hslash : '/' ∉ pattern.toList)
  (hname : pattern ≠ "" ∧ pattern ≠ "." ∧ pattern ≠ "..") (hanywhere : pattern ≠ "**")
  (hstars : hasDoubleStar pattern.toList = false)

include hslash hname in
theorem glob_doubleStar (hanywhere : pattern ≠ "**")
    (hstars : hasDoubleStar pattern.toList = true) :
    disk.glob base place pattern = .error .badPattern := by
  have hpart : Part.ofName pattern = .error .badPattern := by
    unfold Part.ofName
    rw [if_neg (by simpa using hanywhere), hstars]
    rfl
  unfold glob
  rw [partsOf_name hslash hname.1 hname.2.1, hpart]
  rfl

include hslash hname in
theorem glob_eq {part : Part} (hpart : Part.ofName pattern = .ok part) :
    disk.glob base place pattern =
      (select disk base [.anywhere, part] ⟨[], place⟩).map fun found =>
        sortBy Path.before (found.map fun found => pathFrom base found.names) := by
  unfold glob
  rw [partsOf_name hslash hname.1 hname.2.1, hpart]
  rfl

include htree hplace hslash hname hanywhere hstars

/-- A search for a pattern finds what is so named at any depth. -/
theorem glob_name
    (hreach : ∀ names, disk.isDirectory (place ++ names) = true → InReach base pattern names) :
    ∃ found, disk.glob base place pattern = .ok found ∧ Lists found fun path =>
      ∃ names name, place ++ names ++ [name] ∈ disk.nodes.keys ∧
        Matches (items pattern.toList) name.toList ∧ path = pathFrom base (names ++ [name]) := by
  obtain ⟨part, hpart, hsearches⟩ := exists_searchesFor htree hname base hanywhere hstars
  have hnear : ((startsFrom disk place).any fun start => isTooFar base start.names) = false := by
    rw [List.any_eq_false]
    intro start hstart
    obtain ⟨names, hdirectory, rfl⟩ := (mem_startsFrom htree hplace).mp hstart
    simp [(hreach names hdirectory).directory]
  have hall : ∀ start ∈ startsFrom disk place, ∃ listed,
      select disk base [part] start = .ok listed ∧
        ∀ next, next ∈ listed ↔ Finds disk pattern start next := by
    intro start hstart
    obtain ⟨names, hdirectory, rfl⟩ := (mem_startsFrom htree hplace).mp hstart
    have hin := hreach names hdirectory
    exact (hsearches _ hdirectory hin.directory).1 hin
  obtain ⟨lists, hlists, hmem⟩ := mapM_lists hall
  have hfound (next : Found) := (hmem next).trans (exists_finds htree hplace)
  have hdistinct (next : Found) : next ∈ distinct lists.flatten ↔ next ∈ lists.flatten := by
    refine mem_distinct fun a ha b hb hsame => ?_
    obtain ⟨names, name, -, -, rfl⟩ := (hfound a).mp ha
    obtain ⟨others, other, -, -, rfl⟩ := (hfound b).mp hb
    simp only [List.append_assoc, Found.mk.injEq] at hsame ⊢
    exact ⟨hsame, congrArg (place ++ ·) hsame⟩
  have hselect : select disk base [.anywhere, part] ⟨[], place⟩ = .ok (distinct lists.flatten) := by
    rw [select_anywhere, hnear, if_neg Bool.false_ne_true, hlists]
    rfl
  rw [glob_eq hslash hname hpart, hselect]
  refine ⟨_, rfl, Lists.sortBy ?_ fun path => ?_⟩
  · have honce := (nodup_distinct lists.flatten).map (pathFrom_injective base)
    rwa [List.map_map] at honce
  · simp only [List.mem_map, hdistinct, hfound]
    constructor
    · rintro ⟨next, ⟨names, name, hthere, hmatches, rfl⟩, rfl⟩
      exact ⟨names, name, hthere, hmatches, rfl⟩
    · rintro ⟨names, name, hthere, hmatches, rfl⟩
      exact ⟨_, ⟨names, name, hthere, hmatches, rfl⟩, rfl⟩

/-- A search that looks at a path that is too long fails. -/
theorem glob_far
    (hfar : ¬∀ names, disk.isDirectory (place ++ names) = true → InReach base pattern names) :
    disk.glob base place pattern = .error .fileSystem := by
  obtain ⟨part, hpart, hsearches⟩ := exists_searchesFor htree hname base hanywhere hstars
  rw [glob_eq hslash hname hpart, select_anywhere]
  cases hany : (startsFrom disk place).any fun start => isTooFar base start.names with
  | true => rfl
  | false =>
      have hdirectory : ∀ start ∈ startsFrom disk place,
          disk.isDirectory start.place = true ∧ isTooFar base start.names = false := by
        intro start hstart
        refine ⟨?_, by simpa using List.any_eq_false.mp hany start hstart⟩
        obtain ⟨names, hnames, rfl⟩ := (mem_startsFrom htree hplace).mp hstart
        exact hnames
      have hmapM : (startsFrom disk place).mapM (select disk base [part]) = .error .fileSystem := by
        refine mapM_eq_error (fun start hstart other hother => ?_) ?_
        · obtain ⟨hhere, hnear⟩ := hdirectory start hstart
          obtain ⟨hfinds, hfails⟩ := hsearches start hhere hnear
          by_cases hin : InReach base pattern start.names
          · obtain ⟨listed, hlisted, -⟩ := hfinds hin
            rw [hlisted] at hother
            cases hother
          · rw [hfails hin] at hother
            cases hother
            rfl
        · simp only [not_forall] at hfar
          obtain ⟨names, hnames, hout⟩ := hfar
          have hstart := (mem_startsFrom htree hplace).mpr ⟨names, hnames, rfl⟩
          obtain ⟨hhere, hnear⟩ := hdirectory _ hstart
          exact ⟨_, hstart, (hsearches _ hhere hnear).2 hout⟩
      rw [hmapM]
      rfl

end Disk

end Files

end SolDeployer
