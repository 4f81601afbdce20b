import Mathlib.Data.List.TakeWhile
import SolDeployer.Platform.Lookup
import SolDeployer.Proofs.Files.Search
import SolDeployer.Proofs.Text

/-!
# Candidates for an artifact

Candidates are found by the names of files. In a project of the one kind a file is
looked for two levels down, and its name is compared as a text. In one of the other
kind it is looked for at any depth, and the name of the contract is read as a
pattern: it stands for itself only as long as no character in it is special.
-/

namespace SolDeployer.Platform

open Files Files.Glob

/-! ## Names of artifacts -/

/-- One number at least, of decimal digits. -/
def IsNumber (text : List Char) : Prop := text ≠ [] ∧ ∀ c ∈ text, Text.isDigit c = true

/-- The text of a version: three numbers, each after a point. -/
def IsVersion (text : List Char) : Prop :=
  ∃ major minor patch, IsNumber major ∧ IsNumber minor ∧ IsNumber patch ∧
    text = '.' :: major ++ ('.' :: minor ++ ('.' :: patch))

theorem afterNumber?_eq_some {text rest : List Char} : afterNumber? text = some rest ↔
    rest.takeWhile Text.isDigit = [] ∧ ∃ number, IsNumber number ∧ text = '.' :: number ++ rest := by
  constructor
  · intro h
    unfold afterNumber? at h
    split at h
    · rename_i after
      split at h
      · cases h
      · rename_i hsome
        obtain rfl := Option.some.inj h
        refine ⟨?_, after.takeWhile Text.isDigit, ⟨by simpa using hsome, fun c hc => ?_⟩, ?_⟩
        · exact List.takeWhile_eq_nil_iff.mpr (List.dropWhile_get_zero_not _ _)
        · exact List.mem_takeWhile_imp hc
        · rw [List.cons_append, List.takeWhile_append_dropWhile]
    · cases h
  · rintro ⟨hrest, number, ⟨hsome, hdigits⟩, rfl⟩
    obtain ⟨htake, hdrop⟩ := Text.span_digits hdigits hrest
    simp only [List.cons_append, afterNumber?, htake, hdrop, List.isEmpty_eq_false_iff.mpr hsome,
      Bool.false_eq_true, if_false]

theorem takeWhile_point (text : List Char) : ('.' :: text).takeWhile Text.isDigit = [] := by
  have hpoint : Text.isDigit '.' = false := by decide +kernel
  rw [List.takeWhile_cons, hpoint, if_neg Bool.false_ne_true]

theorem afterVersion?_eq_some {text rest : List Char} : afterVersion? text = some rest ↔
    rest.takeWhile Text.isDigit = [] ∧ ∃ version, IsVersion version ∧ text = version ++ rest := by
  simp only [afterVersion?, Option.bind_eq_some_iff, afterNumber?_eq_some]
  constructor
  · rintro ⟨_, ⟨_, ⟨-, major, hmajor, rfl⟩, -, minor, hminor, rfl⟩, hrest, patch, hpatch, rfl⟩
    exact ⟨hrest, _, ⟨major, minor, patch, hmajor, hminor, hpatch, rfl⟩, by simp⟩
  · rintro ⟨hrest, _, ⟨major, minor, patch, hmajor, hminor, hpatch, rfl⟩, rfl⟩
    refine ⟨_, ⟨_, ⟨takeWhile_point _, major, hmajor, ?_⟩, takeWhile_point _, minor, hminor, rfl⟩,
      hrest, patch, hpatch, rfl⟩
    simp

theorem isEnding_iff {text : List Char} :
    isEnding text = true ↔ text = ".json".toList ∨ text = ".json\n".toList := by
  rw [isEnding, Bool.or_eq_true, beq_iff_eq, beq_iff_eq]

theorem takeWhile_ending {text : List Char} (h : isEnding text = true) :
    text.takeWhile Text.isDigit = [] := by
  rcases isEnding_iff.mp h with rfl | rfl <;> exact takeWhile_point _

/-- A file is named after a contract. A version may follow, and the end of a line the
ending. -/
def NamedAfter (contract file : String) : Prop :=
  ∃ version ending, (version = [] ∨ IsVersion version) ∧
    (ending = ".json".toList ∨ ending = ".json\n".toList) ∧
    file.toList = contract.toList ++ (version ++ ending)

/-- A file has the name of a contract's artifact, with a version or without. -/
def IsArtifactName (contract file : String) : Prop :=
  ∃ version, (version = [] ∨ IsVersion version) ∧
    file.toList = contract.toList ++ (version ++ ".json".toList)

theorem namedAfter_iff {contract file : String} (hline : '\n' ∉ file.toList) :
    NamedAfter contract file ↔ IsArtifactName contract file := by
  constructor
  · rintro ⟨version, ending, hversion, rfl | rfl, hfile⟩
    · exact ⟨version, hversion, hfile⟩
    · refine absurd ?_ hline
      rw [hfile, List.mem_append, List.mem_append]
      exact .inr (.inr (by decide))
  · rintro ⟨version, hversion, hfile⟩
    exact ⟨version, _, hversion, .inl rfl, hfile⟩

theorem isNamedAfter_iff {contract file : String} :
    isNamedAfter contract.toList file.toList = true ↔ NamedAfter contract file := by
  rw [isNamedAfter, Bool.and_eq_true, List.isPrefixOf_iff_prefix]
  constructor
  · rintro ⟨⟨rest, hfile⟩, h⟩
    rw [← hfile, List.drop_left, Bool.or_eq_true] at h
    rcases h with h | h
    · exact ⟨[], rest, .inl rfl, isEnding_iff.mp h, hfile.symm⟩
    · cases hafter : afterVersion? rest with
      | none => simp [hafter] at h
      | some ending =>
          obtain ⟨-, version, hversion, rfl⟩ := afterVersion?_eq_some.mp hafter
          have hending : isEnding ending = true := by simpa [hafter] using h
          exact ⟨version, ending, .inr hversion, isEnding_iff.mp hending, hfile.symm⟩
  · rintro ⟨version, ending, hversion, hending, hfile⟩
    rw [hfile, List.drop_left, Bool.or_eq_true]
    refine ⟨List.prefix_append .., ?_⟩
    have hending := isEnding_iff.mpr hending
    rcases hversion with rfl | hversion
    · exact .inl hending
    · have hafter := afterVersion?_eq_some.mpr ⟨takeWhile_ending hending, version, hversion, rfl⟩
      exact .inr (by simpa [hafter] using hending)

/-! ## Where candidates are -/

/-- A path two levels below a place, by the name of the file. -/
def IsTwoBelow (disk : Disk) (base : Path) (place : Place) (P : String → Prop) (path : Path) :
    Prop :=
  ∃ directory file, place ++ [directory, file] ∈ disk.nodes.keys ∧ P file ∧
    path = (base.child directory).child file

/-- A path at any depth below a place, by the directories on the way and the name of
the file. -/
def IsBelow (disk : Disk) (base : Path) (place : Place) (P : List String → String → Prop)
    (path : Path) : Prop :=
  ∃ names file, place ++ names ++ [file] ∈ disk.nodes.keys ∧ P names file ∧
    path = pathFrom base (names ++ [file])

section

variable {disk : Disk} {base : Path} {place : Place} {contract : String}

/-- The path to a place two levels down whose name is that of an artifact. -/
def artifactAt? (base : Path) (place : Place) (contract : String) (other : Place) : Option Path :=
  match other.drop place.length with
  | [directory, file] =>
    if place.isPrefixOf other && isNamedAfter contract.toList file.toList then
      some ((base.child directory).child file)
    else none
  | _ => none

theorem namedFiles_eq : namedFiles disk base place contract =
    sortBy Path.before (disk.nodes.keys.filterMap (artifactAt? base place contract)) := by
  rw [Entries.keys, List.filterMap_map]
  rfl

theorem artifactAt?_eq_some {other : Place} {path : Path} :
    artifactAt? base place contract other = some path ↔ ∃ directory file,
      other = place ++ [directory, file] ∧ NamedAfter contract file ∧
        path = (base.child directory).child file := by
  unfold artifactAt?
  constructor
  · intro h
    split at h
    · rename_i directory file hdrop
      split at h
      · rename_i htest
        rw [Bool.and_eq_true, List.isPrefixOf_iff_prefix] at htest
        obtain ⟨⟨rest, rfl⟩, hnamed⟩ := htest
        rw [List.drop_left] at hdrop
        rw [hdrop]
        exact ⟨directory, file, rfl, isNamedAfter_iff.mp hnamed, (Option.some.inj h).symm⟩
      · cases h
    · cases h
  · rintro ⟨directory, file, rfl, hnamed, rfl⟩
    rw [List.drop_left]
    simp [isNamedAfter_iff.mpr hnamed]

theorem lists_namedFiles (honce : disk.nodes.keys.Nodup) :
    Lists (namedFiles disk base place contract)
      (IsTwoBelow disk base place (NamedAfter contract)) := by
  rw [namedFiles_eq]
  refine Lists.sortBy (honce.filterMap fun one other path hone hother => ?_) fun path => ?_
  · -- the last two names of a path are those of its place
    obtain ⟨directory, file, rfl, -, rfl⟩ := artifactAt?_eq_some.mp hone
    obtain ⟨directory', file', rfl, -, hpath⟩ := artifactAt?_eq_some.mp hother
    simpa [Path.child] using hpath
  · simp only [List.mem_filterMap, artifactAt?_eq_some, IsTwoBelow]
    constructor
    · rintro ⟨_, hmem, directory, file, rfl, hnamed, rfl⟩
      exact ⟨directory, file, hmem, hnamed, rfl⟩
    · rintro ⟨directory, file, hmem, hnamed, rfl⟩
      exact ⟨_, hmem, directory, file, rfl, hnamed, rfl⟩

end

/-! ## Patterns from names -/

section

variable {contract : String}

theorem length_pattern (contract : String) : (contract ++ ".json").length = contract.length + 5 := by
  rw [String.length_append]
  rfl

theorem pattern_ne {other : String} (h : other.length < 5) : contract ++ ".json" ≠ other := by
  rintro rfl
  rw [length_pattern] at h
  omega

theorem isFileName_pattern (contract : String) : contract ++ ".json" ≠ "" ∧
    contract ++ ".json" ≠ "." ∧ contract ++ ".json" ≠ ".." :=
  ⟨pattern_ne (by decide), pattern_ne (by decide), pattern_ne (by decide)⟩

theorem slash_notMem_pattern (h : '/' ∉ contract.toList) : '/' ∉ (contract ++ ".json").toList := by
  rw [String.toList_append, List.mem_append, not_or]
  exact ⟨h, by decide⟩

theorem pattern_ne_buildInfo : contract ++ ".json" ≠ "build-info" := by
  intro h
  have hlast := congrArg (fun text : String => text.toList.getLast?) h
  simp [String.toList_append, show ".json".toList = ['.', 'j', 's', 'o', 'n'] from rfl,
    show "build-info".toList = ['b', 'u', 'i', 'l', 'd', '-', 'i', 'n', 'f', 'o'] from rfl] at hlast

theorem isPlain_pattern (h : IsPlain contract.toList) : IsPlain (contract ++ ".json").toList := by
  intro c hc
  rw [String.toList_append, List.mem_append] at hc
  rcases hc with hc | hc
  · exact h c hc
  · have hending : IsPlain ".json".toList := by decide
    exact hending c hc

end

/-! ## Candidates of a project -/

/-- No path is too long that the search for a contract looks at. -/
def Reaches (platform : Platform) (disk : Disk) (place : Place) (contract : String) : Prop :=
  match platform.kind with
  | .foundry => ∀ name ∈ disk.children place,
      Disk.isTooLong (platform.artifacts.child name).text = false
  | .hardhat => ∀ names, disk.isDirectory (place ++ names) = true →
      InReach platform.artifacts (contract ++ ".json") names

section

variable {platform : Platform} {disk : Disk} {place : Place} {contract : String}
  (hlocated : disk.locate platform.artifacts.text = .ok place)
  (hdirectory : disk.isDirectory place = true)

include hlocated hdirectory

theorem hasDirectory_artifacts : disk.hasDirectory platform.artifacts = .ok true := by
  have hinspect : disk.inspect platform.artifacts = .ok (disk.node? place) := by
    rw [Disk.inspect, hlocated]
  rw [Disk.hasDirectory, hinspect]
  exact congrArg Except.ok hdirectory

theorem candidates_foundry (hkind : platform.kind = .foundry) :
    platform.candidates disk contract =
      if (disk.children place).any fun name =>
        Disk.isTooLong (platform.artifacts.child name).text then .error .fileSystem
      else .ok (namedFiles disk platform.artifacts place contract) := by
  simp only [candidates, hasDirectory_artifacts hlocated hdirectory, hlocated, hkind]
  rfl

theorem candidates_hardhat (hkind : platform.kind = .hardhat) :
    platform.candidates disk contract =
      (disk.glob platform.artifacts place (contract ++ ".json")).map fun found =>
        found.filter fun path =>
          !(path.parts.drop platform.artifacts.parts.length).contains "build-info" := by
  simp only [candidates, hasDirectory_artifacts hlocated hdirectory, hlocated, hkind]
  rfl

theorem exists_candidates_foundry (honce : disk.nodes.keys.Nodup) (hkind : platform.kind = .foundry)
    (hreaches : platform.Reaches disk place contract) :
    ∃ found, platform.candidates disk contract = .ok found ∧
      Lists found (IsTwoBelow disk platform.artifacts place (NamedAfter contract)) := by
  simp only [Reaches, hkind] at hreaches
  have hnone : ((disk.children place).any fun name =>
      Disk.isTooLong (platform.artifacts.child name).text) = false :=
    List.any_eq_false.mpr (by simpa using hreaches)
  rw [candidates_foundry hlocated hdirectory hkind, hnone, if_neg Bool.false_ne_true]
  exact ⟨_, rfl, lists_namedFiles honce⟩

theorem exists_candidates_hardhat (htree : disk.IsTree) (hkind : platform.kind = .hardhat)
    (hslash : '/' ∉ contract.toList) (hstars : hasDoubleStar (contract ++ ".json").toList = false)
    (hreaches : platform.Reaches disk place contract) :
    ∃ found, platform.candidates disk contract = .ok found ∧
      Lists found (IsBelow disk platform.artifacts place fun names file =>
        "build-info" ∉ names ++ [file] ∧
          Matches (items (contract ++ ".json").toList) file.toList) := by
  simp only [Reaches, hkind] at hreaches
  obtain ⟨found, hfound, hlists⟩ := Disk.glob_name htree hdirectory (slash_notMem_pattern hslash)
    (isFileName_pattern contract) (pattern_ne (by decide)) hstars hreaches
  rw [candidates_hardhat hlocated hdirectory hkind, hfound]
  refine ⟨_, rfl, (hlists.filter _).congr fun path => ?_⟩
  constructor
  · rintro ⟨⟨names, file, hmem, hmatches, rfl⟩, hkeep⟩
    refine ⟨names, file, hmem, ⟨?_, hmatches⟩, rfl⟩
    simpa [pathFrom] using hkeep
  · rintro ⟨names, file, hmem, ⟨hbuild, hmatches⟩, rfl⟩
    refine ⟨⟨names, file, hmem, hmatches, rfl⟩, ?_⟩
    simpa [pathFrom] using hbuild

theorem candidates_far (htree : disk.IsTree) (hpattern : platform.kind = .hardhat →
      '/' ∉ contract.toList ∧ hasDoubleStar (contract ++ ".json").toList = false)
    (hfar : ¬platform.Reaches disk place contract) :
    platform.candidates disk contract = .error .fileSystem := by
  cases hkind : platform.kind with
  | foundry =>
      simp only [Reaches, hkind] at hfar
      rw [candidates_foundry hlocated hdirectory hkind, if_pos]
      rw [List.any_eq_true]
      simpa using hfar
  | hardhat =>
      obtain ⟨hslash, hstars⟩ := hpattern hkind
      simp only [Reaches, hkind] at hfar
      rw [candidates_hardhat hlocated hdirectory hkind, Disk.glob_far htree hdirectory
        (slash_notMem_pattern hslash) (isFileName_pattern contract) (pattern_ne (by decide)) hstars
        hfar]
      rfl

theorem candidates_doubleStar (hkind : platform.kind = .hardhat) (hslash : '/' ∉ contract.toList)
    (hstars : hasDoubleStar (contract ++ ".json").toList = true) :
    platform.candidates disk contract = .error .badPattern := by
  rw [candidates_hardhat hlocated hdirectory hkind, Disk.glob_doubleStar
    (slash_notMem_pattern hslash) (isFileName_pattern contract) (pattern_ne (by decide)) hstars]
  rfl

end

/-- Of a contract whose name holds nothing special, a file that matches is the one
with the name. -/
theorem matches_pattern_iff {contract file : String} (hplain : IsPlain contract.toList)
    {names : List String} :
    ("build-info" ∉ names ++ [file] ∧ Matches (items (contract ++ ".json").toList) file.toList) ↔
      "build-info" ∉ names ∧ file = contract ++ ".json" := by
  rw [matches_plain (isPlain_pattern hplain), String.toList_inj, List.mem_append,
    List.mem_singleton, not_or]
  constructor
  · rintro ⟨⟨hnames, -⟩, hfile⟩
    exact ⟨hnames, hfile⟩
  · rintro ⟨hnames, rfl⟩
    exact ⟨⟨hnames, pattern_ne_buildInfo.symm⟩, rfl⟩

/-- A project with its artifacts in a directory of the root. -/
def releasing (kind : Kind) : Platform where
  kind := kind
  target := "/"
  root := ⟨"/", []⟩
  artifacts := ⟨"/", ["out"]⟩
  npxDisabled := false
  host := .usual

/-- Artifacts of two versions, and build information. -/
def releases : Disk where
  nodes := [
    (["out"], .directory),
    (["out", "Token.sol"], .directory),
    (["out", "Token.sol", "Token.0.8.20.json"], .file []),
    (["out", "Token.sol", "Token.json"], .file []),
    (["out", "build-info"], .directory),
    (["out", "build-info", "Token.json"], .file [])]
  current := []

theorem releases_isTree : releases.IsTree := ⟨by decide, by decide, by decide⟩

theorem releasing_reaches (kind : Kind) :
    (releasing kind).Reaches releases ["out"] "Token" := by
  cases kind with
  | foundry =>
      show ∀ name ∈ releases.children ["out"], _
      decide +kernel
  | hardhat =>
      intro names hnames
      have hmem : names = [] ∨ names = ["Token.sol"] ∨ names = ["build-info"] := by
        simpa [releases] using (releases_isTree.isDirectory_iff (by simp)).mp hnames
      rcases hmem with rfl | rfl | rfl <;>
        exact ⟨by decide +kernel, fun _ _ => ⟨by decide, by decide +kernel⟩⟩

/-- An artifact in a file whose name holds the end of a line. -/
def lineEnds : Disk where
  nodes := [
    (["out"], .directory),
    (["out", "Token.sol"], .directory),
    (["out", "Token.sol", "Token.json\n"], .file [])]
  current := []

end SolDeployer.Platform
