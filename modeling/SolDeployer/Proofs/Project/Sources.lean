import SolDeployer.Proofs.Platform.Narrowing
import SolDeployer.Proofs.Project.Batch

/-!
# Where libraries come from

A library is asked for by its name and the file that declares it, and what
is found depends on the name of this file alone (`isFrom_iff`): it lies in
a directory of this name whenever some candidate does. Otherwise anything
of the name of the library may be found, if it is the only candidate or the
only one of the version. That an artifact records another file than the one
that was asked for is never noticed.
-/

namespace SolDeployer.Project

open Files (Disk Path)
open Platform (Holds IsFrom Single baseName find_ok isFrom_iff ofSource_of_none)

variable {platform : Platform} {options : Json.Fields} {disk : Disk} {artifact : Artifact}

/-- A new project takes an artifact from the file that the lookup finds. -/
theorem artifact_start {key : ArtifactKey}
    (h : (start platform options).artifact disk key = .ok artifact) :
    ∃ path, platform.find disk key.contract key.source? (options.getD "solc") = .ok path ∧
      Holds platform.host disk key.contract path artifact := by
  obtain ⟨text, hlookup, hread⟩ := bind_eq_ok.mp h
  obtain ⟨path, hpath, htext⟩ := bind_eq_ok.mp hlookup
  exact ⟨path, hpath, text, htext, hread⟩

/-- **Sources of libraries.** When an artifact is loaded for a library, after
whatever was asked for before, it is held by one of the candidates. This lies in
a directory named like the file that declares the library if and only if some
candidate does; if none does, it is the only one or the only one of the version.
So an artifact that records the file its directory is named after records one of
the right name exactly if some candidate is from there, and it records the very
file if all candidates from there do. Libraries of one name from files of
different names, both with a candidate, are never in one file. -/
theorem library_source (platform : Platform) (options : Json.Fields) (disk : Disk)
    (requests : List Request) (id : LibraryId) {artifact : Artifact}
    (hload : (((start platform options).after disk requests).load disk (libraryKey id)).1 =
      .ok artifact) :
    ∃ found path, platform.candidates disk id.name = .ok found ∧
      platform.find disk id.name (some id.file) (options.getD "solc") = .ok path ∧
      Holds platform.host disk id.name path artifact ∧ path ∈ found ∧
      (IsFrom id.file path ↔ ∃ other ∈ found, IsFrom id.file other) ∧
      ((∀ other ∈ found, ¬IsFrom id.file other) →
        Single platform.host.levels disk (options.getD "solc") found path) ∧
      (∀ source, artifact.source = .str source → IsFrom source path →
        (baseName source = baseName id.file ↔ ∃ other ∈ found, IsFrom id.file other)) ∧
      ((∃ other ∈ found, IsFrom id.file other) →
        (∀ other ∈ found, IsFrom id.file other →
          ∀ held, Holds platform.host disk id.name other held → held.source = .str id.file) →
        artifact.source = .str id.file) ∧
      ∀ file, baseName file ≠ baseName id.file → (∃ other ∈ found, IsFrom file other) →
        (∃ other ∈ found, IsFrom id.file other) →
        platform.find disk id.name (some file) (options.getD "solc") ≠ .ok path := by
  rw [load_fst, ((follows_start platform options disk).after requests).agrees.artifact] at hload
  obtain ⟨path, hfind, hholds⟩ := artifact_start hload
  obtain ⟨found, hfound, hsingle⟩ := find_ok.mp hfind
  obtain ⟨hmem, hfrom⟩ := isFrom_iff hsingle.mem
  refine ⟨found, path, hfound, hfind, hholds, hmem, hfrom, ?_, ?_, ?_, ?_⟩
  · intro hnone
    have hall : Platform.ofSource (libraryKey id).source? found = found := ofSource_of_none hnone
    rwa [hall] at hsingle
  · intro source _ hsource
    rw [← hfrom]
    show _ ↔ path.parent.name = baseName id.file
    rw [show path.parent.name = baseName source from hsource]
  · intro hsome hrecord
    exact hrecord path hmem (hfrom.mpr hsome) artifact hholds
  · intro file hfile hother hsome hsame
    obtain ⟨again, hagain, hsingleAgain⟩ := find_ok.mp hsame
    obtain rfl := Except.ok.inj (hfound.symm.trans hagain)
    have hpath : path.parent.name = baseName file := (isFrom_iff hsingleAgain.mem).2.mpr hother
    exact hfile (hpath.symm.trans (hfrom.mpr hsome))

theorem eq_str_of_is {value : Json} {text : String} (h : value.is text = true) :
    value = .str text := by
  cases value with
  | str other => rw [beq_iff_eq.mp h]
  | _ => cases h

/-- The artifact of a library, with the file that it was compiled from. -/
def compiledFrom (file : String) : Files.Node :=
  .file (Text.Utf8.encode ("\x7b\"bytecode\": \x7b\"object\": \"6001\"\x7d, \"metadata\": " ++
    "\x7b\"settings\": \x7b\"compilationTarget\": \x7b\"" ++ file ++
    "\": \"Math\"\x7d\x7d\x7d\x7d").toList)

/-- Two libraries of one name, from files of different names. -/
def namesakes : Disk where
  nodes := [
    (["out"], .directory),
    (["out", "A.sol"], .directory),
    (["out", "A.sol", "Math.json"], compiledFrom "src/A.sol"),
    (["out", "B.sol"], .directory),
    (["out", "B.sol", "Math.json"], compiledFrom "src/B.sol")]
  current := []

theorem library_source_namesakes :
    ∃ artifact path, (((start atRoot []).after namesakes [.load ⟨"Math", some "src/B.sol"⟩]).load
        namesakes (libraryKey ⟨"src/A.sol", "Math"⟩)).1 = .ok artifact ∧
      IsFrom "src/A.sol" path ∧ Holds .usual namesakes "Math" path artifact ∧
      artifact.source = .str "src/A.sol" ∧
      atRoot.find namesakes "Math" (some "src/B.sol") .null ≠ .ok path := by
  have hcandidates : atRoot.candidates namesakes "Math" =
      .ok [⟨"/", ["out", "A.sol", "Math.json"]⟩, ⟨"/", ["out", "B.sol", "Math.json"]⟩] :=
    eq_ok_of_toOption (by decide +kernel)
  have hrecord : ∃ artifact,
      Holds .usual namesakes "Math" ⟨"/", ["out", "A.sol", "Math.json"]⟩ artifact ∧
      artifact.source.is "src/A.sol" = true :=
    Holds.of_check (by decide +kernel)
  obtain ⟨recorded, hrecorded, hsource⟩ := hrecord
  obtain ⟨artifact, hload⟩ : ∃ artifact, (((start atRoot []).after namesakes
      [.load ⟨"Math", some "src/B.sol"⟩]).load namesakes
        (libraryKey ⟨"src/A.sol", "Math"⟩)).1 = .ok artifact :=
    exists_of_isOk (by decide +kernel)
  obtain ⟨found, path, hfound, -, hholds, -, hfrom, -, -, hfile, hother⟩ :=
    library_source atRoot [] namesakes [.load ⟨"Math", some "src/B.sol"⟩] ⟨"src/A.sol", "Math"⟩
      hload
  obtain rfl := Except.ok.inj (hfound.symm.trans hcandidates)
  have hsome : ∃ other ∈ [(⟨"/", ["out", "A.sol", "Math.json"]⟩ : Path),
      ⟨"/", ["out", "B.sol", "Math.json"]⟩], IsFrom "src/A.sol" other :=
    ⟨_, List.mem_cons_self, by unfold IsFrom; decide⟩
  refine ⟨artifact, path, hload, hfrom.mpr hsome, hholds, hfile hsome ?_,
    hother "src/B.sol" ?_ ?_ hsome⟩
  · intro other hmem hfromOther held hheld
    simp only [List.mem_cons, List.not_mem_nil, or_false] at hmem
    rcases hmem with rfl | rfl
    · rw [hheld.unique hrecorded]
      exact eq_str_of_is hsource
    · have hapart : ¬IsFrom "src/A.sol" ⟨"/", ["out", "B.sol", "Math.json"]⟩ := by
        unfold IsFrom
        decide
      exact absurd hfromOther hapart
  · decide
  · exact ⟨_, List.mem_cons_of_mem _ List.mem_cons_self, by unfold IsFrom; decide⟩

/-! ## A library of another file -/

/-- The only library of its name. -/
def alone : Disk where
  nodes := [
    (["out"], .directory),
    (["out", "Math.sol"], .directory),
    (["out", "Math.sol", "Math.json"], compiledFrom "src/b/Math.sol")]
  current := []

/-- What was loaded is the only library, whichever file it was asked for. -/
theorem loaded_alone (file : String)
    (hload : (((start atRoot []).load alone (libraryKey ⟨file, "Math"⟩)).1.toOption.any
      fun artifact => artifact.source.is "src/b/Math.sol") = true)
    (hfind : (atRoot.find alone "Math" (some file) .null).toOption =
      some ⟨"/", ["out", "Math.sol", "Math.json"]⟩) :
    ∃ artifact, ((start atRoot []).load alone (libraryKey ⟨file, "Math"⟩)).1 = .ok artifact ∧
      artifact.source = .str "src/b/Math.sol" ∧
      atRoot.find alone "Math" (some file) .null = .ok ⟨"/", ["out", "Math.sol", "Math.json"]⟩ := by
  obtain ⟨artifact, hartifact, hsource⟩ := exists_of_any hload
  exact ⟨artifact, hartifact, eq_str_of_is hsource, eq_ok_of_toOption hfind⟩

/-- It is loaded for files that do not declare it: for one whose name is that of
its file, and for one with another name. -/
theorem library_of_another_file :
    (∃ artifact,
      ((start atRoot []).load alone (libraryKey ⟨"src/a/Math.sol", "Math"⟩)).1 = .ok artifact ∧
        artifact.source = .str "src/b/Math.sol" ∧
        atRoot.find alone "Math" (some "src/a/Math.sol") .null =
          .ok ⟨"/", ["out", "Math.sol", "Math.json"]⟩) ∧
    ∃ artifact,
      ((start atRoot []).load alone (libraryKey ⟨"src/Lib.sol", "Math"⟩)).1 = .ok artifact ∧
        artifact.source = .str "src/b/Math.sol" ∧
        atRoot.find alone "Math" (some "src/Lib.sol") .null =
          .ok ⟨"/", ["out", "Math.sol", "Math.json"]⟩ :=
  ⟨loaded_alone "src/a/Math.sol" (by decide +kernel) (by decide +kernel),
    loaded_alone "src/Lib.sol" (by decide +kernel) (by decide +kernel)⟩

end SolDeployer.Project
