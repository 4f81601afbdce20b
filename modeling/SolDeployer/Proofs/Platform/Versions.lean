import SolDeployer.Proofs.Artifact.References
import SolDeployer.Proofs.Artifact.Totality
import SolDeployer.Proofs.Platform.Narrowing

/-!
# The version of a candidate

A document is read twice for the version of its compiler: by the lookup,
and for the artifact itself. Both take the version in the metadata
(`namedVersion`). Where there is none the lookup stops, while the artifact
still has what other metadata or the trailer of the bytecode tell. So the
two agree exactly where the metadata name a version or nobody knows one.
-/

namespace SolDeployer.Platform

open Files (Disk Path)

/-- Metadata that may be in a text. -/
def opened (levels : Nat) : Json → Except Failure Json
  | .str text => readOrNull levels text.toList
  | metadata => .ok metadata

/-- The version that the metadata of a document name, null if there is none. -/
def namedVersion (levels : Nat) (fields : Json.Fields) : Json :=
  match opened levels (fields.getD "metadata") with
  | .ok metadata => versionIn metadata
  | .error _ => .null

/-- The answer to a comparison that may make no sense. -/
def verdict : Option Bool → Except Failure Bool
  | some answer => .ok answer
  | none => .error .unexpectedType

variable {host : Host} {levels : Nat} {fields metadata : Json.Fields} {disk : Disk} {path : Path}
  {text : List Char}

theorem isNull_iff {value : Json} : value.isNull = true ↔ value = .null := by
  cases value <;> simp [Json.isNull]

/-! ## The lookup -/

theorem isOfVersion_of_recorded {version : Json}
    (h : recordedVersion levels disk path = .ok version) (start : Json) :
    isOfVersion levels disk start path = verdict (Compiler.versionMatches? version start) := by
  unfold isOfVersion
  rw [h]
  show (match Compiler.versionMatches? version start with
    | some answer => Except.ok answer
    | none => .error Failure.unexpectedType) = _
  cases Compiler.versionMatches? version start with
  | none => rfl
  | some answer => rfl

theorem recordedVersion_eq (htext : disk.readText path.text = .ok text)
    (hread : Json.read text levels = .ok (.obj fields)) :
    recordedVersion levels disk path = (opened levels (fields.getD "metadata")).map versionIn := by
  have hdocument : readOrNull levels text = .ok (.obj fields) := by
    unfold readOrNull
    rw [hread]
  unfold recordedVersion
  rw [htext]
  show (readOrNull levels text >>= _) = _
  rw [hdocument]
  show (match fields.getD "metadata" with
    | .str text => readOrNull levels text.toList >>= fun metadata => pure (versionIn metadata)
    | metadata => pure (versionIn metadata)) = _
  cases fields.getD "metadata" with
  | str inner =>
      show readOrNull levels inner.toList >>= _ = (readOrNull levels inner.toList).map versionIn
      cases readOrNull levels inner.toList <;> rfl
  | _ => rfl

/-! ## The artifact -/

/-- The fields of metadata, if their settings are an object. -/
def settled : Json → Except Failure Json.Fields
  | .obj metadata =>
    match Entries.get? metadata "settings" with
    | none | some (.obj _) => .ok metadata
    | some _ => Artifact.defective .settings
  | _ => .ok []

theorem readMetadata_eq (fields : Json.Fields) (levels : Nat) :
    Artifact.readMetadata fields levels =
      opened levels (Artifact.metadataIn fields) >>= settled := by
  unfold Artifact.readMetadata Artifact.metadataIn
  simp only
  generalize (if (fields.getD "metadata").isNull = true then fields.getD "rawMetadata"
    else fields.getD "metadata") = found
  cases found with
  | str inner =>
      simp only [opened, readOrNull]
      cases Json.read inner.toList levels with
      | ok value => cases value <;> rfl
      | error error => cases error <;> rfl
  | _ => rfl

/-- Nothing is lost of a version where metadata are settled. -/
theorem versionIn_settled {value : Json} (h : settled value = .ok metadata) :
    versionIn (.obj metadata) = versionIn value := by
  cases value with
  | obj inner =>
      simp only [settled] at h
      split at h
      · rw [Except.ok.inj h]
      · rw [Except.ok.inj h]
      · cases h
  | _ =>
      obtain rfl := Except.ok.inj h
      rfl

/-- The version of the compiler of an artifact is the one in the metadata, or
else the one in the trailer. -/
theorem compiler_version {bytecode : List Char} {compiler : Compiler}
    (h : Artifact.compilerOf? host.decode metadata bytecode = some compiler) :
    compiler.version = Artifact.orText (versionIn (.obj metadata))
      ((Trailer.foundBy host.decode bytecode).bind Trailer.solcVersion?) := by
  simp only [Artifact.compilerOf?, Option.bind_eq_bind, Option.bind_eq_some_iff] at h
  obtain ⟨settings, -, optimizer, -, found, hfound, output, -, h⟩ := h
  have hcompiler : compiler.version = Artifact.orText (Json.Fields.getD found "version")
      ((Trailer.foundBy host.decode bytecode).bind Trailer.solcVersion?) := by
    split at h
    · rw [← Option.some.inj h]
    · rw [← Option.some.inj h]
    · cases h
  have hversion : versionIn (.obj metadata) = Json.Fields.getD found "version" := by
    unfold Artifact.objectIn? at hfound
    simp only [versionIn, Json.Fields.getD]
    split at hfound
    · rename_i hnone
      rw [hnone, ← Option.some.inj hfound]
      rfl
    · rename_i inner hsome
      rw [hsome, ← Option.some.inj hfound]
      rfl
    · cases hfound
  rw [hcompiler, hversion]

/-! ## Both -/

theorem orText_of_ne_null {value : Json} (h : value ≠ .null) (text? : Option String) :
    Artifact.orText value text? = value := by
  unfold Artifact.orText
  rw [if_neg fun hnull => h (isNull_iff.mp hnull)]

/-- What the lookup and the artifact make of one document: the lookup does not
fail, and a version that it finds is that of the artifact. -/
theorem versions_of_read {contract : String} {artifact : Artifact}
    (htext : disk.readText path.text = .ok text)
    (hread : Artifact.read (.text text) contract host = .ok artifact) :
    ∃ fields, Json.read text host.levels = .ok (.obj fields) ∧
      recordedVersion host.levels disk path = .ok (namedVersion host.levels fields) ∧
      (namedVersion host.levels fields ≠ .null →
        artifact.compiler.version = namedVersion host.levels fields) := by
  obtain ⟨fields, hfields, hartifact⟩ := bind_eq_ok.mp hread
  have hjson := Artifact.fields_text_ok hfields
  obtain ⟨metadata, hmetadata, -, hcompiler⟩ := (Artifact.ofFields_ok hartifact).metadata
  rw [readMetadata_eq] at hmetadata
  obtain ⟨value, hvalue, hsettled⟩ := bind_eq_ok.mp hmetadata
  refine ⟨fields, hjson, ?_⟩
  rw [recordedVersion_eq htext hjson]
  by_cases hnull : (fields.getD "metadata").isNull = true
  · have hnone : namedVersion host.levels fields = .null := by
      unfold namedVersion
      rw [isNull_iff.mp hnull]
      rfl
    rw [hnone, isNull_iff.mp hnull]
    exact ⟨rfl, fun hne => absurd rfl hne⟩
  · have hfound : opened host.levels (fields.getD "metadata") = .ok value := by
      rwa [Artifact.metadataIn, if_neg hnull] at hvalue
    have hnamed : namedVersion host.levels fields = versionIn value := by
      unfold namedVersion
      rw [hfound]
    rw [hfound, hnamed]
    refine ⟨rfl, fun hne => ?_⟩
    rw [compiler_version hcompiler, versionIn_settled hsettled, orText_of_ne_null hne]

theorem verdict_null (start : Json) : verdict (Compiler.versionMatches? .null start) = .ok false :=
  rfl

/-- A version that is known is not compared with the empty text as one that is
not. -/
theorem verdict_empty {version : Json} (h : version ≠ .null) :
    verdict (Compiler.versionMatches? version (.str "")) ≠ .ok false := by
  cases version with
  | null => exact absurd rfl h
  | str version =>
      have hmatches : Compiler.versionMatches? (.str version) (.str "") = some true := rfl
      rw [hmatches]
      intro hverdict
      cases hverdict
  | _ =>
      intro hverdict
      cases hverdict

/-- The answers are those of the artifact exactly if the metadata name a version
or the artifact has none: the empty text tells a known version from an unknown
one. -/
theorem agree_iff {artifact : Artifact}
    (hrecorded : recordedVersion levels disk path = .ok (namedVersion levels fields))
    (hsame : namedVersion levels fields ≠ .null →
      artifact.compiler.version = namedVersion levels fields) :
    (∀ start : String, isOfVersion levels disk (.str start) path =
        verdict (artifact.compiler.matches? (.str start))) ↔
      namedVersion levels fields ≠ .null ∨ artifact.compiler.version = .null := by
  simp only [isOfVersion_of_recorded hrecorded]
  by_cases hnull : namedVersion levels fields = .null
  · rw [hnull, or_iff_right (not_not_intro rfl)]
    constructor
    · intro hagree
      by_cases hknown : artifact.compiler.version = .null
      · exact hknown
      · exact absurd (hagree "").symm (verdict_empty hknown)
    · intro hknown start
      rw [Compiler.matches?, hknown]
  · refine ⟨fun _ => .inl hnull, fun _ start => ?_⟩
    rw [Compiler.matches?, hsame hnull]

/-- A candidate is of a version: its metadata name one that begins so, and it
is that of its artifact. -/
def NamedVersion (host : Host) (disk : Disk) (contract start : String) (path : Path) : Prop :=
  ∃ artifact version, Holds host disk contract path artifact ∧
    recordedVersion host.levels disk path = .ok (.str version) ∧
      artifact.compiler.version = .str version ∧ start.toList <+: version.toList

theorem namedVersion_iff {contract start version : String} {artifact : Artifact}
    (hholds : Holds host disk contract path artifact)
    (hrecorded : recordedVersion host.levels disk path = .ok (.str version))
    (hsame : artifact.compiler.version = .str version) :
    NamedVersion host disk contract start path ↔ start.toList <+: version.toList := by
  constructor
  · rintro ⟨-, other, -, hother, -, hprefix⟩
    have heq : other = version := Json.str.inj (Except.ok.inj (hother.symm.trans hrecorded))
    rwa [← heq]
  · intro hprefix
    exact ⟨artifact, version, hholds, hrecorded, hsame, hprefix⟩

/-- The test of a candidate with a proper artifact has an answer. -/
theorem isOfVersion_of_holds {contract : String} {artifact : Artifact}
    (hholds : Holds host disk contract path artifact)
    (hversion : artifact.compiler.version = .null ∨ artifact.compiler.version.isText = true)
    (start : String) :
    ∃ answer, isOfVersion host.levels disk (.str start) path = .ok answer ∧
      (answer = true ↔ NamedVersion host disk contract start path) := by
  obtain ⟨text, htext, hread⟩ := hholds
  obtain ⟨fields, -, hrecorded, hsame⟩ := versions_of_read htext hread
  rw [isOfVersion_of_recorded hrecorded]
  by_cases hnull : namedVersion host.levels fields = .null
  · rw [hnull] at hrecorded ⊢
    refine ⟨false, verdict_null _, nofun, ?_⟩
    rintro ⟨-, version, -, hother, -⟩
    cases hrecorded.symm.trans hother
  · have hknown := hsame hnull
    rw [hknown] at hversion
    cases hnamed : namedVersion host.levels fields with
    | str version =>
        rw [hnamed] at hrecorded hknown
        refine ⟨start.toList.isPrefixOf version.toList, rfl, ?_⟩
        rw [namedVersion_iff ⟨text, htext, hread⟩ hrecorded hknown]
        exact List.isPrefixOf_iff_prefix
    | null => exact absurd hnamed hnull
    | _ =>
        rw [hnamed] at hversion
        rcases hversion with hversion | hversion
        all_goals cases hversion

/-- **Versions of candidates.** Of a document that gives an artifact, the lookup
reads a version without failing: the one in the metadata. If they name one it is
that of the artifact, and the two are compared alike with any text; if not, the
candidate is of no version. So the answers are the same for all texts exactly if
the metadata name a version or the artifact has none. Of some candidates, those
are kept whose metadata name a version that begins with the text. -/
theorem version_lookup (host : Host) (disk : Disk) (contract : String) :
    (∀ path text artifact, disk.readText path.text = .ok text →
      Artifact.read (.text text) contract host = .ok artifact →
      ∃ fields, Json.read text host.levels = .ok (.obj fields) ∧
        recordedVersion host.levels disk path = .ok (namedVersion host.levels fields) ∧
        (namedVersion host.levels fields ≠ .null →
          artifact.compiler.version = namedVersion host.levels fields ∧
          ∀ start, isOfVersion host.levels disk start path = verdict (artifact.compiler.matches? start)) ∧
        (namedVersion host.levels fields = .null →
          ∀ start, isOfVersion host.levels disk start path = .ok false) ∧
        ((∀ start : String, isOfVersion host.levels disk (.str start) path =
            verdict (artifact.compiler.matches? (.str start))) ↔
          namedVersion host.levels fields ≠ .null ∨ artifact.compiler.version = .null)) ∧
    ∀ found : List Path, (∀ path ∈ found, ∃ artifact, Holds host disk contract path artifact ∧
        (artifact.compiler.version = .null ∨ artifact.compiler.version.isText = true)) →
      ∀ start : String, ∃ kept,
        found.filterM (isOfVersion host.levels disk (.str start)) = .ok kept ∧
        ∀ path, path ∈ kept ↔ path ∈ found ∧ NamedVersion host disk contract start path := by
  constructor
  · intro path text artifact htext hread
    obtain ⟨fields, hjson, hrecorded, hsame⟩ := versions_of_read htext hread
    have hanswer := isOfVersion_of_recorded hrecorded
    refine ⟨fields, hjson, hrecorded, fun hne => ?_, fun hnull => ?_, ?_⟩
    · have hversion := hsame hne
      refine ⟨hversion, fun start => ?_⟩
      rw [hanswer, Compiler.matches?, hversion]
    · intro start
      rw [hanswer, hnull, verdict_null]
    · exact agree_iff hrecorded hsame
  · intro found hholds start
    have hanswers : ∀ path ∈ found, ∃ answer,
        isOfVersion host.levels disk (.str start) path = .ok answer ∧
        (answer = true ↔ NamedVersion host disk contract start path) := by
      intro path hmem
      obtain ⟨artifact, hartifact, hversion⟩ := hholds path hmem
      exact isOfVersion_of_holds hartifact hversion start
    refine ⟨_, filterM_eq_ok.mpr ⟨fun path hmem => ?_, rfl⟩, fun path => ?_⟩
    · obtain ⟨answer, hanswer, -⟩ := hanswers path hmem
      exact ⟨answer, hanswer⟩
    · rw [List.mem_filter]
      refine and_congr_right fun hmem => ?_
      obtain ⟨answer, hanswer, hiff⟩ := hanswers path hmem
      rw [hanswer, ← hiff]
      exact beq_iff_eq.trans Option.some_inj

/-- Two artifacts of a contract, compiled by different versions. -/
def released : Disk where
  nodes := [
    (["A.sol"], .directory),
    (["A.sol", "Token.json"], .file (Text.Utf8.encode
      ("\x7b\"bytecode\": \x7b\"object\": \"6001\"\x7d, " ++
        "\"metadata\": \x7b\"compiler\": \x7b\"version\": \"0.8.20+commit\"\x7d\x7d\x7d").toList)),
    (["B.sol"], .directory),
    (["B.sol", "Token.json"], .file (Text.Utf8.encode
      ("\x7b\"bytecode\": \x7b\"object\": \"6001\"\x7d, \"metadata\": " ++
        "\"\x7b\\\"compiler\\\": \x7b\\\"version\\\": \\\"0.8.19\\\"\x7d\x7d\"\x7d").toList))]
  current := []

theorem version_lookup_released :
    (∀ path ∈ [(⟨"/", ["A.sol", "Token.json"]⟩ : Path), ⟨"/", ["B.sol", "Token.json"]⟩],
      ∃ artifact, Holds .usual released "Token" path artifact) ∧
    ∀ path, path = ⟨"/", ["A.sol", "Token.json"]⟩ ↔
      path ∈ [(⟨"/", ["A.sol", "Token.json"]⟩ : Path), ⟨"/", ["B.sol", "Token.json"]⟩] ∧
        NamedVersion .usual released "Token" "0.8.20" path := by
  have hholds : ∀ path ∈ [(⟨"/", ["A.sol", "Token.json"]⟩ : Path), ⟨"/", ["B.sol", "Token.json"]⟩],
      ∃ artifact, Holds .usual released "Token" path artifact ∧
        artifact.compiler.version.isText = true := by
    intro path hmem
    refine Holds.of_check ?_
    simp only [List.mem_cons, List.not_mem_nil, or_false] at hmem
    rcases hmem with rfl | rfl
    · decide +kernel
    · decide +kernel
  obtain ⟨kept, hkept, hmem⟩ := (version_lookup .usual released "Token").2 _ (fun path hpath => by
    obtain ⟨artifact, hartifact, htext⟩ := hholds path hpath
    exact ⟨artifact, hartifact, .inr htext⟩) "0.8.20"
  have hfirst : [(⟨"/", ["A.sol", "Token.json"]⟩ : Path), ⟨"/", ["B.sol", "Token.json"]⟩].filterM
      (isOfVersion Host.usual.levels released (.str "0.8.20")) = .ok [⟨"/", ["A.sol", "Token.json"]⟩] :=
    eq_ok_of_toOption (by decide +kernel)
  obtain rfl := Except.ok.inj (hkept.symm.trans hfirst)
  refine ⟨fun path hpath => ?_, fun path => ?_⟩
  · obtain ⟨artifact, hartifact, -⟩ := hholds path hpath
    exact ⟨artifact, hartifact⟩
  · rw [← hmem, List.mem_singleton]

/-! ## A version in the trailer only -/

/-- An artifact whose version stands at the end of its bytecode. -/
def unlabelled : Disk where
  nodes := [(["Token.json"], .file (Text.Utf8.encode
    "\x7b\"bytecode\": \x7b\"object\": \"6001a164736f6c6343000814000a\"\x7d\x7d".toList))]
  current := []

/-- The artifact is of the version, and the lookup says that it is not. -/
theorem trailer_version_missed :
    ∃ artifact, Holds .usual unlabelled "Token" ⟨"/", ["Token.json"]⟩ artifact ∧
      artifact.compiler.matches? (.str "0.8.20") = some true ∧
      isOfVersion Host.usual.levels unlabelled (.str "0.8.20") ⟨"/", ["Token.json"]⟩ = .ok false := by
  have hholds : ∃ artifact, Holds .usual unlabelled "Token" ⟨"/", ["Token.json"]⟩ artifact ∧
      (artifact.compiler.matches? (.str "0.8.20") == some true) = true :=
    Holds.of_check (by decide +kernel)
  obtain ⟨artifact, hartifact, hmatches⟩ := hholds
  exact ⟨artifact, hartifact, beq_iff_eq.mp hmatches, eq_ok_of_toOption (by decide +kernel)⟩

end SolDeployer.Platform
