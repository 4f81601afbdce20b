import SolDeployer.Proofs.Artifact.Masking

/-!
# Two layouts of a document

A document has its code either in an object, with the link references in it, or
has the two side by side. Reading looks fields up and goes through no list of
them, so the layouts can differ in one thing alone: which value is taken for the
link references (`codeOf_nested`, `codeOf_flat`). A value with nothing in it is
passed over side by side, also where it is no object, and is refused in an object
(`IsSkipped`).
-/

namespace SolDeployer.Artifact

/-! ## What is looked up -/

/-- Two documents with the same values in all fields but those of the code. -/
def SameBesideCode (fields other : Json.Fields) : Prop :=
  ∀ key, key ≠ "bytecode" → key ≠ "linkReferences" →
    Entries.get? fields key = Entries.get? other key

namespace SameBesideCode

variable {fields other : Json.Fields} (h : SameBesideCode fields other)

include h

theorem getD (key : String) (hcode : key ≠ "bytecode") (hlinks : key ≠ "linkReferences") :
    fields.getD key = other.getD key := by
  rw [Json.Fields.getD, Json.Fields.getD, h key hcode hlinks]

theorem readMetadata (levels : Nat) :
    Artifact.readMetadata fields levels = Artifact.readMetadata other levels := by
  unfold Artifact.readMetadata
  rw [h.getD "metadata" (by decide) (by decide), h.getD "rawMetadata" (by decide) (by decide)]

theorem sourceOf? (metadata : Json.Fields) :
    Artifact.sourceOf? fields metadata = Artifact.sourceOf? other metadata := by
  unfold Artifact.sourceOf?
  rw [h.getD "sourceName" (by decide) (by decide)]

/-- Such documents with the same code and the same link references are read alike. -/
theorem ofFields (hcode : codeOf fields = codeOf other) (contract : String) (host : Host) :
    Artifact.ofFields fields contract host = Artifact.ofFields other contract host := by
  unfold Artifact.ofFields
  simp only [hcode, h.readMetadata, h.sourceOf?, h.getD "abi" (by decide) (by decide)]

end SameBesideCode

/-! ## The layouts -/

/-- A document with its code and its link references in an object. -/
structure IsNested (fields : Json.Fields) (code : String) (references : Json) : Prop where
  inner : ∃ inner, Entries.get? fields "bytecode" = some (.obj inner) ∧
    Entries.get? inner "object" = some (.str code) ∧
    Entries.get? inner "linkReferences" = some references
  beside : Entries.get? fields "linkReferences" = none

/-- A document with its code and its link references side by side. -/
structure IsFlat (fields : Json.Fields) (code : String) (references : Json) : Prop where
  code : Entries.get? fields "bytecode" = some (.str code)
  references : Entries.get? fields "linkReferences" = some references

/-- The value has nothing in it but is neither null nor an object: false, a zero,
or an empty text or list. -/
def IsSkipped (references : Json) : Prop :=
  references.isBlank = true ∧ references.isNull = false ∧ references.isObject = false

theorem orElse_str (code : String) : (Json.str code).orElse (.str "") = .str code := by
  by_cases hblank : code = ""
  · rw [hblank]
    rfl
  · exact if_neg fun h => hblank (beq_iff_eq.mp h)

section

variable {fields : Json.Fields} {code : String} {references : Json}

theorem codeOf_nested (h : IsNested fields code references) :
    codeOf fields = (.str code, if references.isNull then .obj [] else references) := by
  obtain ⟨inner, hbytecode, hobject, hreferences⟩ := h.inner
  unfold codeOf
  simp only [Json.Fields.getD, hbytecode, hobject, hreferences, h.beside, Option.getD_some,
    Option.getD_none, orElse_str]
  rfl

theorem codeOf_flat (h : IsFlat fields code references) :
    codeOf fields = (.str code, references.orElse (.obj [])) := by
  unfold codeOf
  simp only [Json.Fields.getD, h.code, h.references, Option.getD_some, orElse_str]

/-- Side by side, what is passed over is taken for an object without fields. -/
theorem orElse_of_skipped (h : IsSkipped references) : references.orElse (.obj []) = .obj [] :=
  if_pos h.1

theorem orElse_of_not_skipped (h : ¬IsSkipped references) :
    references.orElse (.obj []) = if references.isNull then .obj [] else references := by
  by_cases hblank : references.isBlank = true
  · cases references with
    | null => rfl
    | obj fields =>
        rw [Json.orElse, if_pos hblank, List.isEmpty_iff.mp hblank]
        rfl
    | bool value => exact absurd ⟨hblank, rfl, rfl⟩ h
    | int value => exact absurd ⟨hblank, rfl, rfl⟩ h
    | float value => exact absurd ⟨hblank, rfl, rfl⟩ h
    | str value => exact absurd ⟨hblank, rfl, rfl⟩ h
    | arr items => exact absurd ⟨hblank, rfl, rfl⟩ h
  · have hnull : references.isNull = false := by
      cases references with
      | null => exact absurd rfl hblank
      | _ => rfl
    rw [Json.orElse, if_neg hblank, hnull]
    rfl

theorem readLinks_of_skipped (h : IsSkipped references) :
    readLinks references = .error (.malformed .references) := by
  cases references with
  | obj fields => cases h.2.2
  | _ => rfl

/-- Beside the code and the link references, the interface alone comes first. -/
theorem ofFields_of_readLinks {failure : Failure} (hcode : codeOf fields = (.str code, references))
    (hlinks : readLinks references = .error failure) (contract : String) (host : Host) :
    ofFields fields contract host =
      readInterface contract host.paramLevels (fields.getD "abi") >>= fun _ => .error failure := by
  unfold ofFields
  rw [hcode]
  simp only [readBytecode, hlinks]
  rfl

theorem readMetadata_ne_references (fields : Json.Fields) (levels : Nat) :
    readMetadata fields levels ≠ .error (.malformed .references) := by
  unfold readMetadata
  simp only
  split
  case' h_1 => split
  -- whatever was found, only its settings can be refused
  all_goals
    refine bind_ne_error nofun fun value => ?_
    split
    · split <;> nofun
    · nofun

theorem orDefect_ne_references {α : Type} (contract : String) (value : Option α) :
    orDefect (.shape contract) value ≠ .error (.malformed .references) := by
  cases value <;> nofun

theorem checkBytecode_ne_references (bytecode : List Char) (links : LinkReferences) :
    checkBytecode bytecode links ≠ .error (.malformed .references) := by
  intro h
  obtain ⟨defect, hdefect, heq⟩ := checkBytecode_eq_error.mp h
  obtain rfl := Failure.malformed.inj heq
  unfold bytecodeDefect? at hdefect
  split at hdefect
  · cases hdefect
  · obtain ⟨_, -, hstray⟩ := Option.map_eq_some_iff.mp hdefect
    cases hstray

/-- Nothing that is read without any link references is refused for them. -/
theorem ofFields_ne_references (hcode : codeOf fields = (.str code, .obj [])) {contract : String}
    {host : Host} {abi : List Abi.Entry}
    (habi : readInterface contract host.paramLevels (fields.getD "abi") = .ok abi) :
    ofFields fields contract host ≠ .error (.malformed .references) := by
  unfold ofFields
  rw [hcode, habi]
  refine bind_ne_error nofun fun abi => bind_ne_error nofun fun bytecode =>
    bind_ne_error nofun fun links => ?_
  refine bind_ne_error (checkBytecode_ne_references _ _) fun checked => ?_
  refine bind_ne_error (readMetadata_ne_references fields _) fun metadata => ?_
  refine bind_ne_error (orDefect_ne_references contract _) fun source => ?_
  exact bind_ne_error (orDefect_ne_references contract _) fun compiler => nofun

/-- What is wrong with the interface comes before all else. -/
theorem ofFields_of_readInterface {contract : String} {host : Host} {failure : Failure}
    (h : readInterface contract host.paramLevels (fields.getD "abi") = .error failure) :
    ofFields fields contract host = .error failure := by
  unfold ofFields
  rw [h]
  rfl

end

theorem read_eq {document : Document} {fields : Json.Fields} {host : Host}
    (h : document.fields host.levels = .ok fields) (contract : String) :
    read document contract host = ofFields fields contract host := by
  rw [read, h]
  rfl

/-- **Layouts.** A document with its code in an object and one with its code side
by side, the same in all else, are read alike, whatever stands for the link
references, but for one kind of value: false, a zero, or an empty text or list.
In an object it is refused, unless the interface was refused before it; side by
side it is read as if there were no link references. -/
theorem layouts_agree {nested flat : Document} {inObject sideBySide : Json.Fields} {code : String}
    {references : Json} {host : Host} (hinObject : nested.fields host.levels = .ok inObject)
    (hsideBySide : flat.fields host.levels = .ok sideBySide) (hnested : IsNested inObject code references)
    (hflat : IsFlat sideBySide code references) (hsame : SameBesideCode inObject sideBySide)
    (contract : String) :
    (read nested contract host = read flat contract host ↔ ¬IsSkipped references ∨
      ∀ abi, readInterface contract host.paramLevels (inObject.getD "abi") ≠ .ok abi) ∧
    (IsSkipped references →
      (∀ abi, readInterface contract host.paramLevels (inObject.getD "abi") = .ok abi →
        read nested contract host = .error (.malformed .references)) ∧
      ∀ bare, IsFlat bare code (.obj []) → SameBesideCode sideBySide bare →
        read flat contract host = ofFields bare contract host) := by
  rw [read_eq hinObject, read_eq hsideBySide]
  have hcode := codeOf_nested hnested
  have hcodeFlat := codeOf_flat hflat
  have hinterface : inObject.getD "abi" = sideBySide.getD "abi" :=
    hsame.getD "abi" (by decide) (by decide)
  by_cases hskipped : IsSkipped references
  · rw [hskipped.2.1] at hcode
    rw [orElse_of_skipped hskipped] at hcodeFlat
    have hrefused := ofFields_of_readLinks hcode (readLinks_of_skipped hskipped) contract host
    refine ⟨⟨fun heq => .inr fun abi habi => ?_, ?_⟩, fun _ => ⟨fun abi habi => ?_, ?_⟩⟩
    · rw [hinterface] at habi
      refine ofFields_ne_references hcodeFlat habi ?_
      rw [← heq, hrefused, hinterface, habi]
      rfl
    · rintro (hnot | hnone)
      · exact absurd hskipped hnot
      · cases habi : readInterface contract host.paramLevels (inObject.getD "abi") with
        | ok abi => exact absurd habi (hnone abi)
        | error failure =>
            rw [ofFields_of_readInterface habi, ofFields_of_readInterface (hinterface ▸ habi)]
    · rw [hrefused, habi]
      rfl
    · intro bare hbare hsameBare
      exact hsameBare.ofFields (hcodeFlat.trans (codeOf_flat hbare).symm) contract host
  · rw [orElse_of_not_skipped hskipped] at hcodeFlat
    exact ⟨⟨fun _ => .inl hskipped, fun _ => hsame.ofFields (hcode.trans hcodeFlat.symm) contract host⟩,
      fun h => absurd h hskipped⟩

/-- The same contract in both layouts, with a slot and in another order of the fields. -/
def nestedVault (references : Json) : Json.Fields :=
  [("sourceName", .str "src/Vault.sol"),
    ("bytecode", .obj [("linkReferences", references), ("object", .str "0x60AA")])]

def flatVault (references : Json) : Json.Fields :=
  [("linkReferences", references), ("bytecode", .str "0x60AA"),
    ("sourceName", .str "src/Vault.sol")]

theorem nestedVault_nested (references : Json) :
    IsNested (nestedVault references) "0x60AA" references :=
  ⟨⟨_, rfl, rfl, rfl⟩, rfl⟩

theorem flatVault_flat (references : Json) : IsFlat (flatVault references) "0x60AA" references :=
  ⟨rfl, rfl⟩

theorem sameBesideCode_vault (references : Json) :
    SameBesideCode (nestedVault references) (flatVault references) := by
  intro key hcode hlinks
  simp [nestedVault, flatVault, Entries.get?, Ne.symm hcode, Ne.symm hlinks]

/-- The link references with the one slot of a library. -/
def vaultReferences : Json :=
  .obj [("src/M.sol", .obj [("M", .arr [.obj [("start", .int 1), ("length", .int 1)]])])]

theorem layouts_agree_vault :
    (∃ artifact, read (.object (nestedVault vaultReferences)) "Vault" = .ok artifact ∧
      read (.object (flatVault vaultReferences)) "Vault" = .ok artifact) ∧
    IsSkipped (.int 0) ∧
      read (.object (nestedVault (.int 0))) "Vault" = .error (.malformed .references) ∧
      read (.object (flatVault (.int 0))) "Vault" =
        ofFields (flatVault (.obj [])) "Vault" .usual := by
  have hagree (references : Json) := @layouts_agree (.object (nestedVault references))
    (.object (flatVault references)) _ _ _ _ .usual rfl rfl (nestedVault_nested references)
    (flatVault_flat references) (sameBesideCode_vault references) "Vault"
  obtain ⟨artifact, hread⟩ : ∃ artifact, read (.object (nestedVault vaultReferences)) "Vault" =
      .ok artifact := exists_of_isOk (by decide +kernel)
  have hobject : ¬IsSkipped vaultReferences := fun h => nomatch h.2.2
  have hzero : IsSkipped (.int 0) := ⟨rfl, rfl, rfl⟩
  obtain ⟨hrefused, hbare⟩ := (hagree (.int 0)).2 hzero
  refine ⟨⟨artifact, hread, ?_⟩, hzero, hrefused [] rfl, ?_⟩
  · rw [← (hagree vaultReferences).1.mpr (.inl hobject), hread]
  · refine hbare _ (flatVault_flat _) fun key hcode hlinks => ?_
    simp [flatVault, Entries.get?, Ne.symm hcode, Ne.symm hlinks]

/-- An empty list is refused in an object and passed over side by side. -/
theorem layouts_differ :
    read (.text ("\x7b\"bytecode\": \x7b\"object\": \"6001\", " ++
        "\"linkReferences\": []\x7d\x7d").toList) "Token" = .error (.malformed .references) ∧
      ∃ artifact, read (.text ("\x7b\"bytecode\": \"6001\", " ++
        "\"linkReferences\": []\x7d").toList) "Token" = .ok artifact := by
  exact ⟨eq_error_of_check (by decide +kernel), exists_of_isOk (by decide +kernel)⟩

end SolDeployer.Artifact
