import SolDeployer.Proofs.Artifact.Masking
import SolDeployer.Proofs.Json.Size
import SolDeployer.Proofs.Report

/-!
# The libraries that a document names

The libraries of an artifact depend on its document alone, not on the
name under which it is read (`libraryIds_of_read`), and each is the name
of a field. So a document names no more libraries than it has characters.
-/

namespace SolDeployer.Artifact

/-- The libraries that the document in a text names, none if it cannot be
read. -/
def namedIn (levels : Nat) (text : List Char) : List LibraryId :=
  match Json.read text levels with
  | .ok (.obj fields) =>
    match readLinks (codeOf fields).2 with
    | .ok links => links.libraryIds
    | .error _ => []
  | _ => []

/-- The parts of an artifact are those that were read of a document. -/
structure ReadFrom (host : Host) (fields : Json.Fields) (artifact : Artifact) : Prop where
  links : readLinks (codeOf fields).2 = .ok artifact.links
  bytecode : bytecodeDefect? artifact.bytecode artifact.links = none
  metadata : ∃ metadata, readMetadata fields host.levels = .ok metadata ∧
    sourceOf? fields metadata = some artifact.source ∧
      compilerOf? host.decode metadata artifact.bytecode = some artifact.compiler

theorem orDefect_ok {α : Type} {defect : Defect} {value : Option α} {a : α}
    (h : orDefect defect value = .ok a) : value = some a := by
  cases value with
  | none => cases h
  | some b => rw [Except.ok.inj h]

theorem ofFields_ok {fields : Json.Fields} {contract : String} {host : Host} {artifact : Artifact}
    (h : ofFields fields contract host = .ok artifact) : ReadFrom host fields artifact := by
  unfold ofFields at h
  simp only [bind_eq_ok] at h
  obtain ⟨abi, -, bytecode, -, links, hlinks, ⟨⟩, hcheck, metadata, hmetadata, source, hsource,
    compiler, hcompiler, h⟩ := h
  cases h
  exact ⟨hlinks, checkBytecode_eq_ok.mp hcheck, metadata, hmetadata, orDefect_ok hsource,
    orDefect_ok hcompiler⟩

theorem fields_text_ok {text : List Char} {levels : Nat} {fields : Json.Fields}
    (h : (Document.text text).fields levels = .ok fields) :
    Json.read text levels = .ok (.obj fields) := by
  change Document.fields.ofRead (Json.read text levels) = .ok fields at h
  unfold Document.fields.ofRead at h
  split at h
  · rename_i hread
    rw [hread, Except.ok.inj h]
  · cases h
  · cases h
  · cases h

theorem libraryIds_of_read {text : List Char} {contract : String} {host : Host}
    {artifact : Artifact} (h : read (.text text) contract host = .ok artifact) :
    artifact.libraryIds = namedIn host.levels text := by
  obtain ⟨fields, hfields, h⟩ := bind_eq_ok.mp h
  simp only [namedIn, fields_text_ok hfields, (ofFields_ok h).links, libraryIds]

/-! ## How many there are -/

theorem fieldCount_orElse_le (v other : Json) :
    (v.orElse other).fieldCount ≤ v.fieldCount + other.fieldCount := by
  unfold Json.orElse
  split <;> omega

theorem fieldCount_codeOf_le (fields : Json.Fields) :
    (codeOf fields).2.fieldCount ≤ Json.fieldCountFields fields := by
  have hbeside : ((fields.getD "linkReferences").orElse (.obj [])).fieldCount ≤
      Json.fieldCountFields fields :=
    Nat.le_trans (fieldCount_orElse_le _ _) (Json.fieldCount_getD_le fields _)
  unfold codeOf
  split
  · rename_i code hcode
    have hcount := Json.fieldCount_getD_le fields "bytecode"
    rw [hcode, Json.fieldCount] at hcount
    have hinner := Json.fieldCount_getD_le code "linkReferences"
    simp only
    split
    · exact hbeside
    · exact Nat.le_trans hinner hcount
  · exact hbeside

theorem length_readFileLinks {file : String} {value : Json} {libraries : Entries String (List Slot)}
    (h : readFileLinks file value = .ok libraries) : libraries.length ≤ value.fieldCount := by
  cases value with
  | obj fields =>
      simp only [readFileLinks] at h
      rw [Json.fieldCount]
      induction fields generalizing libraries with
      | nil =>
          obtain rfl := Except.ok.inj h
          exact Nat.zero_le _
      | cons field rest ih =>
          rw [List.mapM_cons] at h
          obtain ⟨entry, -, h⟩ := bind_eq_ok.mp h
          obtain ⟨others, hothers, h⟩ := bind_eq_ok.mp h
          obtain rfl := Except.ok.inj h
          have hrest := ih hothers
          simp only [List.length_cons, Json.fieldCountFields]
          omega
  | _ => cases h

theorem length_readLinks {value : Json} {links : LinkReferences} (h : readLinks value = .ok links) :
    links.libraryIds.length ≤ value.fieldCount := by
  cases value with
  | obj fields =>
      simp only [readLinks] at h
      rw [Json.fieldCount]
      induction fields generalizing links with
      | nil =>
          obtain rfl := Except.ok.inj h
          exact Nat.zero_le _
      | cons field rest ih =>
          rw [List.mapM_cons] at h
          obtain ⟨entry, hentry, h⟩ := bind_eq_ok.mp h
          obtain ⟨others, hothers, h⟩ := bind_eq_ok.mp h
          obtain rfl := Except.ok.inj h
          have hrest := ih hothers
          obtain ⟨libraries, hlibraries, rfl⟩ := map_eq_ok.mp hentry
          have hfile := length_readFileLinks hlibraries
          simp only [LinkReferences.libraryIds, List.flatMap_cons, List.length_append,
            List.length_map, Json.fieldCountFields] at hrest ⊢
          omega
  | _ => cases h

theorem length_namedIn_le (levels : Nat) (text : List Char) :
    (namedIn levels text).length ≤ text.length := by
  unfold namedIn
  split
  · rename_i fields hread
    have hfields := Json.fieldCount_of_read hread
    rw [Json.fieldCount] at hfields
    split
    · rename_i links hlinks
      have hcount := length_readLinks hlinks
      have hcode := fieldCount_codeOf_le fields
      omega
    · exact Nat.zero_le _
  · exact Nat.zero_le _

end SolDeployer.Artifact
