import SolDeployer.Artifact.Reader
import SolDeployer.Proofs.Json.Limits
import SolDeployer.Proofs.Report

/-!
# What leaves the reading of an artifact

Reading gives an artifact or a defect, with three exceptions: an offset of a
link reference that is an infinite number, metadata in a text with an
integer of too many digits, and a document, an interface or metadata in a
text that go deeper than the host follows. None is told as a defect, and
each leaves the reading exactly if all that is read before is in order
(`MeetsInfinity`, `MeetsLongInteger`, `MeetsDepth`).

`Escapes` says of each reader which failures besides defects it has, and
exactly when; readers in a row and readers of lists put these together.
-/

namespace SolDeployer

variable {α β : Type}

def Failure.isDefect : Failure → Bool
  | .malformed _ => true
  | _ => false

theorem Failure.exists_of_isDefect {failure : Failure} (h : failure.isDefect = true) :
    ∃ defect, failure = .malformed defect := by
  cases failure with
  | malformed defect => exact ⟨defect, rfl⟩
  | _ => cases h

/-! ## Failures besides defects -/

/-- The failures of an operation are defects and those that `p` holds of, and
with these it does fail. -/
def Escapes (result : Except Failure α) (p : Failure → Prop) : Prop :=
  ∀ failure, failure.isDefect = false → (result = .error failure ↔ p failure)

/-- Something in a list is bad, and all before it is good. -/
def FirstOf (good bad : α → Prop) (as : List α) : Prop :=
  ∃ before a after, as = before ++ a :: after ∧ (∀ other ∈ before, good other) ∧ bad a

theorem firstOf_cons {good bad : α → Prop} {a : α} {as : List α} :
    FirstOf good bad (a :: as) ↔ bad a ∨ good a ∧ FirstOf good bad as := by
  constructor
  · rintro ⟨before, b, after, hsplit, hgood, hbad⟩
    cases before with
    | nil =>
        obtain ⟨rfl, -⟩ := List.cons.inj hsplit
        exact .inl hbad
    | cons c before =>
        obtain ⟨rfl, rfl⟩ := List.cons.inj hsplit
        exact .inr ⟨hgood a List.mem_cons_self, before, b, after, rfl,
          fun other hother => hgood other (List.mem_cons_of_mem _ hother), hbad⟩
  · rintro (hbad | ⟨hgood, before, b, after, rfl, hbefore, hbad⟩)
    · exact ⟨[], a, as, rfl, nofun, hbad⟩
    · exact ⟨a :: before, b, after, rfl, List.forall_mem_cons.mpr ⟨hgood, hbefore⟩, hbad⟩

theorem firstOf_and {good bad : α → Prop} {as : List α} {q : Prop} :
    FirstOf good (fun a => q ∧ bad a) as ↔ q ∧ FirstOf good bad as := by
  constructor
  · rintro ⟨before, a, after, hsplit, hgood, hq, hbad⟩
    exact ⟨hq, before, a, after, hsplit, hgood, hbad⟩
  · rintro ⟨hq, before, a, after, hsplit, hgood, hbad⟩
    exact ⟨before, a, after, hsplit, hgood, hq, hbad⟩

/-- A list is not read because of the first item that is not read. -/
theorem mapM_eq_error_iff {ε : Type} {f : α → Except ε β} {cause : ε} {as : List α} :
    as.mapM f = .error cause ↔
      FirstOf (fun a => ∃ b, f a = .ok b) (fun a => f a = .error cause) as := by
  induction as with
  | nil =>
      refine ⟨nofun, ?_⟩
      rintro ⟨before, a, after, hsplit, -⟩
      cases before <;> cases hsplit
  | cons a as ih =>
      rw [List.mapM_cons, bind_eq_error, firstOf_cons, ← ih]
      refine or_congr_right ⟨?_, ?_⟩
      · rintro ⟨b, hb, hrest⟩
        refine ⟨⟨b, hb⟩, ?_⟩
        rcases bind_eq_error.mp hrest with hfails | ⟨bs, -, hdone⟩
        · exact hfails
        · cases hdone
      · rintro ⟨⟨b, hb⟩, hfails⟩
        exact ⟨b, hb, bind_eq_error.mpr (.inl hfails)⟩

namespace Escapes

variable {result : Except Failure α} {p q : Failure → Prop}

theorem ok (a : α) : Escapes (.ok a) fun _ => False :=
  fun _ _ => ⟨nofun, nofun⟩

theorem error (cause : Failure) : Escapes (.error cause : Except Failure α) (· = cause) :=
  fun failure _ => ⟨fun h => (Except.error.inj h).symm, fun h => by rw [h]⟩

theorem defective (defect : Artifact.Defect) :
    Escapes (Artifact.defective defect : Except Failure α) fun _ => False := by
  refine fun failure hdefect => ⟨fun h => ?_, nofun⟩
  rw [← Except.error.inj h] at hdefect
  cases hdefect

theorem orDefect (defect : Artifact.Defect) (value : Option α) :
    Escapes (Artifact.orDefect defect value) fun _ => False := by
  cases value with
  | none => exact defective defect
  | some value => exact ok value

theorem congr (h : Escapes result p) (hpq : ∀ failure, p failure ↔ q failure) :
    Escapes result q :=
  fun failure hdefect => (h failure hdefect).trans (hpq failure)

theorem bind {first : Except Failure α} {next : α → Except Failure β} {q : α → Failure → Prop}
    (hfirst : Escapes first p) (hnext : ∀ a, Escapes (next a) (q a)) :
    Escapes (first >>= next) fun failure => p failure ∨ ∃ a, first = .ok a ∧ q a failure := by
  intro failure hdefect
  rw [bind_eq_error, hfirst failure hdefect]
  exact or_congr_right (exists_congr fun a => and_congr_right fun _ => hnext a failure hdefect)

theorem bind_none {first : Except Failure α} {next : α → Except Failure β}
    (hfirst : Escapes first fun _ => False) (hnext : ∀ a, Escapes (next a) fun _ => False) :
    Escapes (first >>= next) fun _ => False :=
  (hfirst.bind hnext).congr fun failure => by simp only [and_false, exists_false, or_false]

/-- There is one cause, and it is known when it arises. -/
theorem of_cause {cause : Failure} {arises : Prop} (hcause : arises → result = .error cause)
    (hnone : ¬arises → Escapes result fun _ => False) :
    Escapes result fun failure => failure = cause ∧ arises := by
  by_cases h : arises
  · rw [hcause h]
    exact (error cause).congr fun failure => (and_iff_left h).symm
  · exact (hnone h).congr fun failure => ⟨False.elim, fun hand => h hand.2⟩

theorem map (h : Escapes result p) (f : α → β) : Escapes (result.map f) p := by
  intro failure hdefect
  rw [map_eq_error]
  exact h failure hdefect

/-- The first item of a list that is not read. -/
theorem mapM {f : α → Except Failure β} {p : α → Failure → Prop} (h : ∀ a, Escapes (f a) (p a))
    (as : List α) :
    Escapes (as.mapM f) fun failure =>
      FirstOf (fun a => ∃ b, f a = .ok b) (fun a => p a failure) as := by
  intro failure hdefect
  have hitem (a : α) : f a = .error failure ↔ p a failure := h a failure hdefect
  simp only [mapM_eq_error_iff, hitem]

end Escapes

namespace Artifact

/-! ## Interface -/

/-- In a value there are parameters inside one another, so many of them below
the first one. -/
inductive Nests : Nat → Json → Prop
  | outermost (value : Json) : Nests 0 value
  | inside {depth : Nat} {fields : Json.Fields} {items : List Json} {item : Json}
      (hitems : Abi.elements (Json.Fields.getD fields "components") = .ok items)
      (hmem : item ∈ items) (hitem : Nests depth item) : Nests (depth + 1) (.obj fields)

theorem elements_ne_tooDeep (value : Json) : Abi.elements value ≠ .error .tooDeep := by
  cases value <;> nofun

/-- A list of parameters is too deep only because of one of them. -/
theorem exists_mem_of_listOf {levels : Nat} {value : Json}
    (h : Abi.Param.listOf levels value = .error .tooDeep) :
    ∃ items item, Abi.elements value = .ok items ∧ item ∈ items ∧
      Abi.Param.ofJson levels item = .error .tooDeep := by
  rcases bind_eq_error.mp h with hfails | ⟨items, hitems, hfails⟩
  · exact absurd hfails (elements_ne_tooDeep value)
  · obtain ⟨before, item, after, rfl, -, hitem⟩ := mapM_eq_error_iff.mp hfails
    exact ⟨_, item, hitems, by simp, hitem⟩

/-- A parameter is too deep only if it goes on below the last level. -/
theorem nests_of_ofJson {levels : Nat} {value : Json}
    (h : Abi.Param.ofJson levels value = .error .tooDeep) : Nests levels value := by
  induction levels generalizing value with
  | zero => exact .outermost value
  | succ levels ih =>
      cases value with
      | obj fields =>
          rw [Abi.Param.ofJson] at h
          split at h
          · cases h
          · rcases bind_eq_error.mp h with hfails | ⟨components, -, hdone⟩
            · obtain ⟨items, item, hitems, hmem, hitem⟩ :=
                exists_mem_of_listOf (map_eq_error.mp hfails)
              exact .inside hitems hmem (ih hitem)
            · cases hdone
      | _ => cases h

/-- The values of an entry's inputs and outputs. -/
def parametersIn (entry : Json.Fields) : List Json :=
  [(Entries.get? entry "inputs").getD (.arr []), (Entries.get? entry "outputs").getD (.arr [])]

/-- A parameter of an entry goes on below the last level. -/
def EntryNests (levels : Nat) (entry : Json.Fields) : Prop :=
  ∃ value ∈ parametersIn entry, ∃ items, Abi.elements value = .ok items ∧
    ∃ item ∈ items, Nests levels item

theorem entryNests_of_ofFields {levels : Nat} {entry : Json.Fields}
    (h : Abi.Entry.ofFields levels entry = .error .tooDeep) : EntryNests levels entry := by
  have hlist {value : Json} (hmem : value ∈ parametersIn entry)
      (hfails : Abi.Param.listOf levels value = .error .tooDeep) : EntryNests levels entry := by
    obtain ⟨items, item, hitems, hitem, hdeep⟩ := exists_mem_of_listOf hfails
    exact ⟨value, hmem, items, hitems, item, hitem, nests_of_ofJson hdeep⟩
  rcases bind_eq_error.mp h with hinputs | ⟨inputs, -, hrest⟩
  · exact hlist (List.mem_cons_self ..) hinputs
  · rcases bind_eq_error.mp hrest with houtputs | ⟨outputs, -, hdone⟩
    · exact hlist (List.mem_cons_of_mem _ (List.mem_cons_self ..)) houtputs
    · cases hdone

/-- Reading an interface comes to an entry that is too deep. -/
def InterfaceIsTooDeep (levels : Nat) (value : Json) : Prop :=
  ∃ items entries, value = .arr items ∧ objects? items = some entries ∧
    FirstOf (fun entry => ∃ read, Abi.Entry.ofFields levels entry = .ok read)
      (fun entry => Abi.Entry.ofFields levels entry = .error .tooDeep) entries

theorem readInterface_of_isTooDeep (contract : String) {levels : Nat} {value : Json}
    (h : InterfaceIsTooDeep levels value) :
    readInterface contract levels value = .error .tooManySteps := by
  obtain ⟨items, entries, rfl, hobjects, hfirst⟩ := h
  simp only [readInterface, hobjects, mapM_eq_error_iff.mpr hfirst]

theorem escapes_readInterface (contract : String) (levels : Nat) (value : Json) :
    Escapes (readInterface contract levels value) fun failure =>
      failure = .tooManySteps ∧ InterfaceIsTooDeep levels value := by
  refine .of_cause (readInterface_of_isTooDeep contract) fun hshallow => ?_
  unfold readInterface
  split
  · exact .ok _
  · split
    · exact .defective _
    · rename_i hobjects
      split
      · exact .ok _
      · exact .defective _
      · rename_i hdeep
        exact absurd ⟨_, _, rfl, hobjects, mapM_eq_error_iff.mp hdeep⟩ hshallow
  · exact .defective _

/-! ## Link references -/

/-- The offset in a field of a reference is an infinite number. -/
def HasInfinite (reference : Json) (field : String) : Prop :=
  ∃ fields negative, reference = .obj fields ∧
    Entries.get? fields field = some (.float (.infinite negative))

/-- Reading a reference comes to an infinite offset. -/
def MeetsInfinite (library : LibraryId) (reference : Json) : Prop :=
  HasInfinite reference "start" ∨
    (∃ start, readOffset library reference "start" = .ok start) ∧ HasInfinite reference "length"

/-- Reading the references of a library comes to an infinite offset. -/
def SlotsMeetInfinite (library : LibraryId) (value : Json) : Prop :=
  ∃ references, value = .arr references ∧
    FirstOf (fun reference => ∃ slot, readSlot library reference = .ok slot)
      (MeetsInfinite library) references

theorem readOffset_of_hasInfinite (library : LibraryId) {reference : Json} {field : String}
    (h : HasInfinite reference field) : readOffset library reference field = .error .infinite := by
  obtain ⟨fields, negative, rfl, hget⟩ := h
  simp only [readOffset, hget]

theorem escapes_readOffset (library : LibraryId) (reference : Json) (field : String) :
    Escapes (readOffset library reference field) fun failure =>
      failure = .infinite ∧ HasInfinite reference field := by
  refine .of_cause (readOffset_of_hasInfinite library) fun hfinite => ?_
  unfold readOffset
  split
  · split
    · exact .defective _
    · exact .ok _
    · exact .ok _
    · rename_i negative hget
      exact absurd ⟨_, negative, rfl, hget⟩ hfinite
    · exact .orDefect _ _
    · exact .orDefect _ _
    · exact .defective _
  · exact .defective _

theorem escapes_readSlot (library : LibraryId) (reference : Json) :
    Escapes (readSlot library reference) fun failure =>
      failure = .infinite ∧ MeetsInfinite library reference := by
  refine ((escapes_readOffset library reference "start").bind fun start =>
    (escapes_readOffset library reference "length").bind fun length =>
      Escapes.ok (Slot.mk start length)).congr fun failure => ?_
  simp only [MeetsInfinite, and_false, exists_false, or_false]
  constructor
  · rintro (⟨hfailure, hstart⟩ | ⟨start, hread, hfailure, hlength⟩)
    · exact ⟨hfailure, .inl hstart⟩
    · exact ⟨hfailure, .inr ⟨⟨start, hread⟩, hlength⟩⟩
  · rintro ⟨hfailure, hstart | ⟨⟨start, hread⟩, hlength⟩⟩
    · exact .inl ⟨hfailure, hstart⟩
    · exact .inr ⟨start, hread, hfailure, hlength⟩

theorem escapes_readSlots (library : LibraryId) (value : Json) :
    Escapes (readSlots library value) fun failure =>
      failure = .infinite ∧ SlotsMeetInfinite library value := by
  cases value with
  | arr references =>
      refine (Escapes.mapM (escapes_readSlot library) references).congr fun failure => ?_
      rw [firstOf_and]
      simp only [SlotsMeetInfinite, Json.arr.injEq, exists_eq_left']
  | _ =>
      refine (Escapes.defective _).congr fun failure => ⟨False.elim, ?_⟩
      rintro ⟨-, references, ⟨⟩, -⟩

/-- Readers of the values of an object. -/
theorem escapes_fields {f : String → Json → Except Failure β} {meets : String → Json → Prop}
    (h : ∀ key value, Escapes (f key value) fun failure => failure = .infinite ∧ meets key value)
    (fields : Json.Fields) :
    Escapes (fields.mapM fun (key, value) => (f key value).map (key, ·)) fun failure =>
      failure = .infinite ∧ FirstOf (fun field => ∃ read, f field.1 field.2 = .ok read)
        (fun field => meets field.1 field.2) fields := by
  have hfield (field : String × Json) :
      Escapes ((f field.1 field.2).map (field.1, ·)) fun failure =>
        failure = .infinite ∧ meets field.1 field.2 :=
    (h field.1 field.2).map _
  refine (Escapes.mapM hfield fields).congr fun failure => ?_
  rw [firstOf_and]
  simp only [exists_map_eq_ok]

/-- Reading the references of a file comes to an infinite offset. -/
def FileMeetsInfinite (file : String) (value : Json) : Prop :=
  ∃ libraries, value = .obj libraries ∧
    FirstOf (fun library => ∃ slots, readSlots ⟨file, library.1⟩ library.2 = .ok slots)
      (fun library => SlotsMeetInfinite ⟨file, library.1⟩ library.2) libraries

theorem escapes_readFileLinks (file : String) (value : Json) :
    Escapes (readFileLinks file value) fun failure =>
      failure = .infinite ∧ FileMeetsInfinite file value := by
  cases value with
  | obj libraries =>
      refine (escapes_fields (fun name => escapes_readSlots ⟨file, name⟩) libraries).congr
        fun failure => ?_
      simp only [FileMeetsInfinite, Json.obj.injEq, exists_eq_left']
  | _ =>
      refine (Escapes.defective _).congr fun failure => ⟨False.elim, ?_⟩
      rintro ⟨-, libraries, ⟨⟩, -⟩

/-- Reading the link references of an artifact comes to an infinite offset. -/
def LinksMeetInfinite (value : Json) : Prop :=
  ∃ files, value = .obj files ∧
    FirstOf (fun file => ∃ links, readFileLinks file.1 file.2 = .ok links)
      (fun file => FileMeetsInfinite file.1 file.2) files

theorem escapes_readLinks (value : Json) :
    Escapes (readLinks value) fun failure =>
      failure = .infinite ∧ LinksMeetInfinite value := by
  cases value with
  | obj files =>
      refine (escapes_fields escapes_readFileLinks files).congr fun failure => ?_
      simp only [LinksMeetInfinite, Json.obj.injEq, exists_eq_left']
  | _ =>
      refine (Escapes.defective _).congr fun failure => ⟨False.elim, ?_⟩
      rintro ⟨-, files, ⟨⟩, -⟩

/-! ## Metadata -/

/-- The metadata of a document, as they are found. -/
def metadataIn (fields : Json.Fields) : Json :=
  if (fields.getD "metadata").isNull then fields.getD "rawMetadata" else fields.getD "metadata"

/-- The metadata are in a text that is not read because of a limit. -/
def HasUnread (cause : Json.ReadError) (levels : Nat) (fields : Json.Fields) : Prop :=
  ∃ text, metadataIn fields = .str text ∧ Json.read text.toList levels = .error cause

theorem readMetadata_of_integerTooLong {fields : Json.Fields} {levels : Nat}
    (h : HasUnread .integerTooLong levels fields) :
    readMetadata fields levels = .error .integerTooLong := by
  obtain ⟨text, hfound, hread⟩ := h
  unfold metadataIn at hfound
  simp only [readMetadata, hfound, hread]
  rfl

theorem readMetadata_of_tooDeep {fields : Json.Fields} {levels : Nat}
    (h : HasUnread .tooDeep levels fields) :
    readMetadata fields levels = .error .tooManySteps := by
  obtain ⟨text, hfound, hread⟩ := h
  unfold metadataIn at hfound
  simp only [readMetadata, hfound, hread]
  rfl

theorem escapes_readMetadata (fields : Json.Fields) (levels : Nat) :
    Escapes (readMetadata fields levels) fun failure =>
      (failure = .integerTooLong ∧ HasUnread .integerTooLong levels fields) ∨
      (failure = .tooManySteps ∧ HasUnread .tooDeep levels fields) := by
  by_cases hlong : HasUnread .integerTooLong levels fields
  · have hshallow : ¬HasUnread .tooDeep levels fields := by
      obtain ⟨text, hfound, hread⟩ := hlong
      rintro ⟨other, hother, hdeep⟩
      obtain rfl := Json.str.inj (hfound.symm.trans hother)
      rw [hread] at hdeep
      cases hdeep
    rw [readMetadata_of_integerTooLong hlong]
    exact (Escapes.error .integerTooLong).congr fun failure => by simp [hlong, hshallow]
  · refine Escapes.congr (.of_cause readMetadata_of_tooDeep fun hshallow => ?_)
      fun failure => by simp [hlong]
    unfold readMetadata
    simp only
    split
    case' h_1 text hfound => split
    case h_2 hread => exact absurd ⟨text, hfound, hread⟩ hlong
    case h_3 hread => exact absurd ⟨text, hfound, hread⟩ hshallow
    -- whatever was found, its settings have to be an object
    all_goals
      refine (Escapes.ok _).bind_none fun value => ?_
      split
      · split
        · exact .ok _
        · exact .ok _
        · exact .defective _
      · exact .ok _

/-! ## Artifacts -/

/-- What is read of a document before its link references is in order. -/
def ReachesLinks (fields : Json.Fields) (contract : String) (host : Host) : Prop :=
  (∃ abi, readInterface contract host.paramLevels (fields.getD "abi") = .ok abi) ∧
    ∃ bytecode, readBytecode (codeOf fields).1 = .ok bytecode

/-- What is read of a document before its metadata is in order, and nothing
is wrong with the characters of its bytecode. -/
def ReachesMetadata (fields : Json.Fields) (contract : String) (host : Host) : Prop :=
  (∃ abi, readInterface contract host.paramLevels (fields.getD "abi") = .ok abi) ∧
    ∃ bytecode links, readBytecode (codeOf fields).1 = .ok bytecode ∧
      readLinks (codeOf fields).2 = .ok links ∧ bytecodeDefect? bytecode links = none

theorem escapes_readBytecode (value : Json) : Escapes (readBytecode value) fun _ => False := by
  unfold readBytecode
  split
  · exact .ok _
  · exact .defective _

/-- A document in a text or in bytes that is too deep to be read. -/
def Document.IsTooDeep (levels : Nat) : Document → Prop
  | .text content => Json.read content levels = .error .tooDeep
  | .bytes content => Json.readBytes content levels = .error .tooDeep
  | .object _ => False

theorem escapes_fieldsOf (document : Document) (levels : Nat) :
    Escapes (document.fields levels) fun failure =>
      failure = .tooManySteps ∧ document.IsTooDeep levels := by
  have hread (found : Except Json.ReadError Json) :
      Escapes (Document.fields.ofRead found) fun failure =>
        failure = .tooManySteps ∧ found = .error .tooDeep := by
    refine .of_cause (fun hdeep => by rw [hdeep]; rfl) fun hshallow => ?_
    unfold Document.fields.ofRead
    split
    · exact .ok _
    · exact .defective _
    · exact absurd rfl hshallow
    · exact .defective _
  cases document with
  | object fields => exact (Escapes.ok fields).congr fun failure => ⟨False.elim, fun h => h.2⟩
  | text content => exact hread _
  | bytes content => exact hread _

/-- The failures besides defects of reading the fields of a document. -/
def FieldsEscape (fields : Json.Fields) (contract : String) (host : Host)
    (failure : Failure) : Prop :=
  (failure = .tooManySteps ∧ InterfaceIsTooDeep host.paramLevels (fields.getD "abi")) ∨
    (failure = .infinite ∧ ReachesLinks fields contract host ∧
      LinksMeetInfinite (codeOf fields).2) ∨
    (ReachesMetadata fields contract host ∧
      ((failure = .integerTooLong ∧ HasUnread .integerTooLong host.levels fields) ∨
        (failure = .tooManySteps ∧ HasUnread .tooDeep host.levels fields)))

theorem escapes_ofFields (fields : Json.Fields) (contract : String) (host : Host) :
    Escapes (ofFields fields contract host) (FieldsEscape fields contract host) := by
  refine ((escapes_readInterface contract _ _).bind fun abi => (escapes_readBytecode _).bind
    fun bytecode => (escapes_readLinks _).bind (?_ : ∀ links, Escapes _ fun failure =>
      bytecodeDefect? bytecode links = none ∧
        ((failure = .integerTooLong ∧ HasUnread .integerTooLong host.levels fields) ∨
          (failure = .tooManySteps ∧ HasUnread .tooDeep host.levels fields)))).congr
      fun failure => ?_
  · intro links
    unfold checkBytecode
    cases hdefect : bytecodeDefect? bytecode links with
    | some defect =>
        change Escapes (defective defect) _
        exact (Escapes.defective defect).congr fun failure => ⟨False.elim, fun h => nomatch h.1⟩
    | none =>
        refine ((escapes_readMetadata fields host.levels).bind fun metadata =>
          (Escapes.orDefect (.shape contract) (sourceOf? fields metadata)).bind fun source =>
            (Escapes.orDefect (.shape contract)
              (compilerOf? host.decode metadata bytecode)).bind fun compiler =>
              Escapes.ok (Artifact.mk contract abi bytecode links source compiler)).congr
          fun failure => ?_
        simp only [and_false, exists_false, or_false, true_and]
  · constructor
    · rintro (hdeep | ⟨abi, habi, ⟨⟨⟩⟩ | ⟨bytecode, hbytecode, ⟨rfl, hmeets⟩ |
        ⟨links, hlinks, hdefect, hunread⟩⟩⟩)
      · exact .inl hdeep
      · exact .inr (.inl ⟨rfl, ⟨⟨abi, habi⟩, bytecode, hbytecode⟩, hmeets⟩)
      · exact .inr (.inr ⟨⟨⟨abi, habi⟩, bytecode, links, hbytecode, hlinks, hdefect⟩, hunread⟩)
    · rintro (hdeep | ⟨rfl, ⟨⟨abi, habi⟩, bytecode, hbytecode⟩, hmeets⟩ |
        ⟨⟨⟨abi, habi⟩, bytecode, links, hbytecode, hlinks, hdefect⟩, hunread⟩)
      · exact .inl hdeep
      · exact .inr ⟨abi, habi, .inr ⟨bytecode, hbytecode, .inl ⟨rfl, hmeets⟩⟩⟩
      · refine .inr ⟨abi, habi, .inr ⟨bytecode, hbytecode, .inr ?_⟩⟩
        exact ⟨links, hlinks, hdefect, hunread⟩

/-- Reading a document comes to an infinite offset. -/
def MeetsInfinity (document : Document) (contract : String) (host : Host) : Prop :=
  ∃ fields, document.fields host.levels = .ok fields ∧ ReachesLinks fields contract host ∧
    LinksMeetInfinite (codeOf fields).2

/-- Reading a document comes to metadata with an integer that is too long. -/
def MeetsLongInteger (document : Document) (contract : String) (host : Host) : Prop :=
  ∃ fields, document.fields host.levels = .ok fields ∧ ReachesMetadata fields contract host ∧
    HasUnread .integerTooLong host.levels fields

/-- Reading a document comes to something that is too deep: the document, an
entry of its interface, or its metadata. -/
def MeetsDepth (document : Document) (contract : String) (host : Host) : Prop :=
  document.IsTooDeep host.levels ∨
    ∃ fields, document.fields host.levels = .ok fields ∧
      (InterfaceIsTooDeep host.paramLevels (fields.getD "abi") ∨
        ReachesMetadata fields contract host ∧ HasUnread .tooDeep host.levels fields)

theorem escapes_read (document : Document) (contract : String) (host : Host) :
    Escapes (read document contract host) fun failure =>
      (failure = .infinite ∧ MeetsInfinity document contract host) ∨
      (failure = .integerTooLong ∧ MeetsLongInteger document contract host) ∨
      (failure = .tooManySteps ∧ MeetsDepth document contract host) := by
  refine ((escapes_fieldsOf document host.levels).bind fun fields =>
    escapes_ofFields fields contract host).congr fun failure => ?_
  constructor
  · rintro (⟨hfailure, hdeep⟩ | ⟨fields, hfields, ⟨hfailure, hdeep⟩ | ⟨hfailure, hmeets⟩ |
      ⟨hreaches, ⟨hfailure, hunread⟩ | ⟨hfailure, hunread⟩⟩⟩)
    · exact .inr (.inr ⟨hfailure, .inl hdeep⟩)
    · exact .inr (.inr ⟨hfailure, .inr ⟨fields, hfields, .inl hdeep⟩⟩)
    · exact .inl ⟨hfailure, fields, hfields, hmeets⟩
    · exact .inr (.inl ⟨hfailure, fields, hfields, hreaches, hunread⟩)
    · exact .inr (.inr ⟨hfailure, .inr ⟨fields, hfields, .inr ⟨hreaches, hunread⟩⟩⟩)
  · rintro (⟨hfailure, fields, hfields, hmeets⟩ |
      ⟨hfailure, fields, hfields, hreaches, hunread⟩ |
      ⟨hfailure, hdeep | ⟨fields, hfields, hdeep | ⟨hreaches, hunread⟩⟩⟩)
    · exact .inr ⟨fields, hfields, .inr (.inl ⟨hfailure, hmeets⟩)⟩
    · exact .inr ⟨fields, hfields, .inr (.inr ⟨hreaches, .inl ⟨hfailure, hunread⟩⟩)⟩
    · exact .inl ⟨hfailure, hdeep⟩
    · exact .inr ⟨fields, hfields, .inl ⟨hfailure, hdeep⟩⟩
    · exact .inr ⟨fields, hfields, .inr (.inr ⟨hreaches, .inr ⟨hfailure, hunread⟩⟩)⟩

/-- The text of a document that arrives as a text or as bytes. -/
def Document.text? : Document → Option (List Char)
  | .text content => some content
  | .bytes content => (Json.Encoding.detect content).1.decode? (Json.Encoding.detect content).2
  | .object _ => none

theorem Document.IsTooDeep.openings {document : Document} {levels : Nat}
    (h : document.IsTooDeep levels) :
    ∃ text, document.text? = some text ∧ levels < Json.openings text := by
  cases document with
  | text content => exact ⟨content, rfl, Json.lt_openings_of_read h⟩
  | bytes content =>
      simp only [IsTooDeep, Json.readBytes] at h
      split at h
      · rename_i text hdecode
        exact ⟨text, hdecode, Json.lt_openings_of_read h⟩
      · cases h
  | object fields => exact h.elim

/-- Something in a document goes deeper than the host follows: more lists and
objects open in its text or in its metadata, or more parameters of an entry
are inside one another, than there are levels. -/
def IsBeyond (document : Document) (host : Host) : Prop :=
  (∃ text, document.text? = some text ∧ host.levels < Json.openings text) ∨
    ∃ fields, document.fields host.levels = .ok fields ∧
      ((∃ items entries entry, fields.getD "abi" = .arr items ∧ objects? items = some entries ∧
          entry ∈ entries ∧ EntryNests host.paramLevels entry) ∨
        ∃ text, metadataIn fields = .str text ∧ host.levels < Json.openings text.toList)

theorem MeetsDepth.isBeyond {document : Document} {contract : String} {host : Host}
    (h : MeetsDepth document contract host) : IsBeyond document host := by
  rcases h with hdeep | ⟨fields, hfields, hdeep | ⟨-, text, hfound, hread⟩⟩
  · exact .inl hdeep.openings
  · obtain ⟨items, entries, hitems, hobjects, before, entry, after, rfl, -, hentry⟩ := hdeep
    exact .inr ⟨fields, hfields, .inl ⟨items, _, entry, hitems, hobjects, by simp,
      entryNests_of_ofFields hentry⟩⟩
  · exact .inr ⟨fields, hfields, .inr ⟨text, hfound, Json.lt_openings_of_read hread⟩⟩

/-- A document gives an artifact or a defect but for three exceptions, whatever
stands in it, whatever the contract is called and whatever the limits are. It
fails for an infinite number if and only if reading comes to one as an offset,
for an integer with too many digits if and only if reading comes to one in
metadata that are in a text, and for its depth if and only if reading comes to
something too deep. So many digits do stand in that text then, and so many
values do open or so many parameters are inside one another. -/
theorem read_total (document : Document) (contract : String) (host : Host) :
    (read document contract host = .error .infinite ↔ MeetsInfinity document contract host) ∧
      (read document contract host = .error .integerTooLong ↔
        MeetsLongInteger document contract host) ∧
      (read document contract host = .error .tooManySteps ↔
        MeetsDepth document contract host) ∧
      ((∃ artifact, read document contract host = .ok artifact) ∨
        (∃ defect, read document contract host = .error (.malformed defect)) ∨
        MeetsInfinity document contract host ∨ MeetsLongInteger document contract host ∨
        MeetsDepth document contract host) ∧
      (MeetsLongInteger document contract host →
        ∃ fields text, document.fields host.levels = .ok fields ∧
          metadataIn fields = .str text ∧ Json.HasLongRun text.toList) ∧
      (MeetsDepth document contract host → IsBeyond document host) := by
  have hescapes := escapes_read document contract host
  refine ⟨?_, ?_, ?_, ?_, ?_, MeetsDepth.isBeyond⟩
  · rw [hescapes .infinite rfl]
    simp
  · rw [hescapes .integerTooLong rfl]
    simp
  · rw [hescapes .tooManySteps rfl]
    simp
  · cases hread : read document contract host with
    | ok artifact => exact .inl ⟨artifact, rfl⟩
    | error failure =>
        cases hdefect : failure.isDefect with
        | true =>
            obtain ⟨defect, rfl⟩ := Failure.exists_of_isDefect hdefect
            exact .inr (.inl ⟨defect, rfl⟩)
        | false =>
            rcases (hescapes failure hdefect).mp hread with
              ⟨-, hmeets⟩ | ⟨-, hmeets⟩ | ⟨-, hmeets⟩
            · exact .inr (.inr (.inl hmeets))
            · exact .inr (.inr (.inr (.inl hmeets)))
            · exact .inr (.inr (.inr (.inr hmeets)))
  · rintro ⟨fields, hfields, -, text, hfound, hread⟩
    exact ⟨fields, text, hfields, hfound, Json.hasLongRun_of_read hread⟩

/-- A document that is in order but for an infinite offset. -/
def infiniteOffset : Document :=
  .text ("\x7b\"bytecode\": \x7b\"object\": \"aa\", \"linkReferences\": " ++
    "\x7b\"c.sol\": \x7b\"Calc\": [\x7b\"start\": Infinity, \"length\": 20\x7d]\x7d\x7d\x7d\x7d").toList

/-- A document that is in order but for an integer in its metadata. -/
def longMetadata : Json.Fields :=
  [("metadata", .str (String.ofList (List.replicate 4301 '1')))]

theorem hasUnread_longMetadata :
    HasUnread .integerTooLong Host.usual.levels longMetadata := by
  have hread : Json.read (String.ofList (List.replicate 4301 '1')).toList Host.usual.levels =
      .error .integerTooLong := by
    rw [String.toList_ofList]
    exact eq_error_of_check (by decide +kernel)
  exact ⟨_, rfl, hread⟩

/-- None of the documents gives an artifact or a defect. -/
theorem read_not_total :
    read infiniteOffset "Bad" = .error .infinite ∧
      read (.object longMetadata) "Bad" = .error .integerTooLong ∧
      read (.text (List.replicate 991 '[')) "Bad" = .error .tooManySteps := by
  refine ⟨eq_error_of_check (by decide +kernel), ?_, ?_⟩
  · have hreaches : ReachesMetadata longMetadata "Bad" .usual := ⟨⟨[], rfl⟩, [], [], rfl, rfl, rfl⟩
    refine (escapes_read (.object longMetadata) "Bad" .usual .integerTooLong rfl).mpr
      (.inr (.inl ⟨rfl, longMetadata, rfl, hreaches, hasUnread_longMetadata⟩))
  · exact (escapes_read (.text (List.replicate 991 '[')) "Bad" .usual .tooManySteps rfl).mpr
      (.inr (.inr ⟨rfl, .inl (Json.read_replicate Json.usualLevels)⟩))

end Artifact

end SolDeployer
