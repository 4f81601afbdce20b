import SolDeployer.Artifact.Reader
import SolDeployer.Platform.Lookup
import SolDeployer.Proofs.Report

/-!
# The file that a lookup finds

A lookup narrows the candidates down in two stages, and either is skipped
where at most one candidate is left. So the file it finds is the only
candidate from its source, or the only one of these with the version
(`find_ok`). The stage for the source compares names of directories, and
falls back on all candidates: a file from elsewhere is left only if no
candidate is from there (`isFrom_iff`).
-/

namespace SolDeployer

/-- Filtering with a test that may fail succeeds if the test does on all
items, and keeps those that pass. -/
theorem filterM_eq_ok {ε α : Type} {test : α → Except ε Bool} {items kept : List α} :
    items.filterM test = .ok kept ↔ (∀ a ∈ items, ∃ answer, test a = .ok answer) ∧
      items.filter (fun a => (test a).toOption == some true) = kept := by
  have haux : ∀ found kept, items.filterAuxM test found = .ok kept ↔
      (∀ a ∈ items, ∃ answer, test a = .ok answer) ∧
        (items.filter (fun a => (test a).toOption == some true)).reverse ++ found = kept := by
    induction items with
    | nil =>
        intro found kept
        show Except.ok found = .ok kept ↔ _
        simp
    | cons a rest ih =>
        intro found kept
        show test a >>= (fun answer => rest.filterAuxM test (cond answer (a :: found) found)) =
          .ok kept ↔ _
        simp only [bind_eq_ok, ih, List.forall_mem_cons, List.filter_cons]
        constructor
        · rintro ⟨answer, hanswer, hrest, rfl⟩
          refine ⟨⟨⟨answer, hanswer⟩, hrest⟩, ?_⟩
          cases answer <;> simp [hanswer, Except.toOption]
        · rintro ⟨⟨⟨answer, hanswer⟩, hrest⟩, rfl⟩
          refine ⟨answer, hanswer, hrest, ?_⟩
          cases answer <;> simp [hanswer, Except.toOption]
  show items.filterAuxM test [] >>= (fun found => .ok found.reverse) = .ok kept ↔ _
  simp only [bind_eq_ok, haux, List.append_nil, Except.ok.injEq]
  constructor
  · rintro ⟨_, ⟨hanswers, rfl⟩, rfl⟩
    exact ⟨hanswers, (List.reverse_reverse _).symm⟩
  · rintro ⟨hanswers, rfl⟩
    exact ⟨_, ⟨hanswers, rfl⟩, List.reverse_reverse _⟩

namespace Platform

open Files (Disk Path)

variable {platform : Platform} {disk : Disk} {contract : String} {source? : Option String}
  {host : Host} {levels : Nat} {version : Json} {found : List Path} {path : Path}

/-- The file at a path holds an artifact of a contract. -/
def Holds (host : Host) (disk : Disk) (contract : String) (path : Path) (artifact : Artifact) :
    Prop :=
  ∃ text, disk.readText path.text = .ok text ∧
    Artifact.read (.text text) contract host = .ok artifact

theorem Holds.unique {artifact other : Artifact} (h : Holds host disk contract path artifact)
    (hother : Holds host disk contract path other) : artifact = other := by
  obtain ⟨text, htext, hread⟩ := h
  obtain ⟨again, hagain, hreadAgain⟩ := hother
  obtain rfl := Except.ok.inj (htext.symm.trans hagain)
  exact Except.ok.inj (hread.symm.trans hreadAgain)

/-- What a file holds can be seen by reading it. -/
theorem Holds.of_check {check : Artifact → Bool}
    (h : (disk.readText path.text >>= fun text =>
      Artifact.read (.text text) contract host).toOption.any check = true) :
    ∃ artifact, Holds host disk contract path artifact ∧ check artifact = true := by
  obtain ⟨artifact, hartifact, hcheck⟩ := exists_of_any h
  obtain ⟨text, htext, hread⟩ := bind_eq_ok.mp hartifact
  exact ⟨artifact, ⟨text, htext, hread⟩, hcheck⟩

/-- The last part of the path of a source file. -/
def baseName (source : String) : String := (Path.ofText source).name

/-- The directory of a candidate is named like a source file. -/
def IsFrom (source : String) (path : Path) : Prop := path.parent.name = baseName source

/-! ## The stages -/

/-- The candidates that the stage for the source leaves. -/
def ofSource (source? : Option String) (found : List Path) : List Path :=
  match source? with
  | some source => if 1 < found.length then narrowBySource source found else found
  | none => found

/-- The stage for the version, and the one file that is left. -/
def onlyOf (levels : Nat) (disk : Disk) (contract : String) (version : Json) (left : List Path) :
    Except Failure Path := do
  let found ←
    if version.isNull || left.length ≤ 1 then pure left
    else
      match ← left.filterM (isOfVersion levels disk version) with
      | [] => .error (.noArtifactOfCompiler contract version.text)
      | narrowed => pure narrowed
  match found with
  | [path] => return path
  | _ => .error (.ambiguous contract (found.map Path.text))

theorem find_eq : platform.find disk contract source? version =
    platform.candidates disk contract >>= fun found =>
      if found.isEmpty then .error (.noArtifact contract platform.artifacts.text)
      else onlyOf platform.host.levels disk contract version (ofSource source? found) := by
  unfold find onlyOf
  refine bind_congr fun found => ?_
  cases found with
  | nil => rfl
  | cons first rest => rfl

/-- One candidate is left: it is the only one, or the only one of the
version. -/
def Single (levels : Nat) (disk : Disk) (version : Json) (left : List Path) (path : Path) :
    Prop :=
  left = [path] ∨ (1 < left.length ∧ version.isNull = false ∧
    left.filterM (isOfVersion levels disk version) = .ok [path])

theorem Single.mem {left : List Path} (h : Single levels disk version left path) : path ∈ left := by
  rcases h with rfl | ⟨-, -, hfilter⟩
  · exact List.mem_singleton_self path
  · have hpath := List.mem_singleton_self path
    rw [← (filterM_eq_ok.mp hfilter).2] at hpath
    exact (List.mem_filter.mp hpath).1

theorem onlyOf_ok {left : List Path} :
    onlyOf levels disk contract version left = .ok path ↔ Single levels disk version left path := by
  rcases left with _ | ⟨one, _ | ⟨other, rest⟩⟩
  · have hnone : onlyOf levels disk contract version [] = .error (.ambiguous contract []) := by
      simp only [onlyOf, List.length_nil, Nat.zero_le, decide_true, Bool.or_true, if_true]
      rfl
    rw [hnone]
    constructor
    · intro h
      cases h
    · intro h
      exact absurd h.mem List.not_mem_nil
  · have hone : onlyOf levels disk contract version [one] = .ok one := by
      simp only [onlyOf, List.length_singleton, Nat.le_refl, decide_true, Bool.or_true, if_true]
      rfl
    simp [hone, Single]
  · have hmany : decide ((one :: other :: rest).length ≤ 1) = false := by simp
    have hsingle : Single levels disk version (one :: other :: rest) path ↔ version.isNull = false ∧
        (one :: other :: rest).filterM (isOfVersion levels disk version) = .ok [path] := by
      simp [Single]
    rw [hsingle]
    unfold onlyOf
    rw [hmany, Bool.or_false]
    cases version.isNull with
    | true => simp
    | false =>
        -- the answers are those of the filter, and one of them has to be left
        cases (one :: other :: rest).filterM (isOfVersion levels disk version) with
        | error failure => simp [bind, Except.bind]
        | ok kept =>
            rcases kept with _ | ⟨first, _ | ⟨second, more⟩⟩
            · simp [bind, Except.bind]
            · simp [bind, Except.bind, pure, Except.pure]
            · simp [bind, Except.bind, pure, Except.pure]

/-- What a lookup finds. -/
theorem find_ok : platform.find disk contract source? version = .ok path ↔
    ∃ found, platform.candidates disk contract = .ok found ∧
      Single platform.host.levels disk version (ofSource source? found) path := by
  rw [find_eq, bind_eq_ok]
  refine exists_congr fun found => and_congr_right fun _ => ?_
  cases found with
  | nil =>
      have hnil : ofSource source? [] = [] := by cases source? <;> rfl
      rw [hnil]
      constructor
      · intro h
        cases h
      · intro h
        exact absurd h.mem List.not_mem_nil
  | cons first rest => exact onlyOf_ok

/-- A candidate that the stage for the source leaves is from there, unless no
candidate is. -/
theorem isFrom_iff {source : String} (h : path ∈ ofSource (some source) found) :
    path ∈ found ∧ (IsFrom source path ↔ ∃ other ∈ found, IsFrom source other) := by
  have hsome (hmem : path ∈ found) (hfrom : IsFrom source path) :
      ∃ other ∈ found, IsFrom source other := ⟨path, hmem, hfrom⟩
  change path ∈ (if 1 < found.length then narrowBySource source found else found) at h
  split at h
  · unfold narrowBySource at h
    simp only at h
    split at h
    · rename_i hnone
      rw [List.isEmpty_iff, List.filter_eq_nil_iff] at hnone
      refine ⟨h, hsome h, ?_⟩
      rintro ⟨other, hother, hfrom⟩
      exact absurd (beq_iff_eq.mpr hfrom) (hnone other hother)
    · obtain ⟨hmem, hnamed⟩ := List.mem_filter.mp h
      exact ⟨hmem, hsome hmem, fun _ => beq_iff_eq.mp hnamed⟩
  · rename_i hfew
    refine ⟨h, hsome h, ?_⟩
    rintro ⟨other, hother, hfrom⟩
    have hsame : other = path := by
      rcases found with _ | ⟨one, _ | ⟨two, rest⟩⟩
      · cases h
      · rw [List.mem_singleton.mp h, List.mem_singleton.mp hother]
      · simp at hfew
    rwa [← hsame]

/-- With no candidate from the source, the stage leaves them all. -/
theorem ofSource_of_none {source : String} (h : ∀ other ∈ found, ¬IsFrom source other) :
    ofSource (some source) found = found := by
  have hnone : found.filter (fun path => path.parent.name == (Path.ofText source).name) = [] :=
    List.filter_eq_nil_iff.mpr fun other hother hfrom => h other hother (beq_iff_eq.mp hfrom)
  show (if 1 < found.length then narrowBySource source found else found) = found
  split
  · simp only [narrowBySource, hnone, List.isEmpty_nil, if_true]
  · rfl

end Platform

end SolDeployer
