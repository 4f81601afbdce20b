import SolDeployer.Proofs.Artifact.Totality
import SolDeployer.Proofs.Project.Generation

/-!
# How a generation may fail

Of all failures there are, a generation ends with two kinds only
(`arises`): those that concern the contract, and a few that come from the
bytes of files, the values in documents and the names of contracts and
leave a batch unfinished (`endsBatch`). One lemma for each function says
that it adds no other failure; `Foreseen` is what they carry along, from
the disk up to the deployer.
-/

namespace SolDeployer

variable {α β : Type}

namespace Failure

/-- The failures that a generation may end with although they do not
concern its contract: a file that is not text, a name that has no bytes, an
integer with too many digits, names that no path or pattern holds, a value
of the wrong type, an infinite offset, what the file system refuses, and
documents that go too deep. -/
def endsBatch : Failure → Bool
  | .undecodable | .integerTooLong | .badPath | .badPattern => true
  | .unexpectedType | .infinite | .fileSystem | .absolutePattern | .tooManySteps => true
  | _ => false

/-- May a generation end with the failure? -/
def arises (failure : Failure) : Bool := failure.concernsContract || failure.endsBatch

theorem endsBatch_of_arises {failure : Failure} (h : failure.arises = true)
    (hconcerns : failure.concernsContract = false) : failure.endsBatch = true := by
  rwa [arises, hconcerns, Bool.false_or] at h

end Failure

/-- If the operation fails, then in a way that a generation may. -/
def Foreseen (result : Except Failure α) : Prop :=
  ∀ failure, result = .error failure → failure.arises = true

namespace Foreseen

theorem ok (a : α) : Foreseen (.ok a) := fun _ h => nomatch h

theorem error {failure : Failure} (h : failure.arises = true) :
    Foreseen (.error failure : Except Failure α) := by
  rintro _ ⟨⟩
  exact h

theorem ite {c : Prop} [Decidable c] {first second : Except Failure α} (hfirst : Foreseen first)
    (hsecond : Foreseen second) : Foreseen (if c then first else second) := by
  split
  · exact hfirst
  · exact hsecond

theorem bind {first : Except Failure α} {next : α → Except Failure β} (hfirst : Foreseen first)
    (hnext : ∀ a, Foreseen (next a)) : Foreseen (first >>= next) := by
  cases first with
  | error failure => exact error (hfirst failure rfl)
  | ok a => exact hnext a

theorem map {first : Except Failure α} (hfirst : Foreseen first) (f : α → β) :
    Foreseen (first.map f) := by
  cases first with
  | error failure => exact error (hfirst failure rfl)
  | ok a => exact ok _

theorem mapM {f : α → Except Failure β} (h : ∀ a, Foreseen (f a)) (as : List α) :
    Foreseen (as.mapM f) := by
  induction as with
  | nil => exact ok _
  | cons a as ih =>
      rw [List.mapM_cons]
      exact bind (h a) fun _ => bind ih fun _ => ok _

theorem filterM {f : α → Except Failure Bool} (h : ∀ a, Foreseen (f a)) (as : List α) :
    Foreseen (as.filterM f) := by
  have haux (found : List α) : Foreseen (as.filterAuxM f found) := by
    induction as generalizing found with
    | nil => exact ok _
    | cons a as ih => exact bind (h a) fun _ => ih _
  exact bind (haux []) fun _ => ok _

end Foreseen

open Foreseen (ok error)

/-! ## Disks -/

namespace Files

theorem Disk.foreseen_inspect (disk : Disk) (path : Path) : Foreseen (disk.inspect path) := by
  unfold inspect
  split
  · exact ok _
  · exact error rfl
  · exact ok _

theorem Disk.foreseen_readText (disk : Disk) (path : String) : Foreseen (disk.readText path) := by
  unfold readText
  split
  · exact error rfl
  · exact error rfl
  · split
    · split
      · exact ok _
      · exact error rfl
    · exact error rfl

theorem Glob.foreseen_ofName (name : String) : Foreseen (Part.ofName name) := by
  unfold Part.ofName
  simp only
  split
  · exact ok _
  · split
    · exact error rfl
    · split <;> exact ok _

theorem Glob.foreseen_partsOf (pattern : String) : Foreseen (partsOf pattern) := by
  unfold partsOf
  simp only
  split
  · exact error rfl
  · exact .mapM foreseen_ofName _

theorem Glob.foreseen_step (disk : Disk) (base : Path) (found : Found) (name : String) :
    Foreseen (step disk base found name) := by
  unfold step
  simp only
  split
  · exact ok _
  · split
    · exact error rfl
    · split
      · exact error rfl
      · exact ok _
      · exact ok _

theorem Glob.foreseen_select (disk : Disk) (base : Path) (parts : List Part) (found : Found) :
    Foreseen (select disk base parts found) := by
  induction parts generalizing found with
  | nil => exact ok _
  | cons part rest ih =>
      cases part with
      | exact name =>
          have hstep := foreseen_step disk base found name
          simp only [select]
          split
          · rename_i failure hfailure
            exact error (hstep failure hfailure)
          · exact ok _
          · split
            · exact ih _
            · exact ok _
      | wild items =>
          simp only [select]
          split
          · exact error rfl
          · exact (Foreseen.mapM ih _).map _
      | anywhere =>
          simp only [select]
          split
          · exact error rfl
          · exact (Foreseen.mapM ih _).map _

theorem Disk.foreseen_glob (disk : Disk) (base : Path) (place : Place) (pattern : String) :
    Foreseen (disk.glob base place pattern) :=
  (Glob.foreseen_partsOf pattern).bind fun _ =>
    (Glob.foreseen_select disk base _ _).bind fun _ => ok _

end Files

/-! ## Looking up -/

namespace Platform

theorem foreseen_candidates (platform : Platform) (disk : Files.Disk) (contract : String) :
    Foreseen (platform.candidates disk contract) := by
  refine ((disk.foreseen_inspect _).map _).bind fun isThere => ?_
  split
  · exact ok _
  · split
    · exact ok _
    · split
      · split
        · exact error rfl
        · exact ok _
      · exact (disk.foreseen_glob _ _ _).bind fun _ => ok _

theorem foreseen_readOrNull (levels : Nat) (text : List Char) :
    Foreseen (readOrNull levels text) := by
  unfold readOrNull
  split
  · exact ok _
  · exact error rfl
  · exact error rfl
  · exact ok _

theorem foreseen_recordedVersion (levels : Nat) (disk : Files.Disk) (path : Files.Path) :
    Foreseen (recordedVersion levels disk path) := by
  refine (disk.foreseen_readText _).bind fun text => ?_
  refine (foreseen_readOrNull levels text).bind fun document => ?_
  split
  · split
    · exact (foreseen_readOrNull _ _).bind fun _ => ok _
    · exact ok _
  · exact ok _

theorem foreseen_isOfVersion (levels : Nat) (disk : Files.Disk) (version : Json)
    (path : Files.Path) : Foreseen (isOfVersion levels disk version path) := by
  refine (foreseen_recordedVersion levels disk path).bind fun recorded => ?_
  split
  · exact ok _
  · exact error rfl

theorem foreseen_find (platform : Platform) (disk : Files.Disk) (contract : String)
    (source? : Option String) (version : Json) :
    Foreseen (platform.find disk contract source? version) := by
  refine (foreseen_candidates platform disk contract).bind fun found => ?_
  refine .ite (error rfl) (.ite ?_ ?_)
  on_goal 2 => refine (Foreseen.filterM (foreseen_isOfVersion _ disk version) _).bind fun _ => ?_
  on_goal 2 => split
  on_goal 2 => exact error rfl
  -- what is left has to be one file, compared by version or not
  all_goals
    refine (ok _).bind fun left => ?_
    simp only
    split
    · exact ok _
    · exact error rfl

theorem foreseen_lookUp (platform : Platform) (disk : Files.Disk) (contract : String)
    (source? : Option String) (version : Json) :
    Foreseen (platform.lookUp disk contract source? version) :=
  (foreseen_find platform disk contract source? version).bind fun path =>
    disk.foreseen_readText path.text

end Platform

/-! ## Documents -/

namespace Artifact

/-- A defect concerns the contract, and the failures besides defects end a
batch. -/
theorem foreseen_read (document : Document) (contract : String) (host : Host) :
    Foreseen (read document contract host) := by
  intro failure hfails
  cases hdefect : failure.isDefect with
  | true =>
      obtain ⟨defect, rfl⟩ := Failure.exists_of_isDefect hdefect
      rfl
  | false =>
      rcases (escapes_read document contract host failure hdefect).mp hfails with
        ⟨rfl, -⟩ | ⟨rfl, -⟩ | ⟨rfl, -⟩
      · rfl
      · rfl
      · rfl

end Artifact

theorem Project.foreseen_artifact (project : Project) (disk : Files.Disk) (key : ArtifactKey) :
    Foreseen (project.artifact disk key) := by
  unfold Project.artifact
  split
  · exact ok _
  · exact (Platform.foreseen_lookUp _ disk _ _ _).bind fun _ => Artifact.foreseen_read _ _ _

/-! ## Resolution -/

theorem Resolved.foreseen_ofVisited (disambiguate : Bool) (visited : List Visited) :
    Foreseen (Resolved.ofVisited disambiguate visited) := by
  unfold Resolved.ofVisited
  simp only
  split
  · split
    · exact ok _
    · exact error rfl
  · exact ok _

/-- A visit that ends fails as its loader does, or with a circle. -/
theorem Traversal.Ends.foreseen {load : Loader} (hload : ∀ id, Foreseen (load id))
    {t : Traversal} {outcome : Traversal.Outcome} (h : Traversal.Ends load t outcome) :
    Foreseen outcome.result := by
  cases h with
  | finished => exact ok _
  | failed hreach hstop =>
      cases hstop with
      | rootFails _ _ _ hfails => exact error (hload _ _ hfails)
      | childFails _ _ _ hfails => exact error (hload _ _ hfails)
      | circular => exact error rfl

namespace Project

theorem foreseen_resolveLibraries (project : Project) (disk : Files.Disk) (artifact : Artifact) :
    Foreseen (project.resolveLibraries disk artifact).1.result := by
  obtain ⟨outcome, hrun⟩ := resolution_runs project disk artifact.links
  have hvisit : Foreseen outcome.result := (Traversal.ends_of_run hrun).foreseen fun id =>
    foreseen_artifact project disk (libraryKey id)
  have hresolve : Foreseen (resolve (project.loader disk)
      (project.resolutionSteps disk artifact.links) project.disambiguate artifact.links).result := by
    simp only [resolve, Traversal.visit_ends hrun]
    exact hvisit.bind (Resolved.foreseen_ofVisited _)
  unfold resolveLibraries
  simp only
  split
  · exact ok _
  · split
    · rename_i failure hfailure
      exact error (hresolve failure hfailure)
    · exact ok _

end Project

/-! ## Deployers -/

theorem Report.foreseen_bind {first : Report α} {next : α → Report β}
    (hfirst : Foreseen first.result) (hnext : ∀ a, Foreseen (next a).result) :
    Foreseen (first >>= next).result := by
  rw [bind_result]
  exact hfirst.bind hnext

namespace Deployer

theorem arises_of_withoutBytecode {artifact : Artifact} {libraries : List Resolved}
    {failure : Failure} (h : withoutBytecode? artifact libraries = some failure) :
    failure.arises = true := by
  unfold withoutBytecode? at h
  split at h
  · obtain rfl := Option.some.inj h
    rfl
  · obtain ⟨library, -, rfl⟩ := Option.map_eq_some_iff.mp h
    rfl

theorem foreseen_expected (value : Option α) : Foreseen (expected value).result := by
  cases value with
  | none => exact error rfl
  | some value => exact ok _

theorem arises_ofMisfit (misfit : Misfit) : (Failure.ofMisfit misfit).arises = true := by
  unfold Failure.ofMisfit
  split
  · rfl
  · split <;> rfl

theorem foreseen_segmentArtifact (artifact : Artifact) :
    Foreseen (segmentArtifact artifact).result := by
  unfold segmentArtifact
  simp only
  cases segment artifact.bytecode artifact.links with
  | ok code => exact ok _
  | error misfit => exact error (arises_ofMisfit misfit)

theorem foreseen_tellClashes (contract : String) (reserved : List String)
    (params : List Abi.Declaration) : Foreseen (tellClashes contract reserved params).result := by
  induction params with
  | nil => exact ok _
  | cons param rest ih =>
      unfold tellClashes
      split
      · exact error rfl
      · exact error rfl
      · exact Report.foreseen_bind (ok _) fun _ => ih
      · exact ih

theorem foreseen_segmentLibraries (libraries : List Resolved) :
    Foreseen (segmentLibraries libraries).result := by
  induction libraries with
  | nil => exact ok _
  | cons library rest ih =>
      exact Report.foreseen_bind (foreseen_segmentArtifact _) fun _ =>
        Report.foreseen_bind ih fun _ => ok _

theorem foreseen_plan (artifact : Artifact) (options : Options) :
    Foreseen (plan artifact options).result := by
  unfold plan
  simp only
  split
  · rename_i hwithout
    exact error (arises_of_withoutBytecode hwithout)
  · refine Report.foreseen_bind (foreseen_expected _) fun structs => ?_
    refine Report.foreseen_bind (foreseen_expected _) fun params => ?_
    refine Report.foreseen_bind (foreseen_segmentArtifact _) fun code => ?_
    refine Report.foreseen_bind (ok _) fun _ => ?_
    refine Report.foreseen_bind (foreseen_tellClashes _ _ _) fun _ => ?_
    refine Report.foreseen_bind (foreseen_segmentLibraries _) fun inlined => ?_
    split
    · exact error rfl
    · exact ok _

end Deployer

theorem Project.foreseen_deployerReport (project : Project) (disk : Files.Disk)
    (contract : String) : Foreseen (project.deployerReport disk contract).result :=
  Report.foreseen_bind (foreseen_artifact project disk _) fun artifact =>
    Report.foreseen_bind (foreseen_resolveLibraries project disk artifact) fun _ =>
      Report.foreseen_bind (Deployer.foreseen_plan _ _) fun _ => ok _

end SolDeployer
