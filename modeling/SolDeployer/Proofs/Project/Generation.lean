import SolDeployer.Proofs.Project.Reach

/-!
# Generation does not depend on what was kept

A project keeps the artifacts it reads, so what is generated next could
depend on what was generated before. It does not: all that is kept is what
the disk gives anyway (`Keeps`), and projects that find the same artifacts
and have the same settings (`Agrees`) generate the same, told and made. The
steps allowed for a resolution grow with what is kept; they suffice from
the start, so they make no difference either. How a generation may go is
said once (`Generated`), and what it changes is read off that.
-/

namespace SolDeployer.Project

open Files (Disk)

variable {disk : Disk} {p q r : Project}

/-! ## Projects that agree -/

/-- The same artifacts are found, and the settings are the same. -/
structure Agrees (disk : Disk) (p q : Project) : Prop where
  pragma : p.pragma = q.pragma
  metadata : p.metadata = q.metadata
  disambiguate : p.disambiguate = q.disambiguate
  artifact : ∀ key, p.artifact disk key = q.artifact disk key

theorem Agrees.refl (disk : Disk) (p : Project) : Agrees disk p p := ⟨rfl, rfl, rfl, fun _ => rfl⟩

theorem Agrees.trans (h : Agrees disk p q) (hnext : Agrees disk q r) : Agrees disk p r :=
  ⟨h.pragma.trans hnext.pragma, h.metadata.trans hnext.metadata,
    h.disambiguate.trans hnext.disambiguate,
    fun key => (h.artifact key).trans (hnext.artifact key)⟩

theorem Agrees.loader (h : Agrees disk p q) : p.loader disk = q.loader disk :=
  funext fun id => h.artifact (libraryKey id)

/-- However many steps each allows, the resolutions are the same. -/
theorem Agrees.resolve (h : Agrees disk p q) (links : LinkReferences) :
    resolve (p.loader disk) (p.resolutionSteps disk links) p.disambiguate links =
      resolve (q.loader disk) (q.resolutionSteps disk links) q.disambiguate links := by
  obtain ⟨outcome, hrun⟩ := resolution_runs p disk links
  obtain ⟨other, hother⟩ := resolution_runs q disk links
  have hvisit := Traversal.visit_ends hrun
  rw [h.loader] at hrun hvisit
  have heq := (Traversal.ends_of_run hrun).unique (Traversal.ends_of_run hother)
  simp only [SolDeployer.resolve, h.loader, hvisit, Traversal.visit_ends hother, heq,
    h.disambiguate]

theorem Agrees.resolveLibraries (h : Agrees disk p q) (artifact : Artifact) :
    (p.resolveLibraries disk artifact).1 = (q.resolveLibraries disk artifact).1 := by
  unfold Project.resolveLibraries
  rw [h.resolve]
  split
  · rfl
  · simp only
    split <;> rfl

/-! ## Artifacts that are kept -/

/-- Artifacts that are found anyway are kept, and nothing else is done. -/
structure Keeps (disk : Disk) (p q : Project) : Prop where
  rest : q = { p with artifacts := q.artifacts }
  artifact : ∀ key, q.artifact disk key = p.artifact disk key

namespace Keeps

theorem refl (disk : Disk) (p : Project) : Keeps disk p p := ⟨rfl, fun _ => rfl⟩

theorem trans (h : Keeps disk p q) (hnext : Keeps disk q r) : Keeps disk p r := by
  refine ⟨?_, fun key => (hnext.artifact key).trans (h.artifact key)⟩
  rw [hnext.rest, h.rest]

theorem deployers (h : Keeps disk p q) : q.deployers = p.deployers := by rw [h.rest]

theorem failures (h : Keeps disk p q) : q.failures = p.failures := by rw [h.rest]

theorem agrees (h : Keeps disk p q) : Agrees disk q p :=
  ⟨by rw [h.rest], by rw [h.rest], by rw [h.rest], h.artifact⟩

end Keeps

theorem keeps_keep {key : ArtifactKey} {artifact : Artifact}
    (h : p.artifact disk key = .ok artifact) : Keeps disk p (p.keep key artifact) := by
  refine ⟨rfl, fun other => ?_⟩
  by_cases heq : other = key
  · rw [heq, h]
    simp only [Project.artifact, keep, Entries.get?_insert_self]
  · simp only [Project.artifact, keep, Entries.get?_insert_of_ne _ _ heq]

theorem load_fst (p : Project) (disk : Disk) (key : ArtifactKey) :
    (p.load disk key).1 = p.artifact disk key := by
  unfold load
  split <;> simp only [*]

theorem keeps_load (p : Project) (disk : Disk) (key : ArtifactKey) :
    Keeps disk p (p.load disk key).2 := by
  unfold load
  split
  · rename_i artifact hartifact
    exact keeps_keep hartifact
  · exact .refl disk p

theorem keeps_keepLibraries (p : Project) (disk : Disk) (ids : List LibraryId) :
    Keeps disk p (p.keepLibraries disk ids) := by
  induction ids generalizing p with
  | nil => exact .refl disk p
  | cons id rest ih => exact (keeps_load p disk (libraryKey id)).trans (ih _)

theorem keeps_resolveLibraries (p : Project) (disk : Disk) (artifact : Artifact) :
    Keeps disk p (p.resolveLibraries disk artifact).2 := by
  unfold Project.resolveLibraries
  split
  · exact .refl disk p
  · simp only
    split <;> exact keeps_keepLibraries p disk _

/-! ## The course of a generation -/

/-- A generation step by step: the artifact is loaded, its libraries are
resolved, and the contract is deployed. -/
theorem generate_cases (p : Project) (disk : Disk) (contract : String) :
    let loaded := (p.load disk ⟨contract, none⟩).2
    (∃ failure, (p.load disk ⟨contract, none⟩).1 = .error failure ∧
      p.generate disk contract = (.fail failure, loaded)) ∨
    ∃ artifact, (p.load disk ⟨contract, none⟩).1 = .ok artifact ∧
      let resolved := (loaded.resolveLibraries disk artifact).2
      ((∃ notices failure,
        (loaded.resolveLibraries disk artifact).1 = ⟨notices, .error failure⟩ ∧
          p.generate disk contract = (⟨notices, .error failure⟩, resolved)) ∨
      ∃ notices libraries,
        (loaded.resolveLibraries disk artifact).1 = ⟨notices, .ok libraries⟩ ∧
          p.generate disk contract =
            (⟨notices ++ (resolved.deploy contract artifact libraries).1.notices,
              (resolved.deploy contract artifact libraries).1.result⟩,
              (resolved.deploy contract artifact libraries).2)) := by
  unfold generate
  generalize p.load disk ⟨contract, none⟩ = call
  obtain ⟨found, loaded⟩ := call
  cases found with
  | error failure => exact .inl ⟨failure, rfl, rfl⟩
  | ok artifact =>
      refine .inr ⟨artifact, rfl, ?_⟩
      simp only
      generalize loaded.resolveLibraries disk artifact = call
      obtain ⟨⟨notices, result⟩, resolved⟩ := call
      cases result with
      | error failure => exact .inl ⟨notices, failure, rfl, rfl⟩
      | ok libraries => exact .inr ⟨notices, libraries, rfl, rfl⟩

/-- How a generation may go, and what it returns then: the artifact is not
found, its libraries are not resolved, or the contract is deployed by a
project that kept artifacts. -/
inductive Generated (disk : Disk) (p : Project) (contract : String) :
    Report String × Project → Prop
  | notFound {failure : Failure} {q : Project}
      (hartifact : p.artifact disk ⟨contract, none⟩ = .error failure) (hkeeps : Keeps disk p q) :
      Generated disk p contract (.fail failure, q)
  | unresolved {artifact : Artifact} {notices : List Notice} {failure : Failure} {q : Project}
      (hartifact : p.artifact disk ⟨contract, none⟩ = .ok artifact)
      (hlibraries : (p.resolveLibraries disk artifact).1 = ⟨notices, .error failure⟩)
      (hkeeps : Keeps disk p q) :
      Generated disk p contract (⟨notices, .error failure⟩, q)
  | deployed {artifact : Artifact} {notices : List Notice} {libraries : List Resolved} {q : Project}
      (hartifact : p.artifact disk ⟨contract, none⟩ = .ok artifact)
      (hlibraries : (p.resolveLibraries disk artifact).1 = ⟨notices, .ok libraries⟩)
      (hkeeps : Keeps disk p q) :
      Generated disk p contract
        (⟨notices ++ (q.deploy contract artifact libraries).1.notices,
          (q.deploy contract artifact libraries).1.result⟩,
          (q.deploy contract artifact libraries).2)

theorem generated (p : Project) (disk : Disk) (contract : String) :
    Generated disk p contract (p.generate disk contract) := by
  have hload := keeps_load p disk ⟨contract, none⟩
  have hfound := load_fst p disk ⟨contract, none⟩
  rcases generate_cases p disk contract with
    ⟨failure, hfails, hcall⟩ | ⟨artifact, hartifact, hcall⟩
  · rw [hcall]
    exact .notFound (hfound.symm.trans hfails) hload
  · have hresolve := hload.trans (keeps_resolveLibraries _ disk artifact)
    have hsame := hload.agrees.resolveLibraries artifact
    rcases hcall with ⟨notices, failure, hlibraries, hcall⟩ | ⟨notices, libraries, hlibraries, hcall⟩
    · rw [hcall]
      exact .unresolved (hfound.symm.trans hartifact) (hsame.symm.trans hlibraries) hresolve
    · rw [hcall]
      exact .deployed (hfound.symm.trans hartifact) (hsame.symm.trans hlibraries) hresolve

/-! ## The deployer of a contract -/

/-- What is told and made when the deployer of a contract is generated. -/
def deployerReport (project : Project) (disk : Disk) (contract : String) : Report String := do
  let artifact ← Report.ofExcept (project.artifact disk ⟨contract, none⟩)
  let libraries ← (project.resolveLibraries disk artifact).1
  Deployer.generate artifact { pragma := project.pragma, libraries, metadata := project.metadata }

theorem Agrees.deployerReport (h : Agrees disk p q) (contract : String) :
    p.deployerReport disk contract = q.deployerReport disk contract := by
  simp only [Project.deployerReport, h.artifact, h.resolveLibraries, h.pragma, h.metadata]

/-- What a generation changes: it keeps artifacts, and the deployer if there
is one. -/
structure Generates (disk : Disk) (p : Project) (contract : String) (report : Report String)
    (q : Project) : Prop where
  agrees : Agrees disk q p
  failures : q.failures = p.failures
  deployers : q.deployers =
    match report.result with
    | .ok source => p.deployers.insert contract source
    | .error _ => p.deployers

theorem generates_deploy (p : Project) (disk : Disk) (contract : String) (artifact : Artifact)
    (libraries : List Resolved) :
    (p.deploy contract artifact libraries).1 =
        Deployer.generate artifact
          { pragma := p.pragma, libraries, metadata := p.metadata } ∧
      Generates disk p contract (p.deploy contract artifact libraries).1
        (p.deploy contract artifact libraries).2 := by
  have hlibraries (libraries : Entries String (List Resolved)) (deployers : Entries String String) :
      Agrees disk { p with libraries, deployers } p := ⟨rfl, rfl, rfl, fun _ => rfl⟩
  simp only [deploy]
  cases hresult : (Deployer.generate artifact
      { pragma := p.pragma, libraries, metadata := p.metadata }).result with
  | ok source => exact ⟨rfl, hlibraries .., rfl, by simp only [hresult]⟩
  | error failure => exact ⟨rfl, hlibraries .., rfl, by simp only [hresult]⟩

/-- The specification of a generation. -/
theorem generate_spec (p : Project) (disk : Disk) (contract : String) :
    (p.generate disk contract).1 = p.deployerReport disk contract ∧
      Generates disk p contract (p.generate disk contract).1 (p.generate disk contract).2 := by
  have hcourse := generated p disk contract
  generalize p.generate disk contract = call at *
  unfold Project.deployerReport
  cases hcourse with
  | notFound hartifact hkeeps =>
      rw [hartifact]
      exact ⟨rfl, hkeeps.agrees, hkeeps.failures, hkeeps.deployers⟩
  | unresolved hartifact hlibraries hkeeps =>
      rw [hartifact, Report.ofExcept_ok_bind, hlibraries]
      exact ⟨rfl, hkeeps.agrees, hkeeps.failures, hkeeps.deployers⟩
  | @deployed artifact notices libraries q hartifact hlibraries hkeeps =>
      obtain ⟨hreport, hdeploy⟩ := generates_deploy q disk contract artifact libraries
      rw [hartifact, Report.ofExcept_ok_bind, hlibraries]
      refine ⟨?_, hdeploy.agrees.trans hkeeps.agrees, hdeploy.failures.trans hkeeps.failures, ?_⟩
      · have hpragma : q.pragma = p.pragma := hkeeps.agrees.pragma
        have hmetadata : q.metadata = p.metadata := hkeeps.agrees.metadata
        simp only [hreport, hpragma, hmetadata]
        rfl
      · rw [← hkeeps.deployers]
        exact hdeploy.deployers

end SolDeployer.Project
