import SolDeployer.Proofs.Deployer.Planning
import SolDeployer.Proofs.Project.Independence
import SolDeployer.Proofs.Resolution.Loads

/-!
# A deployer that was generated stays

Whatever happens to the files afterwards, a contract for which a deployer
was generated gets the same one again, and the disk plays no part in it.
The reason is in one invariant: a project that keeps a deployer keeps every
artifact that went into it, under the key it is asked for by (`Settled`).
The resolution of its libraries asks for the same artifacts again, finds
all of them kept, and ends the same way (`FromKept`). Artifacts that are
kept are never replaced (`Extends`), so no request takes this away.

The mapping that a batch returns is read off the deployers of the project,
also those from earlier on. By the invariant none of these is out of date:
a contract with a deployer from earlier on gets the same one in the batch.
-/

namespace SolDeployer.Project

open Files (Disk)

variable {disk : Disk} {p q r : Project} {contract other source : String} {key : ArtifactKey}
  {artifact : Artifact} {libraries : List Resolved}

/-! ## What is kept stays -/

/-- The settings are the same, and every artifact that is kept stays. -/
structure Extends (p q : Project) : Prop where
  pragma : q.pragma = p.pragma
  metadata : q.metadata = p.metadata
  disambiguate : q.disambiguate = p.disambiguate
  kept : ∀ key artifact, p.artifacts.get? key = some artifact →
    q.artifacts.get? key = some artifact

namespace Extends

theorem refl (p : Project) : Extends p p := ⟨rfl, rfl, rfl, fun _ _ h => h⟩

theorem trans (h : Extends p q) (hnext : Extends q r) : Extends p r :=
  ⟨hnext.pragma.trans h.pragma, hnext.metadata.trans h.metadata,
    hnext.disambiguate.trans h.disambiguate,
    fun key artifact hkept => hnext.kept key artifact (h.kept key artifact hkept)⟩

end Extends

theorem artifact_of_kept (h : p.artifacts.get? key = some artifact) (disk : Disk) :
    p.artifact disk key = .ok artifact := by
  simp only [Project.artifact, h]

theorem load_of_kept (h : p.artifacts.get? key = some artifact) (disk : Disk) :
    p.load disk key = (.ok artifact, p) := by
  simp only [load, artifact_of_kept h, keep, Entries.insert_of_get? h]

/-- An artifact that is loaded is kept from then on. -/
theorem kept_load (h : (p.load disk key).1 = .ok artifact) :
    (p.load disk key).2.artifacts.get? key = some artifact := by
  unfold load at h ⊢
  cases hfound : p.artifact disk key with
  | error failure =>
      rw [hfound] at h
      cases h
  | ok found =>
      rw [hfound] at h
      simp only [keep, Entries.get?_insert_self]
      rw [Except.ok.inj h]

theorem extends_load (p : Project) (disk : Disk) (key : ArtifactKey) :
    Extends p (p.load disk key).2 := by
  cases hkept : p.artifacts.get? key with
  | some artifact =>
      rw [load_of_kept hkept]
      exact .refl p
  | none =>
      unfold load
      split
      · refine ⟨rfl, rfl, rfl, fun other artifact hother => ?_⟩
        have hne : other ≠ key := by
          rintro rfl
          rw [hkept] at hother
          cases hother
        simpa only [keep, Entries.get?_insert_of_ne _ _ hne] using hother
      · exact .refl p

theorem extends_keepLibraries (p : Project) (disk : Disk) (ids : List LibraryId) :
    Extends p (p.keepLibraries disk ids) := by
  induction ids generalizing p with
  | nil => exact .refl p
  | cons id rest ih => exact (extends_load p disk (libraryKey id)).trans (ih _)

/-- Libraries whose artifacts are found are kept from then on. -/
theorem kept_keepLibraries (p : Project) (disk : Disk) {ids : List LibraryId}
    (h : Traversal.Loaded (p.loader disk) ids) :
    ∀ id ∈ ids, ∃ artifact,
      (p.keepLibraries disk ids).artifacts.get? (libraryKey id) = some artifact := by
  induction ids generalizing p with
  | nil => exact nofun
  | cons first rest ih =>
      intro id hid
      have hload := keeps_load p disk (libraryKey first)
      change ∃ artifact, ((p.load disk (libraryKey first)).2.keepLibraries disk rest).artifacts.get?
        (libraryKey id) = some artifact
      rcases List.mem_cons.mp hid with rfl | hid
      · obtain ⟨artifact, hartifact⟩ := h id List.mem_cons_self
        have hkept := kept_load ((load_fst p disk (libraryKey id)).trans hartifact)
        exact ⟨artifact, (extends_keepLibraries _ disk rest).kept _ _ hkept⟩
      · refine ih _ (fun other hother => ?_) id hid
        obtain ⟨artifact, hartifact⟩ := h other (List.mem_cons_of_mem _ hother)
        exact ⟨artifact, (hload.artifact (libraryKey other)).trans hartifact⟩

theorem keepLibraries_of_kept (disk : Disk) {ids : List LibraryId}
    (h : ∀ id ∈ ids, ∃ artifact, p.artifacts.get? (libraryKey id) = some artifact) :
    p.keepLibraries disk ids = p := by
  induction ids with
  | nil => rfl
  | cons id rest ih =>
      obtain ⟨artifact, hkept⟩ := h id List.mem_cons_self
      have hload : (p.load disk (libraryKey id)).2 = p := by rw [load_of_kept hkept]
      change (p.load disk (libraryKey id)).2.keepLibraries disk rest = p
      rw [hload]
      exact ih fun other hother => h other (List.mem_cons_of_mem _ hother)

/-! ## Libraries from artifacts that are kept -/

/-- Libraries that are resolved with artifacts that are all kept. -/
inductive FromKept (p : Project) (artifact : Artifact) : List Resolved → Prop
  | unneeded (hneeds : needsLibraries artifact = false) : FromKept p artifact []
  | resolved {outcome : Traversal.Outcome} {libraries : List Resolved}
      (hneeds : needsLibraries artifact = true)
      (hkept : ∀ id ∈ outcome.loads, ∃ library,
        p.artifacts.get? (libraryKey id) = some library)
      (hends : ∀ disk, Traversal.Ends (p.loader disk)
        (Traversal.start artifact.links.libraryIds) outcome)
      (hresult : outcome.result.bind (Resolved.ofVisited p.disambiguate) = .ok libraries) :
      FromKept p artifact libraries

/-- Projects that both keep what a visit asks for lead it to one end. -/
theorem Extends.ends (h : Extends p q) {t : Traversal} {outcome : Traversal.Outcome}
    (hkept : ∀ id ∈ outcome.loads, ∃ artifact,
      p.artifacts.get? (libraryKey id) = some artifact)
    {before after : Disk} (hends : Traversal.Ends (p.loader before) t outcome) :
    Traversal.Ends (q.loader after) t outcome := by
  refine hends.congr fun id hid => ?_
  obtain ⟨artifact, hartifact⟩ := hkept id hid
  have hbefore : p.loader before id = .ok artifact := artifact_of_kept hartifact before
  have hafter : q.loader after id = .ok artifact :=
    artifact_of_kept (h.kept _ _ hartifact) after
  rw [hbefore, hafter]

theorem FromKept.extends (h : FromKept p artifact libraries) (hextends : Extends p q) :
    FromKept q artifact libraries := by
  cases h with
  | unneeded hneeds => exact .unneeded hneeds
  | resolved hneeds hkept hends hresult =>
      refine .resolved hneeds ?_ (fun disk => hextends.ends hkept (hends disk)) ?_
      · intro id hid
        obtain ⟨library, hlibrary⟩ := hkept id hid
        exact ⟨library, hextends.kept _ _ hlibrary⟩
      · rw [hextends.disambiguate]
        exact hresult

/-- The end of a resolution, whatever steps are allowed. -/
theorem resolve_of_ends {outcome : Traversal.Outcome} {links : LinkReferences}
    (h : Traversal.Ends (p.loader disk) (Traversal.start links.libraryIds) outcome) :
    resolve (p.loader disk) (p.resolutionSteps disk links) p.disambiguate links =
      ⟨outcome.loads, outcome.result.bind (Resolved.ofVisited p.disambiguate)⟩ := by
  obtain ⟨reached, hrun⟩ := resolution_runs p disk links
  obtain rfl := h.unique (Traversal.ends_of_run hrun)
  rw [resolve, Traversal.visit_ends hrun]

/-- Libraries from artifacts that are kept are resolved again, on any disk,
and the project stays as it is. -/
theorem FromKept.again (h : FromKept p artifact libraries) :
    ∃ notices, ∀ disk, p.resolveLibraries disk artifact = (⟨notices, .ok libraries⟩, p) := by
  cases h with
  | unneeded hneeds =>
      refine ⟨[], fun disk => ?_⟩
      simp only [resolveLibraries, hneeds, Bool.not_false, if_true]
      rfl
  | @resolved outcome libraries hneeds hkept hends hresult =>
      refine ⟨[.resolved artifact.contract (libraries.map (·.id.name))], fun disk => ?_⟩
      simp only [resolveLibraries, hneeds, Bool.not_true, Bool.false_eq_true, if_false,
        resolve_of_ends (hends disk), hresult, keepLibraries_of_kept disk hkept]

/-- Once libraries are resolved, the artifacts for it are kept. -/
theorem resolveLibraries_ok {notices : List Notice}
    (h : (p.resolveLibraries disk artifact).1 = ⟨notices, .ok libraries⟩) :
    FromKept (p.resolveLibraries disk artifact).2 artifact libraries := by
  cases hneeds : needsLibraries artifact with
  | false =>
      simp only [resolveLibraries, hneeds, Bool.not_false, if_true] at h ⊢
      obtain rfl := Except.ok.inj (congrArg Report.result h)
      exact .unneeded hneeds
  | true =>
      obtain ⟨outcome, hrun⟩ := resolution_runs p disk artifact.links
      have hends := Traversal.ends_of_run hrun
      simp only [resolveLibraries, hneeds, Bool.not_true, Bool.false_eq_true, if_false,
        resolve_of_ends hends] at h ⊢
      cases hresult : outcome.result.bind (Resolved.ofVisited p.disambiguate) with
      | error failure =>
          rw [hresult] at h
          cases h
      | ok resolved =>
          rw [hresult] at h
          simp only at h ⊢
          obtain rfl := Except.ok.inj (congrArg Report.result h)
          obtain ⟨visited, hvisited, -⟩ := bind_eq_ok.mp hresult
          have hkept := kept_keepLibraries p disk (hends.loaded hvisited)
          have hextends := extends_keepLibraries p disk outcome.loads
          refine .resolved hneeds hkept (fun other => ?_) ?_
          · have hsame : Traversal.Ends ((p.keepLibraries disk outcome.loads).loader disk)
                (Traversal.start artifact.links.libraryIds) outcome :=
              hends.congr fun id _ =>
                (keeps_keepLibraries p disk outcome.loads).artifact (libraryKey id)
            exact (Extends.refl _).ends hkept hsame
          · rw [hextends.disambiguate]
            exact hresult

theorem extends_resolveLibraries (p : Project) (disk : Disk) (artifact : Artifact) :
    Extends p (p.resolveLibraries disk artifact).2 := by
  unfold Project.resolveLibraries
  split
  · exact .refl p
  · simp only
    split <;> exact extends_keepLibraries p disk _

theorem extends_deploy (p : Project) (contract : String) (artifact : Artifact)
    (libraries : List Resolved) : Extends p (p.deploy contract artifact libraries).2 := by
  unfold deploy
  simp only
  split <;> exact ⟨rfl, rfl, rfl, fun _ _ h => h⟩

theorem extends_generate (p : Project) (disk : Disk) (contract : String) :
    Extends p (p.generate disk contract).2 := by
  have hload := extends_load p disk ⟨contract, none⟩
  rcases generate_cases p disk contract with ⟨failure, -, hcall⟩ | ⟨artifact, -, hcall⟩
  · rw [hcall]
    exact hload
  · have hresolve := hload.trans (extends_resolveLibraries _ disk artifact)
    rcases hcall with ⟨notices, failure, -, hcall⟩ | ⟨notices, libraries, -, hcall⟩
    · rw [hcall]
      exact hresolve
    · rw [hcall]
      exact hresolve.trans (extends_deploy _ contract artifact libraries)

/-! ## Deployers that are settled -/

/-- The deployer of a contract is kept, with all that it is made of. -/
structure Settled (p : Project) (contract : String) (artifact : Artifact)
    (libraries : List Resolved) (source : String) : Prop where
  kept : p.artifacts.get? ⟨contract, none⟩ = some artifact
  resolved : FromKept p artifact libraries
  made : (Deployer.generate artifact
    { pragma := p.pragma, libraries, metadata := p.metadata }).result = .ok source
  recorded : p.libraries.get? contract = some libraries
  deployer : p.deployers.get? contract = some source

theorem Settled.extends (h : Settled p contract artifact libraries source)
    (hextends : Extends p q)
    (hlibraries : q.libraries.get? contract = p.libraries.get? contract)
    (hdeployers : q.deployers.get? contract = p.deployers.get? contract) :
    Settled q contract artifact libraries source := by
  refine ⟨hextends.kept _ _ h.kept, h.resolved.extends hextends, ?_,
    hlibraries.trans h.recorded, hdeployers.trans h.deployer⟩
  rw [hextends.pragma, hextends.metadata]
  exact h.made

/-- A contract whose deployer is settled gets the same one on any disk, and
the project stays as it is. -/
theorem Settled.again (h : Settled p contract artifact libraries source) :
    ∃ notices, ∀ disk, p.generate disk contract = (⟨notices, .ok source⟩, p) := by
  obtain ⟨notices, hresolve⟩ := h.resolved.again
  have hdeploy : p.deploy contract artifact libraries =
      (Deployer.generate artifact
        { pragma := p.pragma, libraries, metadata := p.metadata }, p) := by
    simp only [deploy, Entries.insert_of_get? h.recorded, h.made,
      Entries.insert_of_get? h.deployer]
  refine ⟨notices ++ (Deployer.generate artifact
    { pragma := p.pragma, libraries, metadata := p.metadata }).notices, fun disk => ?_⟩
  simp only [generate, load_of_kept h.kept, hresolve disk, hdeploy, h.made]

theorem settled_deploy (disk : Disk) (hkept : p.artifacts.get? ⟨contract, none⟩ = some artifact)
    (hresolved : FromKept p artifact libraries)
    (hmade : (p.deploy contract artifact libraries).1.result = .ok source) :
    Settled (p.deploy contract artifact libraries).2 contract artifact libraries source := by
  have hextends := extends_deploy p contract artifact libraries
  obtain ⟨hreport, hspec⟩ := generates_deploy p disk contract artifact libraries
  refine ⟨hextends.kept _ _ hkept, hresolved.extends hextends, ?_, ?_, ?_⟩
  · rw [hextends.pragma, hextends.metadata, ← hreport]
    exact hmade
  · rw [libraries_deploy, Entries.get?_insert_self]
  · rw [hspec.get?_deployers, if_pos rfl, hmade]
    rfl

/-- The deployer of a contract is settled as soon as it is generated. -/
theorem settled_generate (h : (p.generate disk contract).1.result = .ok source) :
    ∃ artifact libraries,
      Settled (p.generate disk contract).2 contract artifact libraries source := by
  rcases generate_cases p disk contract with
    ⟨failure, -, hcall⟩ | ⟨artifact, hload, ⟨notices, failure, -, hcall⟩ |
      ⟨notices, libraries, hresolve, hcall⟩⟩
  · rw [hcall] at h
    cases h
  · rw [hcall] at h
    cases h
  · rw [hcall] at h ⊢
    have hextends := extends_resolveLibraries (p.load disk ⟨contract, none⟩).2 disk artifact
    exact ⟨artifact, libraries, settled_deploy disk (hextends.kept _ _ (kept_load hload))
      (resolveLibraries_ok hresolve) h⟩

/-! ## What requests do to settled deployers -/

theorem Settled.load (h : Settled p contract artifact libraries source) (disk : Disk)
    (key : ArtifactKey) :
    Settled (p.load disk key).2 contract artifact libraries source := by
  have hkeeps := keeps_load p disk key
  refine h.extends (extends_load p disk key) ?_ ?_
  · rw [hkeeps.libraries]
  · rw [hkeeps.deployers]

theorem Settled.fail (h : Settled p contract artifact libraries source) (other : String)
    (failure : Failure) :
    Settled (p.fail other failure) contract artifact libraries source :=
  h.extends ⟨rfl, rfl, rfl, fun _ _ hkept => hkept⟩ rfl rfl

theorem Settled.generate (h : Settled p contract artifact libraries source) (disk : Disk)
    (other : String) :
    Settled (p.generate disk other).2 contract artifact libraries source := by
  by_cases heq : contract = other
  · subst heq
    obtain ⟨notices, hagain⟩ := h.again
    rw [hagain disk]
    exact h
  · refine h.extends (extends_generate p disk other) ?_ ?_
    · rw [libraries_generate]
      split
      · exact Entries.get?_insert_of_ne _ _ heq
      · rfl
    · rw [(generate_spec p disk other).2.get?_deployers, if_neg heq]

/-- Every deployer that is kept is settled. -/
def AllSettled (p : Project) : Prop :=
  ∀ contract source, p.deployers.get? contract = some source →
    ∃ artifact libraries, Settled p contract artifact libraries source

/-- Settled deployers stay, and all are settled if they were before. -/
structure Grows (p q : Project) : Prop where
  settled : ∀ {contract artifact libraries source},
    Settled p contract artifact libraries source → Settled q contract artifact libraries source
  all : AllSettled p → AllSettled q

namespace Grows

theorem refl (p : Project) : Grows p p := ⟨id, id⟩

theorem trans (h : Grows p q) (hnext : Grows q r) : Grows p r :=
  ⟨fun hsettled => hnext.settled (h.settled hsettled), fun hall => hnext.all (h.all hall)⟩

/-- Nothing new has to be settled where no deployer is new. -/
theorem of_deployers
    (hsettled : ∀ {contract artifact libraries source},
      Settled p contract artifact libraries source → Settled q contract artifact libraries source)
    (hdeployers : q.deployers = p.deployers) : Grows p q := by
  refine ⟨hsettled, fun hall contract source hsource => ?_⟩
  rw [hdeployers] at hsource
  obtain ⟨artifact, libraries, hkept⟩ := hall contract source hsource
  exact ⟨artifact, libraries, hsettled hkept⟩

theorem load (p : Project) (disk : Disk) (key : ArtifactKey) : Grows p (p.load disk key).2 :=
  .of_deployers (fun h => h.load disk key) (keeps_load p disk key).deployers

theorem fail (p : Project) (contract : String) (failure : Failure) :
    Grows p (p.fail contract failure) :=
  .of_deployers (fun h => h.fail contract failure) rfl

theorem generate (p : Project) (disk : Disk) (contract : String) :
    Grows p (p.generate disk contract).2 := by
  refine ⟨fun h => h.generate disk contract, fun hall other source hsource => ?_⟩
  have hdeployers := (generate_spec p disk contract).2.deployers
  cases hresult : (p.generate disk contract).1.result with
  | error failure =>
      rw [hresult] at hdeployers
      have hgrows : Grows p (p.generate disk contract).2 :=
        .of_deployers (fun h => h.generate disk contract) hdeployers
      exact hgrows.all hall other source hsource
  | ok made =>
      rw [hresult] at hdeployers
      by_cases heq : other = contract
      · subst heq
        rw [hdeployers, Entries.get?_insert_self] at hsource
        rw [← Option.some.inj hsource]
        exact settled_generate hresult
      · rw [hdeployers, Entries.get?_insert_of_ne _ _ heq] at hsource
        obtain ⟨artifact, libraries, hkept⟩ := hall other source hsource
        exact ⟨artifact, libraries, hkept.generate disk contract⟩

theorem generateEach (p : Project) (disk : Disk) (contracts : List String) :
    Grows p (p.generateEach disk contracts).2 := by
  induction contracts generalizing p with
  | nil => exact .refl p
  | cons contract rest ih =>
      have hfirst := Grows.generate p disk contract
      rcases generateEach_cases p disk contract with ⟨next, hnext, hgoes⟩ | ⟨failure, -, -, hends⟩
      · rw [(hgoes rest).2]
        cases hnext with
        | made hmade => exact hfirst.trans (ih _)
        | failed hfails hconcerns => exact (hfirst.trans (.fail _ contract _)).trans (ih _)
      · rw [(hends rest).2]
        exact hfirst

theorem handle (p : Project) (disk : Disk) (request : Request) :
    Grows p (request.handle disk p) := by
  cases request with
  | load key => exact .load p disk key
  | generate contract => exact .generate p disk contract
  | generateAll contracts => exact .generateEach p disk contracts

end Grows

/-- The project after some requests, each with the disk as it is then. -/
def through (p : Project) (history : List (Disk × Request)) : Project :=
  history.foldl (fun p (disk, request) => request.handle disk p) p

theorem Grows.through (p : Project) (history : List (Disk × Request)) :
    Grows p (p.through history) := by
  induction history generalizing p with
  | nil => exact .refl p
  | cons event rest ih =>
      obtain ⟨disk, request⟩ := event
      exact (Grows.handle p disk request).trans (ih _)

theorem allSettled_through (platform : Platform) (options : Json.Fields)
    (history : List (Disk × Request)) : AllSettled ((start platform options).through history) :=
  (Grows.through _ history).all nofun

/-! ## Batches -/

theorem Agrees.outcome (h : Agrees disk p q) (contract : String) :
    p.outcome disk contract = q.outcome disk contract := by
  rw [Project.outcome, Project.outcome, (generate_spec p disk contract).1,
    (generate_spec q disk contract).1, h.deployerReport]

theorem agrees_generateEach (p : Project) (disk : Disk) (contracts : List String) :
    Agrees disk (p.generateEach disk contracts).2 p := by
  induction contracts generalizing p with
  | nil => exact .refl disk p
  | cons contract rest ih =>
      rcases generateEach_cases p disk contract with ⟨next, hnext, hgoes⟩ | ⟨failure, -, -, hends⟩
      · rw [(hgoes rest).2]
        exact (ih next).trans hnext.agrees
      · rw [(hends rest).2]
        exact (generate_spec p disk contract).2.agrees

/-- A batch that comes to its end made every deployer that it can make. -/
theorem made_generateEach {contracts : List String}
    (hresult : (p.generateEach disk contracts).1.result = .ok ()) (hmem : contract ∈ contracts)
    (hmade : p.outcome disk contract = .ok source) :
    (p.generateEach disk contracts).2.deployers.get? contract = some source := by
  induction contracts generalizing p with
  | nil => cases hmem
  | cons first rest ih =>
      by_cases heq : contract = first
      · subst heq
        obtain ⟨artifact, libraries, hsettled⟩ := settled_generate hmade
        rw [(generateEach_of_ok rest hmade).2]
        exact ((Grows.generateEach _ disk rest).settled hsettled).deployer
      · have hrest := (List.mem_cons.mp hmem).resolve_left heq
        rcases generateEach_cases p disk first with ⟨next, hnext, hgoes⟩ | ⟨failure, -, -, hends⟩
        · rw [(hgoes rest).1] at hresult
          rw [(hgoes rest).2]
          exact ih hresult hrest ((hnext.agrees.outcome contract).trans hmade)
        · rw [(hends rest).1] at hresult
          cases hresult

/-- No deployer is out of date after a batch that comes to its end. -/
theorem get?_deployers_generateEach (hall : AllSettled p) {contracts : List String}
    (hresult : (p.generateEach disk contracts).1.result = .ok ())
    (hmem : contract ∈ contracts) :
    (p.generateEach disk contracts).2.deployers.get? contract =
      (p.outcome disk contract).toOption := by
  cases hget : (p.generateEach disk contracts).2.deployers.get? contract with
  | some source =>
      obtain ⟨artifact, libraries, hsettled⟩ :=
        (Grows.generateEach p disk contracts).all hall contract source hget
      obtain ⟨notices, hagain⟩ := hsettled.again
      rw [← (agrees_generateEach p disk contracts).outcome, outcome, hagain disk]
      rfl
  | none =>
      cases hmade : p.outcome disk contract with
      | error failure => rfl
      | ok source =>
          rw [made_generateEach hresult hmem hmade] at hget
          cases hget

/-- The keys of pairs are in order of first appearance. -/
theorem keys_ofList {α : Type} (pairs : List (String × α)) :
    (Entries.ofList pairs).keys = Deployer.distinct (pairs.map Prod.fst) := by
  induction pairs using List.reverseRecOn with
  | nil => rfl
  | append_singleton pairs pair ih =>
      obtain ⟨key, value⟩ := pair
      rw [Entries.ofList_concat, Entries.keys_insert, List.map_append, List.map_cons,
        List.map_nil, Deployer.distinct_concat, ih]
      simp only [Deployer.mem_distinct]

theorem keys_deployersOf (p : Project) (contracts : List String) :
    (p.deployersOf contracts).keys =
      Deployer.distinct (contracts.filter (p.deployersOf contracts).contains) := by
  have hkeys : (contracts.filterMap fun contract =>
      (p.deployers.get? contract).map (contract, ·)).map Prod.fst =
        contracts.filter fun contract => (p.deployers.get? contract).isSome := by
    induction contracts with
    | nil => rfl
    | cons contract rest ih =>
        cases hget : p.deployers.get? contract <;> simp [hget, ih]
  have hcontains : contracts.filter (p.deployersOf contracts).contains =
      contracts.filter fun contract => (p.deployers.get? contract).isSome := by
    refine List.filter_congr fun contract hmem => ?_
    rw [Entries.contains, get?_deployersOf, if_pos hmem]
  rw [hcontains, deployersOf, keys_ofList, hkeys]

/-! ## Permanence -/

/-- The deployer of a contract is kept, and every generation returns it, on
any disk, and leaves the project as it is. -/
def Repeats (p : Project) (contract source : String) : Prop :=
  p.deployers.get? contract = some source ∧
    ∃ notices, ∀ disk, p.generate disk contract = (⟨notices, .ok source⟩, p)

theorem Settled.repeats (h : Settled p contract artifact libraries source)
    (later : List (Disk × Request)) : (p.through later).Repeats contract source := by
  have hlater := (Grows.through p later).settled h
  exact ⟨hlater.deployer, hlater.again⟩

/-- **A contract for which a deployer was generated gets the same one ever
after.** For every platform, all options and every history of requests, the
disk being another one at each of them: a deployer that a generation
returns is kept through all that follows, and every later generation for the
contract returns it again, whatever the disk, and changes nothing. So do the
deployers that a batch made, however it ended. And if a batch returns, its
mapping has for each of its contracts what the generation at its place in
the batch gave, in order of first appearance, and nothing else. -/
theorem generate_permanent (platform : Platform) (options : Json.Fields)
    (history : List (Disk × Request)) (disk : Disk) :
    let used := (start platform options).through history
    (∀ contract source, (used.generate disk contract).1.result = .ok source →
        ∀ later, ((used.generate disk contract).2.through later).Repeats contract source) ∧
      (∀ contract source, used.deployers.get? contract = some source →
        ∀ later, (used.through later).Repeats contract source) ∧
      ∀ contracts mapping, (used.generateAll disk contracts).1.result = .ok mapping →
        mapping.keys = Deployer.distinct (contracts.filter mapping.contains) ∧
        ∀ before contract after, contracts = before ++ contract :: after →
          mapping.get? contract =
            ((used.generateEach disk before).2.generate disk contract).1.result.toOption := by
  intro used
  have hall : AllSettled used := allSettled_through platform options history
  refine ⟨?_, ?_, ?_⟩
  · intro contract source hmade later
    obtain ⟨artifact, libraries, hsettled⟩ := settled_generate hmade
    exact hsettled.repeats later
  · intro contract source hkept later
    obtain ⟨artifact, libraries, hsettled⟩ := hall contract source hkept
    exact hsettled.repeats later
  · intro contracts mapping hreturns
    rw [result_generateAll, map_eq_ok] at hreturns
    obtain ⟨⟨⟩, hresult, rfl⟩ := hreturns
    refine ⟨keys_deployersOf _ contracts, ?_⟩
    intro before contract after hsplit
    have hmem : contract ∈ contracts := by
      rw [hsplit]
      exact List.mem_append_right _ List.mem_cons_self
    rw [get?_deployersOf, if_pos hmem, get?_deployers_generateEach hall hresult hmem]
    -- nothing that the batch did up to this place changes what the contract gets
    rw [← (agrees_generateEach used disk before).outcome contract]
    rfl

/-- The files of a contract and of its library are gone after it was
generated. In a batch the malformed contract comes first. -/
theorem generate_permanent_vault :
    let used := (start atRoot []).through [(linkedVault, .load ⟨"M", none⟩)]
    ∃ source mapping, (used.generate linkedVault "Vault").1.result = .ok source ∧
      ((used.generate linkedVault "Vault").2.through
        [(⟨[], []⟩, .generateAll ["Bad", "Vault"])]).Repeats "Vault" source ∧
      (used.generateAll linkedVault ["Bad", "Vault"]).1.result = .ok mapping ∧
      mapping.keys = Deployer.distinct (["Bad", "Vault"].filter mapping.contains) ∧
      mapping.get? "Vault" = ((used.generateEach linkedVault ["Bad"]).2.generate
        linkedVault "Vault").1.result.toOption := by
  have hmade : (((start atRoot []).through [(linkedVault, .load ⟨"M", none⟩)]).generate
      linkedVault "Vault").1.result.isOk = true := by
    decide +kernel
  have hreturns : (((start atRoot []).through [(linkedVault, .load ⟨"M", none⟩)]).generateAll
      linkedVault ["Bad", "Vault"]).1.result.isOk = true := by
    decide +kernel
  obtain ⟨hsource, -, hbatch⟩ :=
    generate_permanent atRoot [] [(linkedVault, .load ⟨"M", none⟩)] linkedVault
  generalize (start atRoot []).through [(linkedVault, .load ⟨"M", none⟩)] = used at *
  intro used
  obtain ⟨source, hmade⟩ := exists_of_isOk hmade
  obtain ⟨mapping, hreturns⟩ := exists_of_isOk hreturns
  obtain ⟨hkeys, hturns⟩ := hbatch _ mapping hreturns
  exact ⟨source, mapping, hmade, hsource "Vault" source hmade _, hreturns, hkeys,
    hturns ["Bad"] "Vault" [] rfl⟩

end SolDeployer.Project
