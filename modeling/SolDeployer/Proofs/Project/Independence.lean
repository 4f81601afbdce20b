import SolDeployer.Proofs.Project.Batch

/-!
# A project in use answers like a new one

What a contract gets, and the libraries recorded for it, depend on the disk,
the platform and the options only: not on what the project was asked for
before, not on how that ended, and so not on the other contracts of a batch
or their order. Contracts before it in a batch matter only if they end the
batch.

The deployer is a matter of `Agrees`. For the libraries the point is that a
generation may fail before they are recorded and then leaves what is there:
that is no other list, because every list that is there is the one that a
new project resolves (`Serves`).
-/

namespace SolDeployer.Project

open Files (Disk)

variable {disk : Disk} {base p q : Project} {contract other : String}

/-! ## The libraries of a contract -/

/-- The libraries that a contract is deployed with. There are none to speak
of if its artifact is not found or if they are not resolved. -/
def resolvedFor? (project : Project) (disk : Disk) (contract : String) : Option (List Resolved) :=
  match project.artifact disk ⟨contract, none⟩ with
  | .ok artifact => (project.resolveLibraries disk artifact).1.result.toOption
  | .error _ => none

theorem Agrees.resolvedFor? (h : Agrees disk p q) (contract : String) :
    p.resolvedFor? disk contract = q.resolvedFor? disk contract := by
  simp only [Project.resolvedFor?, h.artifact, h.resolveLibraries]

theorem Keeps.libraries (h : Keeps disk p q) : q.libraries = p.libraries := by rw [h.rest]

theorem libraries_deploy (p : Project) (contract : String) (artifact : Artifact)
    (libraries : List Resolved) :
    (p.deploy contract artifact libraries).2.libraries =
      p.libraries.insert contract libraries := by
  unfold deploy
  simp only
  split <;> rfl

/-- Libraries that are resolved are recorded, whether or not there will be a
deployer. -/
theorem libraries_generate (p : Project) (disk : Disk) (contract : String) :
    (p.generate disk contract).2.libraries =
      match p.resolvedFor? disk contract with
      | some libraries => p.libraries.insert contract libraries
      | none => p.libraries := by
  have hcourse := generated p disk contract
  generalize p.generate disk contract = call at *
  unfold Project.resolvedFor?
  cases hcourse with
  | notFound hartifact hkeeps =>
      rw [hartifact]
      exact hkeeps.libraries
  | unresolved hartifact hlibraries hkeeps =>
      rw [hartifact]
      simp only [hlibraries]
      exact hkeeps.libraries
  | @deployed artifact notices libraries q hartifact hlibraries hkeeps =>
      rw [hartifact]
      simp only [hlibraries, libraries_deploy, hkeeps.libraries]
      rfl

/-! ## The course of a batch -/

/-- The project that a batch goes on with after a contract: what the
generation left, with the failure recorded if there is one. -/
inductive GoesOnWith (disk : Disk) (p : Project) (contract : String) : Project → Prop
  | made {source : String} (hmade : p.outcome disk contract = .ok source) :
      GoesOnWith disk p contract (p.generate disk contract).2
  | failed {failure : Failure} (hfails : p.outcome disk contract = .error failure)
      (hconcerns : failure.concernsContract = true) :
      GoesOnWith disk p contract ((p.generate disk contract).2.fail contract failure)

/-- After a contract a batch goes on, or else it ends, whatever contracts
follow. -/
theorem generateEach_cases (p : Project) (disk : Disk) (contract : String) :
    (∃ next, GoesOnWith disk p contract next ∧ ∀ rest,
      (p.generateEach disk (contract :: rest)).1.result = (next.generateEach disk rest).1.result ∧
      (p.generateEach disk (contract :: rest)).2 = (next.generateEach disk rest).2) ∨
    ∃ failure, p.outcome disk contract = .error failure ∧ failure.concernsContract = false ∧
      ∀ rest,
        (p.generateEach disk (contract :: rest)).1.result = .error failure ∧
        (p.generateEach disk (contract :: rest)).2 = (p.generate disk contract).2 := by
  cases hresult : (p.generate disk contract).1.result with
  | ok source => exact .inl ⟨_, .made hresult, fun rest => generateEach_of_ok rest hresult⟩
  | error failure =>
      cases hconcerns : failure.concernsContract with
      | true =>
          refine .inl ⟨_, .failed hresult hconcerns, ?_⟩
          intro rest
          exact generateEach_of_concerns rest hresult hconcerns
      | false =>
          refine .inr ⟨failure, hresult, hconcerns, ?_⟩
          intro rest
          exact generateEach_of_stops rest hresult hconcerns

/-- The project that a batch goes on with finds what was found before. -/
theorem GoesOnWith.agrees {next : Project} (hnext : GoesOnWith disk p contract next) :
    Agrees disk next p := by
  have hfirst := (generate_spec p disk contract).2.agrees
  cases hnext with
  | made hmade => exact hfirst
  | failed hfails hconcerns =>
      exact ⟨hfirst.pragma, hfirst.metadata, hfirst.disambiguate, hfirst.artifact⟩

/-- A batch goes on after its first contracts exactly if these do not end
it. -/
theorem generateEach_append (p : Project) (disk : Disk) (before rest : List String) :
    match (p.generateEach disk before).1.result with
    | .ok _ =>
      (p.generateEach disk (before ++ rest)).1.result =
          ((p.generateEach disk before).2.generateEach disk rest).1.result ∧
        (p.generateEach disk (before ++ rest)).2 =
          ((p.generateEach disk before).2.generateEach disk rest).2
    | .error failure => (p.generateEach disk (before ++ rest)).1.result = .error failure := by
  induction before generalizing p with
  | nil => exact ⟨rfl, rfl⟩
  | cons contract before ih =>
      rw [List.cons_append]
      rcases generateEach_cases p disk contract with ⟨next, -, hgoes⟩ | ⟨failure, -, -, hends⟩
      · rw [(hgoes before).1, (hgoes before).2, (hgoes _).1, (hgoes _).2]
        exact ih next
      · rw [(hends before).1, (hends _).1]

/-! ## Records of libraries -/

/-- A project agrees with another one, and the libraries it records are the
ones that the other one resolves. -/
structure Serves (disk : Disk) (base p : Project) : Prop where
  agrees : Agrees disk p base
  libraries : ∀ contract libraries, p.libraries.get? contract = some libraries →
    base.resolvedFor? disk contract = some libraries

theorem serves_start (platform : Platform) (options : Json.Fields) (disk : Disk) :
    Serves disk (start platform options) (start platform options) :=
  ⟨.refl disk _, nofun⟩

namespace Serves

theorem keeps (h : Serves disk base p) (hkeeps : Keeps disk p q) : Serves disk base q :=
  ⟨hkeeps.agrees.trans h.agrees, hkeeps.libraries ▸ h.libraries⟩

/-- A generation records the libraries of its contract and no others. -/
theorem get?_generate (h : Serves disk base p) (contract other : String) :
    (p.generate disk contract).2.libraries.get? other =
      if other = contract then base.resolvedFor? disk other else p.libraries.get? other := by
  rw [libraries_generate, h.agrees.resolvedFor?]
  by_cases heq : other = contract
  · subst heq
    rw [if_pos rfl]
    cases hresolved : base.resolvedFor? disk other with
    | some libraries => exact Entries.get?_insert_self ..
    | none =>
        cases hrecorded : p.libraries.get? other with
        | none => rfl
        | some libraries =>
            have hfound := h.libraries other libraries hrecorded
            rw [hresolved] at hfound
            cases hfound
  · rw [if_neg heq]
    cases base.resolvedFor? disk contract with
    | some libraries => exact Entries.get?_insert_of_ne _ _ heq
    | none => rfl

theorem generate (h : Serves disk base p) (contract : String) :
    Serves disk base (p.generate disk contract).2 := by
  refine ⟨(generate_spec p disk contract).2.agrees.trans h.agrees, fun other libraries hother => ?_⟩
  rw [h.get?_generate] at hother
  split at hother
  · exact hother
  · exact h.libraries other libraries hother

theorem fail (h : Serves disk base p) (contract : String) (failure : Failure) :
    Serves disk base (p.fail contract failure) :=
  ⟨⟨h.agrees.pragma, h.agrees.metadata, h.agrees.disambiguate, h.agrees.artifact⟩, h.libraries⟩

/-- Libraries that are recorded stay so. -/
theorem recorded_generate (h : Serves disk base p)
    (hother : p.libraries.get? other = base.resolvedFor? disk other) (contract : String) :
    (p.generate disk contract).2.libraries.get? other = base.resolvedFor? disk other := by
  rw [h.get?_generate]
  split
  · rfl
  · exact hother

/-- The libraries of a contract are recorded as soon as it is generated. -/
theorem recorded_self (h : Serves disk base p) (contract : String) :
    (p.generate disk contract).2.libraries.get? contract = base.resolvedFor? disk contract := by
  rw [h.get?_generate, if_pos rfl]

/-- A failure that is recorded changes no libraries. -/
theorem next (h : Serves disk base p) {next : Project}
    (hnext : GoesOnWith disk p contract next) :
    Serves disk base next ∧ next.libraries = (p.generate disk contract).2.libraries := by
  cases hnext with
  | made hmade => exact ⟨h.generate contract, rfl⟩
  | failed hfails hconcerns => exact ⟨(h.generate contract).fail contract _, rfl⟩

/-- A batch keeps what is recorded. -/
theorem generateEach (h : Serves disk base p) (contracts : List String) :
    Serves disk base (p.generateEach disk contracts).2 ∧
      ∀ other, p.libraries.get? other = base.resolvedFor? disk other →
        (p.generateEach disk contracts).2.libraries.get? other = base.resolvedFor? disk other := by
  induction contracts generalizing p with
  | nil => exact ⟨h, fun _ hother => hother⟩
  | cons contract rest ih =>
      rcases generateEach_cases p disk contract with ⟨next, hnext, hgoes⟩ | ⟨failure, -, -, hends⟩
      · obtain ⟨hserves, hsame⟩ := h.next hnext
        obtain ⟨hrest, hkeep⟩ := ih hserves
        rw [hsame] at hkeep
        rw [(hgoes rest).2]
        exact ⟨hrest, fun other hother => hkeep other (h.recorded_generate hother contract)⟩
      · rw [(hends rest).2]
        exact ⟨h.generate contract, fun other hother => h.recorded_generate hother contract⟩

/-- However a batch ends, the libraries of its first contract are recorded. -/
theorem recorded_head (h : Serves disk base p) (contract : String) (rest : List String) :
    (p.generateEach disk (contract :: rest)).2.libraries.get? contract =
      base.resolvedFor? disk contract := by
  rcases generateEach_cases p disk contract with ⟨next, hnext, hgoes⟩ | ⟨failure, -, -, hends⟩
  · obtain ⟨hserves, hsame⟩ := h.next hnext
    obtain ⟨-, hkeep⟩ := hserves.generateEach rest
    rw [hsame] at hkeep
    rw [(hgoes rest).2]
    exact hkeep contract (h.recorded_self contract)
  · rw [(hends rest).2]
    exact h.recorded_self contract

theorem handle (h : Serves disk base p) (request : Request) :
    Serves disk base (request.handle disk p) := by
  cases request with
  | load key => exact h.keeps (keeps_load p disk key)
  | generate contract => exact h.generate contract
  | generateAll contracts => exact (h.generateEach contracts).1

theorem after (h : Serves disk base p) (requests : List Request) :
    Serves disk base (p.after disk requests) := by
  induction requests generalizing p with
  | nil => exact h
  | cons request rest ih => exact ih (h.handle request)

end Serves

/-! ## Independence -/

/-- The first contract of a batch is recorded, or ends it. -/
theorem Ends.head {q : Project} {rest : List String} {result : Except Failure Unit}
    (h : Ends disk base q (contract :: rest) result) :
    Records disk base q contract ∨ ∃ failure, base.outcome disk contract = .error failure ∧
      failure.concernsContract = false ∧ result = .error failure := by
  cases h with
  | finished hall => exact .inl (hall contract List.mem_cons_self)
  | @stopped before after last failure hcontracts hbefore halone hstops =>
      cases before with
      | nil =>
          obtain ⟨rfl, -⟩ := List.cons.inj hcontracts
          exact .inr ⟨failure, halone, hstops, rfl⟩
      | cons first before =>
          obtain ⟨rfl, -⟩ := List.cons.inj hcontracts
          exact .inl (hbefore contract List.mem_cons_self)

/-- What a batch returns and records for a contract is what the contract gets
alone: its deployer, its failure and its libraries. -/
structure Gives (batch : Report (Entries String String) × Project)
    (alone : Report String × Project) (contract : String) : Prop where
  returned : ∀ mapping, batch.1.result = .ok mapping →
    mapping.get? contract = alone.1.result.toOption
  deployer : ∀ source, alone.1.result = .ok source →
    batch.2.deployers.get? contract = some source
  failure : ∀ failure, alone.1.result = .error failure →
    if failure.concernsContract then batch.2.failures.get? contract = some failure
    else batch.1.result = .error failure
  libraries : batch.2.libraries.get? contract = alone.2.libraries.get? contract

theorem result_generateAll (p : Project) (disk : Disk) (contracts : List String) :
    (p.generateAll disk contracts).1.result = (p.generateEach disk contracts).1.result.map
      fun _ => (p.generateEach disk contracts).2.deployersOf contracts := rfl

theorem isOk_map {α β : Type} (result : Except Failure α) (f : α → β) :
    (result.map f).isOk = result.isOk := by
  cases result <;> rfl

/-- A contract that a batch comes to gets what it gets alone. -/
theorem gives_of_reached (hbase : Serves disk base base) (hfollows : Follows disk base p)
    (hserves : Serves disk base p) {before : List String}
    (hreached : (p.generateEach disk before).1.result = .ok ()) (contract : String)
    (after : List String) :
    Gives (p.generateAll disk (before ++ contract :: after)) (base.generate disk contract)
      contract := by
  have hgoes := generateEach_append p disk before (contract :: after)
  rw [hreached] at hgoes
  obtain ⟨hend, hproject⟩ := hgoes
  have hlibraries : (p.generateEach disk (before ++ contract :: after)).2.libraries.get? contract =
      (base.generate disk contract).2.libraries.get? contract := by
    rw [hproject, (hserves.generateEach before).1.recorded_head, hbase.recorded_self]
  have hbatch := (generateEach_spec hfollows (before ++ contract :: after)).1
  obtain ⟨-, -, hends⟩ := generateEach_spec (generateEach_spec hfollows before).1 (contract :: after)
  rw [← hend, ← hproject] at hends
  rcases hends.head with hrecords | ⟨cause, halone, hstops, hresult⟩
  · have hdeployer := hbatch.get?_deployers hrecords
    refine ⟨?_, ?_, ?_, hlibraries⟩
    · intro mapping hreturns
      obtain ⟨-, -, rfl⟩ := map_eq_ok.mp hreturns
      rw [get?_deployersOf, if_pos (List.mem_append_right _ List.mem_cons_self)]
      exact hdeployer
    · intro source hsource
      rw [show base.outcome disk contract = .ok source from hsource] at hdeployer
      exact hdeployer
    · intro failure hfails
      rw [if_pos (hrecords.concerns hfails)]
      exact hrecords.failure hfails
  · have hall : (p.generateAll disk (before ++ contract :: after)).1.result = .error cause := by
      rw [result_generateAll, hresult]
      rfl
    refine ⟨?_, ?_, ?_, hlibraries⟩
    · intro mapping hreturns
      rw [hall] at hreturns
      cases hreturns
    · intro source hsource
      cases halone.symm.trans hsource
    · intro failure hfails
      obtain rfl := Except.error.inj (halone.symm.trans hfails)
      rw [hall, hstops]
      rfl

/-- A project that was in use gives a contract what a new one gives it. For
every platform, all options, every disk that stays the same and all requests
before, also those that failed: the report of a generation is the one of a
new project, and so are the libraries recorded after it. A batch gives every
contract that it comes to what the contract gets alone, whatever stands
before it and after it; and it does not come to a contract only if those
before, on their own, end a batch. -/
theorem generate_independent (platform : Platform) (options : Json.Fields) (disk : Disk)
    (requests : List Request) (contract : String) :
    let fresh := start platform options
    let used := fresh.after disk requests
    let alone := fresh.generate disk contract
    (used.generate disk contract).1 = alone.1 ∧
      (used.generate disk contract).2.libraries.get? contract =
        alone.2.libraries.get? contract ∧
      ∀ before after,
        ((used.generateAll disk before).1.result.isOk = true →
          Gives (used.generateAll disk (before ++ contract :: after)) alone contract) ∧
        ((used.generateAll disk before).1.result.isOk = false →
          (used.generateAll disk (before ++ contract :: after)).1.result.isOk = false) := by
  intro fresh used alone
  have hbase : Serves disk fresh fresh := serves_start platform options disk
  have hfollows : Follows disk fresh used := (follows_start platform options disk).after requests
  have hserves : Serves disk fresh used := hbase.after requests
  refine ⟨?_, ?_, ?_⟩
  · show (used.generate disk contract).1 = (fresh.generate disk contract).1
    rw [(generate_spec used disk contract).1, (generate_spec fresh disk contract).1,
      hfollows.agrees.deployerReport]
  · show _ = (fresh.generate disk contract).2.libraries.get? contract
    rw [hserves.recorded_self, hbase.recorded_self]
  · intro before after
    have hgoes := generateEach_append used disk before (contract :: after)
    simp only [result_generateAll, isOk_map]
    cases hresult : (used.generateEach disk before).1.result with
    | ok =>
        refine ⟨fun _ => ?_, nofun⟩
        exact gives_of_reached hbase hfollows hserves hresult contract after
    | error failure =>
        refine ⟨nofun, fun _ => ?_⟩
        rw [hresult] at hgoes
        rw [hgoes]
        rfl

/-- The artifacts of a contract, of a library that it links, and of a third
one that is malformed. -/
def linkedVault : Disk where
  nodes := [
    (["out"], .directory),
    (["out", "a.sol"], .directory),
    (["out", "a.sol", "Bad.json"], .file (Text.Utf8.encode "[]".toList)),
    (["out", "a.sol", "M.json"], .file (Text.Utf8.encode
      ("\x7b\"abi\": [], \"bytecode\": \x7b\"object\": \"aa\", " ++
        "\"linkReferences\": \x7b\x7d\x7d\x7d").toList)),
    (["out", "a.sol", "Vault.json"], .file (Text.Utf8.encode
      ("\x7b\"abi\": [], \"bytecode\": \x7b\"object\": " ++
        "\"________________________________________\", \"linkReferences\": " ++
        "\x7b\"a.sol\": \x7b\"M\": [\x7b\"start\": 0, \"length\": 20\x7d]\x7d\x7d\x7d\x7d").toList))]
  current := []

/-- The library was asked for on its own before, and the malformed contract
fails twice. -/
theorem generate_independent_vault :
    let fresh := start atRoot []
    let used := fresh.after linkedVault [.load ⟨"M", none⟩, .generate "Bad"]
    (fresh.outcome linkedVault "Vault").isOk = true ∧
      Gives (used.generateAll linkedVault (["Bad"] ++ "Vault" :: []))
        (fresh.generate linkedVault "Vault") "Vault" := by
  have hreached : (((start atRoot []).after linkedVault
      [.load ⟨"M", none⟩, .generate "Bad"]).generateAll linkedVault ["Bad"]).1.result.isOk =
        true := by
    decide +kernel
  have hmade : ((start atRoot []).outcome linkedVault "Vault").isOk = true := by
    decide +kernel
  have hbatch := ((generate_independent atRoot [] linkedVault
    [.load ⟨"M", none⟩, .generate "Bad"] "Vault").2.2 ["Bad"] []).1 hreached
  exact ⟨hmade, hbatch⟩

end SolDeployer.Project
