import SolDeployer.Proofs.Project.Failures

/-!
# Batches

A contract of a batch gets what it would get alone, in a project that
nothing was done with: whatever was generated before leaves no trace but
artifacts, deployers and failures that the disk gives anyway (`Follows`).
A batch goes on over every failure that concerns one contract. It ends
early if, and only if, a contract fails alone with another failure, and
then with the first such failure: a file that is not text takes the
contracts that follow with it.
-/

namespace SolDeployer.Project

open Files (Disk)

variable {disk : Disk} {base p : Project} {other : String}

/-! ## What a project records -/

/-- What a contract gets alone. -/
def outcome (base : Project) (disk : Disk) (contract : String) : Except Failure String :=
  (base.generate disk contract).1.result

/-- What a contract gets alone is recorded: its deployer, or its failure if
that concerns the contract only. -/
def Records (disk : Disk) (base p : Project) (contract : String) : Prop :=
  match base.outcome disk contract with
  | .ok source => p.deployers.get? contract = some source
  | .error failure => failure.concernsContract = true ∧ p.failures.get? contract = some failure

/-- A project agrees with another one, and all it records is what the other
one would generate. -/
structure Follows (disk : Disk) (base p : Project) : Prop where
  agrees : Agrees disk p base
  deployers : ∀ contract source, p.deployers.get? contract = some source →
    base.outcome disk contract = .ok source
  failures : ∀ contract failure, p.failures.get? contract = some failure →
    base.outcome disk contract = .error failure

theorem Follows.result_generate (h : Follows disk base p) (contract : String) :
    (p.generate disk contract).1.result = base.outcome disk contract := by
  rw [outcome, (generate_spec p disk contract).1, (generate_spec base disk contract).1,
    h.agrees.deployerReport]

theorem Follows.keeps {q : Project} (h : Follows disk base p) (hkeeps : Keeps disk p q) :
    Follows disk base q :=
  ⟨hkeeps.agrees.trans h.agrees, hkeeps.deployers ▸ h.deployers, hkeeps.failures ▸ h.failures⟩

/-- The deployers after a generation: the new one, if there is one, and
those from before. -/
theorem Generates.get?_deployers {contract : String} {report : Report String} {q : Project}
    (h : Generates disk p contract report q) (other : String) :
    q.deployers.get? other =
      if other = contract then report.result.toOption <|> p.deployers.get? other
      else p.deployers.get? other := by
  rw [h.deployers]
  cases report.result with
  | error failure => simp [Except.toOption]
  | ok source =>
      by_cases heq : other = contract
      · simp [heq, Except.toOption]
      · simp [heq, Entries.get?_insert_of_ne]

theorem Follows.generate (h : Follows disk base p) (contract : String) :
    Follows disk base (p.generate disk contract).2 := by
  have hresult := h.result_generate contract
  obtain ⟨-, hspec⟩ := generate_spec p disk contract
  refine ⟨hspec.agrees.trans h.agrees, fun other source hother => ?_, ?_⟩
  · rw [hspec.get?_deployers, hresult] at hother
    split at hother
    · rename_i heq
      cases halone : base.outcome disk contract with
      | ok made =>
          rw [halone] at hother
          rw [heq, halone, ← Option.some.inj hother]
      | error failure =>
          rw [halone] at hother
          exact h.deployers other source hother
    · exact h.deployers other source hother
  · rw [hspec.failures]
    exact h.failures

/-- A failure of a contract is recorded. -/
def fail (p : Project) (contract : String) (failure : Failure) : Project :=
  { p with failures := p.failures.insert contract failure }

theorem Follows.fail (h : Follows disk base p) {contract : String} {failure : Failure}
    (hfails : base.outcome disk contract = .error failure) :
    Follows disk base (p.fail contract failure) := by
  refine ⟨⟨h.agrees.pragma, h.agrees.metadata, h.agrees.disambiguate, h.agrees.artifact⟩,
    h.deployers, fun other cause hother => ?_⟩
  by_cases heq : other = contract
  · rw [heq] at hother ⊢
    rw [Project.fail, Entries.get?_insert_self, Option.some.injEq] at hother
    rw [hfails, hother]
  · rw [Project.fail, Entries.get?_insert_of_ne _ _ heq] at hother
    exact h.failures other cause hother

/-! ## One contract after the other -/

theorem records_generate (h : Follows disk base p) {contract source : String}
    (halone : base.outcome disk contract = .ok source) :
    Records disk base (p.generate disk contract).2 contract := by
  have hresult := h.result_generate contract
  obtain ⟨-, hspec⟩ := generate_spec p disk contract
  simp only [Records, halone, hspec.get?_deployers, hresult, if_true]
  rfl

theorem records_fail {contract : String} {failure : Failure}
    (halone : base.outcome disk contract = .error failure)
    (hconcerns : failure.concernsContract = true) :
    Records disk base (p.fail contract failure) contract := by
  simp only [Records, halone, Project.fail, Entries.get?_insert_self, hconcerns, and_self]

theorem Records.generate (hrecords : Records disk base p other) (h : Follows disk base p)
    (contract : String) : Records disk base (p.generate disk contract).2 other := by
  have hresult := h.result_generate contract
  obtain ⟨-, hspec⟩ := generate_spec p disk contract
  unfold Records at hrecords ⊢
  cases halone : base.outcome disk other with
  | ok source =>
      simp only [halone] at hrecords ⊢
      rw [hspec.get?_deployers, hresult]
      split
      · rename_i heq
        rw [← heq, halone]
        rfl
      · exact hrecords
  | error failure =>
      simp only [halone] at hrecords ⊢
      rwa [hspec.failures]

theorem Records.fail (hrecords : Records disk base p other) {contract : String} {failure : Failure}
    (hfails : base.outcome disk contract = .error failure) :
    Records disk base (p.fail contract failure) other := by
  unfold Records at hrecords ⊢
  cases halone : base.outcome disk other with
  | ok source =>
      simp only [halone] at hrecords ⊢
      exact hrecords
  | error cause =>
      simp only [halone] at hrecords ⊢
      refine ⟨hrecords.1, ?_⟩
      by_cases heq : other = contract
      · rw [heq, hfails] at halone
        rw [Project.fail, heq, Entries.get?_insert_self, Except.error.inj halone]
      · rw [Project.fail, Entries.get?_insert_of_ne _ _ heq]
        exact hrecords.2

/-! ## All contracts -/

/-- The end of a batch, and where it came to. -/
inductive Ends (disk : Disk) (base q : Project) (contracts : List String) :
    Except Failure Unit → Prop
  | finished (hall : ∀ contract ∈ contracts, Records disk base q contract) :
      Ends disk base q contracts (.ok ())
  | stopped {before after : List String} {contract : String} {failure : Failure}
      (hcontracts : contracts = before ++ contract :: after)
      (hbefore : ∀ other ∈ before, Records disk base q other)
      (halone : base.outcome disk contract = .error failure)
      (hstops : failure.concernsContract = false) :
      Ends disk base q contracts (.error failure)

theorem Ends.cons {q : Project} {contract : String} {rest : List String}
    {result : Except Failure Unit} (hhead : Records disk base q contract)
    (h : Ends disk base q rest result) : Ends disk base q (contract :: rest) result := by
  cases h with
  | finished hall =>
      refine .finished fun other hother => ?_
      rcases List.mem_cons.mp hother with rfl | hother
      · exact hhead
      · exact hall other hother
  | @stopped before after last failure hcontracts hbefore halone hstops =>
      have hsplit : contract :: rest = (contract :: before) ++ last :: after := by
        rw [hcontracts, List.cons_append]
      refine .stopped hsplit (fun other hother => ?_) halone hstops
      rcases List.mem_cons.mp hother with rfl | hother
      · exact hhead
      · exact hbefore other hother

/-- A contract of a batch that is generated. -/
theorem generateEach_of_ok {contract source : String} (rest : List String)
    (h : (p.generate disk contract).1.result = .ok source) :
    (p.generateEach disk (contract :: rest)).1.result =
        ((p.generate disk contract).2.generateEach disk rest).1.result ∧
      (p.generateEach disk (contract :: rest)).2 =
        ((p.generate disk contract).2.generateEach disk rest).2 := by
  rw [generateEach]
  generalize p.generate disk contract = call at *
  obtain ⟨⟨notices, result⟩, q⟩ := call
  obtain rfl : result = .ok source := h
  exact ⟨rfl, rfl⟩

/-- A contract of a batch with a failure that concerns it only. -/
theorem generateEach_of_concerns {contract : String} {failure : Failure} (rest : List String)
    (h : (p.generate disk contract).1.result = .error failure)
    (hconcerns : failure.concernsContract = true) :
    (p.generateEach disk (contract :: rest)).1.result =
        (((p.generate disk contract).2.fail contract failure).generateEach disk rest).1.result ∧
      (p.generateEach disk (contract :: rest)).2 =
        (((p.generate disk contract).2.fail contract failure).generateEach disk rest).2 := by
  rw [generateEach]
  generalize p.generate disk contract = call at *
  obtain ⟨⟨notices, result⟩, q⟩ := call
  obtain rfl : result = .error failure := h
  simp only [hconcerns, if_true]
  exact ⟨rfl, rfl⟩

/-- A contract of a batch with a failure that ends it. -/
theorem generateEach_of_stops {contract : String} {failure : Failure} (rest : List String)
    (h : (p.generate disk contract).1.result = .error failure)
    (hstops : failure.concernsContract = false) :
    (p.generateEach disk (contract :: rest)).1.result = .error failure ∧
      (p.generateEach disk (contract :: rest)).2 = (p.generate disk contract).2 := by
  rw [generateEach]
  generalize p.generate disk contract = call at *
  obtain ⟨⟨notices, result⟩, q⟩ := call
  obtain rfl : result = .error failure := h
  simp only [hstops, Bool.false_eq_true, if_false, and_self]

/-- What was recorded stays, and every contract is recorded up to the end. -/
theorem generateEach_spec (h : Follows disk base p) (contracts : List String) :
    Follows disk base (p.generateEach disk contracts).2 ∧
      (∀ other, Records disk base p other →
        Records disk base (p.generateEach disk contracts).2 other) ∧
      Ends disk base (p.generateEach disk contracts).2 contracts
        (p.generateEach disk contracts).1.result := by
  induction contracts generalizing p with
  | nil => exact ⟨h, fun _ hother => hother, .finished fun _ hmem => nomatch hmem⟩
  | cons contract rest ih =>
      have hresult := h.result_generate contract
      have hfollows := h.generate contract
      cases halone : base.outcome disk contract with
      | ok source =>
          rw [halone] at hresult
          obtain ⟨hend, hproject⟩ := generateEach_of_ok rest hresult
          obtain ⟨hrest, hkeep, hends⟩ := ih hfollows
          rw [hend, hproject]
          refine ⟨hrest, fun other hother => hkeep other (hother.generate h contract), ?_⟩
          exact hends.cons (hkeep contract (records_generate h halone))
      | error failure =>
          rw [halone] at hresult
          cases hconcerns : failure.concernsContract with
          | true =>
              obtain ⟨hend, hproject⟩ := generateEach_of_concerns rest hresult hconcerns
              obtain ⟨hrest, hkeep, hends⟩ := ih (hfollows.fail halone)
              rw [hend, hproject]
              refine ⟨hrest, fun other hother => hkeep other ?_, ?_⟩
              · exact (hother.generate h contract).fail halone
              · exact hends.cons (hkeep contract (records_fail halone hconcerns))
          | false =>
              obtain ⟨hend, hproject⟩ := generateEach_of_stops rest hresult hconcerns
              rw [hend, hproject]
              refine ⟨hfollows, fun other hother => hother.generate h contract, ?_⟩
              exact .stopped (List.nil_append _).symm (fun _ hmem => nomatch hmem) halone hconcerns

/-- The deployers that a batch returns. -/
theorem get?_deployersOf (p : Project) (contracts : List String) (contract : String) :
    (p.deployersOf contracts).get? contract =
      if contract ∈ contracts then p.deployers.get? contract else none := by
  have hpair (name source : String) :
      (name, source) ∈ contracts.filterMap
          (fun name => (p.deployers.get? name).map (name, ·)) ↔
        name ∈ contracts ∧ p.deployers.get? name = some source := by
    simp only [List.mem_filterMap, Option.map_eq_some_iff, Prod.mk.injEq]
    constructor
    · rintro ⟨name, hname, source, hsource, rfl, rfl⟩
      exact ⟨hname, hsource⟩
    · rintro ⟨hname, hsource⟩
      exact ⟨name, hname, source, hsource, rfl, rfl⟩
  cases hget : (p.deployersOf contracts).get? contract with
  | some source =>
      obtain ⟨hmem, hsource⟩ := (hpair contract source).mp (Entries.get?_ofList_mem hget)
      rw [if_pos hmem, hsource]
  | none =>
      split
      · rename_i hmem
        cases hsource : p.deployers.get? contract with
        | none => rfl
        | some source =>
            have hfound : (p.deployersOf contracts).get? contract = some source :=
              Entries.get?_ofList_of_agree ((hpair contract source).mpr ⟨hmem, hsource⟩)
                fun other hother => by
                  have hagain := ((hpair contract other).mp hother).2
                  exact Option.some.inj (hagain.symm.trans hsource)
            rw [hget] at hfound
            cases hfound
      · rfl

/-! ## Projects in use -/

/-- What a project may have been asked for before a batch. -/
inductive Request where
  | load (key : ArtifactKey)
  | generate (contract : String)
  | generateAll (contracts : List String)
  deriving Repr

/-- The project after a request, however it ended. -/
def Request.handle (disk : Disk) (p : Project) : Request → Project
  | .load key => (p.load disk key).2
  | .generate contract => (p.generate disk contract).2
  | .generateAll contracts => (p.generateAll disk contracts).2

/-- The project after some requests, the disk being the same. -/
def after (p : Project) (disk : Disk) (requests : List Request) : Project :=
  requests.foldl (Request.handle disk) p

theorem follows_start (platform : Platform) (options : Json.Fields) (disk : Disk) :
    Follows disk (start platform options) (start platform options) :=
  ⟨.refl disk _, nofun, nofun⟩

theorem Follows.handle (h : Follows disk base p) (request : Request) :
    Follows disk base (request.handle disk p) := by
  cases request with
  | load key => exact h.keeps (keeps_load p disk key)
  | generate contract => exact h.generate contract
  | generateAll contracts => exact (generateEach_spec h contracts).1

theorem Follows.after (h : Follows disk base p) (requests : List Request) :
    Follows disk base (p.after disk requests) := by
  induction requests generalizing p with
  | nil => exact h
  | cons request rest ih => exact ih (h.handle request)

theorem Records.concerns (h : Records disk base p other) {failure : Failure}
    (halone : base.outcome disk other = .error failure) : failure.concernsContract = true := by
  unfold Records at h
  rw [halone] at h
  exact h.1

theorem Records.failure (h : Records disk base p other) {failure : Failure}
    (halone : base.outcome disk other = .error failure) :
    p.failures.get? other = some failure := by
  unfold Records at h
  rw [halone] at h
  exact h.2

/-- The deployer that is kept for a contract is the one it gets alone. -/
theorem Follows.get?_deployers (h : Follows disk base p) (hrecords : Records disk base p other) :
    p.deployers.get? other = (base.outcome disk other).toOption := by
  unfold Records at hrecords
  cases halone : base.outcome disk other with
  | ok source =>
      rw [halone] at hrecords
      exact hrecords
  | error failure =>
      cases hget : p.deployers.get? other with
      | none => rfl
      | some source =>
          rw [h.deployers other source hget] at halone
          cases halone

/-- A batch that comes to its end returns what every contract gets alone. -/
theorem Follows.get?_deployersOf (h : Follows disk base p) {contracts : List String}
    (hall : ∀ contract ∈ contracts, Records disk base p contract) (contract : String) :
    (p.deployersOf contracts).get? contract =
      if contract ∈ contracts then (base.outcome disk contract).toOption else none := by
  rw [Project.get?_deployersOf]
  split
  · rename_i hmem
    exact h.get?_deployers (hall contract hmem)
  · rfl

theorem arises_of_outcome {failure : Failure} (h : base.outcome disk other = .error failure) :
    failure.arises = true := by
  rw [outcome, (generate_spec base disk other).1] at h
  exact foreseen_deployerReport base disk other failure h

/-- Batches isolate their contracts from each other but for failures that
concern none of them. For every disk, every platform on it and all its
options, whatever the project was asked for before: a batch returns exactly
if every failure that a contract of it has alone concerns that contract, and
then it returns what each contract gets alone and records all failures.
Otherwise it ends with the failure of the first contract for which this is
not so, and the contracts before that one are recorded. -/
theorem generateAll_isolated (platform : Platform) (options : Json.Fields) (disk : Disk)
    (requests : List Request) (contracts : List String) :
    let fresh := start platform options
    let batch := (fresh.after disk requests).generateAll disk contracts
    ((∃ mapping, batch.1.result = .ok mapping) ↔
        ∀ contract ∈ contracts, ∀ failure, fresh.outcome disk contract = .error failure →
          failure.concernsContract = true) ∧
      (∀ mapping, batch.1.result = .ok mapping →
        (∀ contract, mapping.get? contract =
          if contract ∈ contracts then (fresh.outcome disk contract).toOption else none) ∧
        ∀ contract ∈ contracts, Records disk fresh batch.2 contract) ∧
      ∀ failure, batch.1.result = .error failure →
        failure.endsBatch = true ∧ ∃ before contract after,
          contracts = before ++ contract :: after ∧
            (∀ other ∈ before, Records disk fresh batch.2 other) ∧
            fresh.outcome disk contract = .error failure := by
  intro fresh batch
  have hfollows := (follows_start platform options disk).after requests
  obtain ⟨hbatch, -, hends⟩ := generateEach_spec hfollows contracts
  have hresult : batch.1.result =
      ((fresh.after disk requests).generateEach disk contracts).1.result.map
        fun _ => batch.2.deployersOf contracts := rfl
  generalize ((fresh.after disk requests).generateEach disk contracts).1.result = ending at *
  cases hends with
  | finished hall =>
      change batch.1.result = .ok (batch.2.deployersOf contracts) at hresult
      refine ⟨⟨fun _ contract hmem failure halone => (hall contract hmem).concerns halone,
        fun _ => ⟨_, hresult⟩⟩, fun mapping hmapping => ?_, fun failure hfails => ?_⟩
      · rw [hresult] at hmapping
        obtain rfl := Except.ok.inj hmapping
        exact ⟨hbatch.get?_deployersOf hall, hall⟩
      · rw [hresult] at hfails
        cases hfails
  | @stopped before after contract failure hcontracts hbefore halone hstops =>
      change batch.1.result = .error failure at hresult
      have hmem : contract ∈ contracts := by rw [hcontracts]; simp
      refine ⟨⟨fun ⟨mapping, hmapping⟩ => ?_, fun hconcerns => ?_⟩, fun mapping hmapping => ?_,
        fun other hother => ?_⟩
      · rw [hresult] at hmapping
        cases hmapping
      · rw [hconcerns contract hmem failure halone] at hstops
        cases hstops
      · rw [hresult] at hmapping
        cases hmapping
      · rw [hresult] at hother
        obtain rfl := Except.error.inj hother
        exact ⟨Failure.endsBatch_of_arises (arises_of_outcome halone) hstops, before, contract,
          after, hcontracts, hbefore, halone⟩

/-! ## A file that is not text -/

/-- A project whose artifacts are in `/out`. -/
def atRoot : Platform where
  kind := .foundry
  target := "/"
  root := ⟨"/", []⟩
  artifacts := ⟨"/", ["out"]⟩
  npxDisabled := false
  host := .usual

/-- The artifacts of two contracts. The file of the first one is not text. -/
def halfReadable : Disk where
  nodes := [
    (["out"], .directory),
    (["out", "Bad.sol"], .directory),
    (["out", "Bad.sol", "Bad.json"], .file [0xFF]),
    (["out", "Token.sol"], .directory),
    (["out", "Token.sol", "Token.json"], .file (Text.Utf8.encode
      ("\x7b\"abi\": [], \"bytecode\": " ++
        "\x7b\"object\": \"aa\", \"linkReferences\": \x7b\x7d\x7d\x7d").toList))]
  current := []

/-- The second contract has a deployer alone, and none in a batch with the
first one, which does not return. -/
theorem generateAll_undecodable :
    (∃ source, (start atRoot []).outcome halfReadable "Token" = .ok source) ∧
      ((start atRoot []).generateAll halfReadable ["Bad", "Token"]).1.result =
        .error .undecodable := by
  have htoken : ((start atRoot []).outcome halfReadable "Token").isOk = true := by
    decide +kernel
  refine ⟨?_, rfl⟩
  cases halone : (start atRoot []).outcome halfReadable "Token" with
  | ok source => exact ⟨source, rfl⟩
  | error failure =>
      rw [halone] at htoken
      cases htoken

end SolDeployer.Project
