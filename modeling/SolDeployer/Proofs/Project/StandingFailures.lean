import SolDeployer.Proofs.Project.Permanence

/-!
# A failure that was recorded stands

Batches add to the failures of a project, and nothing takes a failure away
again. So a contract may have a failure and a deployer: it failed in a batch
and was generated later, from other files. There is no other way to that.

The reason is in which of the two comes first. A deployer that is kept is
settled, so its contract never fails again and no batch records a failure
for it (`Settled.not_fails`). What a contract gets in a batch does not
change during the batch either, so a failure and a deployer are never from
one batch (`FailsIn.no_deployer`), nor from one disk.
-/

namespace SolDeployer.Project

open Files (Disk)

variable {disk : Disk} {p q : Project} {contract first : String} {contracts rest : List String}
  {failure : Failure}

/-- A contract gets a failure that concerns it only. -/
structure Fails (disk : Disk) (p : Project) (contract : String) (failure : Failure) : Prop where
  outcome : p.outcome disk contract = .error failure
  concerns : failure.concernsContract = true

theorem Fails.unique {other : Failure} (h : Fails disk p contract failure)
    (hother : Fails disk p contract other) : failure = other :=
  Except.error.inj (h.outcome.symm.trans hother.outcome)

theorem Agrees.fails_iff (h : Agrees disk q p) :
    Fails disk q contract failure ↔ Fails disk p contract failure := by
  have hsame := h.outcome contract
  exact ⟨fun hfails => ⟨hsame.symm.trans hfails.outcome, hfails.concerns⟩,
    fun hfails => ⟨hsame.trans hfails.outcome, hfails.concerns⟩⟩

/-- A batch comes to a contract, which fails. -/
structure FailsIn (disk : Disk) (p : Project) (contracts : List String) (contract : String)
    (failure : Failure) : Prop extends Fails disk p contract failure where
  reached : ∃ before after, contracts = before ++ contract :: after ∧
    (p.generateEach disk before).1.result = .ok ()

/-- A contract has a deployer and a failure. -/
def ReportedTwice (p : Project) (contract : String) : Prop :=
  p.deployers.contains contract = true ∧ p.failures.contains contract = true

/-! ## The failures of a batch -/

/-- A contract that does not end a batch has its failure recorded, and no
other failure changes. -/
theorem GoesOnWith.failures {next : Project} (h : GoesOnWith disk p first next)
    (contract : String) :
    (∀ failure, first = contract ∧ Fails disk p contract failure →
      next.failures.get? contract = some failure) ∧
    ((∀ failure, ¬(first = contract ∧ Fails disk p contract failure)) →
      next.failures.get? contract = p.failures.get? contract) := by
  have hkeep : (p.generate disk first).2.failures = p.failures :=
    (generate_spec p disk first).2.failures
  cases h with
  | made hmade =>
      refine ⟨?_, fun _ => by rw [hkeep]⟩
      rintro failure ⟨rfl, hfails⟩
      cases hmade.symm.trans hfails.outcome
  | @failed cause hcause hconcerns =>
      refine ⟨?_, fun hspared => ?_⟩
      · rintro failure ⟨rfl, hfails⟩
        obtain rfl := Except.error.inj (hcause.symm.trans hfails.outcome)
        rw [Project.fail, Entries.get?_insert_self]
      · have hne : contract ≠ first := by
          rintro rfl
          exact hspared cause ⟨rfl, hcause, hconcerns⟩
        rw [Project.fail, Entries.get?_insert_of_ne _ _ hne, hkeep]

theorem not_failsIn_nil : ¬FailsIn disk p [] contract failure := by
  rintro ⟨-, before, after, hsplit, -⟩
  simp at hsplit

/-- Either the first contract of a batch fails, or another one does in the
rest of the batch. -/
theorem failsIn_cons (hagrees : Agrees disk q p)
    (hgoes : ∀ rest, (p.generateEach disk (first :: rest)).1.result =
      (q.generateEach disk rest).1.result) :
    FailsIn disk p (first :: rest) contract failure ↔
      first = contract ∧ Fails disk p contract failure ∨
        FailsIn disk q rest contract failure := by
  constructor
  · rintro ⟨hfails, before, after, hsplit, hbefore⟩
    cases before with
    | nil => exact .inl ⟨(List.cons.inj hsplit).1, hfails⟩
    | cons other before =>
        obtain ⟨rfl, hrest⟩ := List.cons.inj hsplit
        rw [hgoes] at hbefore
        exact .inr ⟨hagrees.fails_iff.mpr hfails, before, after, hrest, hbefore⟩
  · rintro (⟨rfl, hfails⟩ | ⟨hfails, before, after, hrest, hbefore⟩)
    · exact ⟨hfails, [], rest, rfl, rfl⟩
    · refine ⟨hagrees.fails_iff.mp hfails, first :: before, after, ?_, ?_⟩
      · rw [hrest, List.cons_append]
      · rwa [hgoes]

/-- Nothing fails in a batch that ends with its first contract. -/
theorem not_failsIn_of_ends {cause : Failure} (hcause : p.outcome disk first = .error cause)
    (hstops : cause.concernsContract = false)
    (hends : ∀ rest, (p.generateEach disk (first :: rest)).1.result = .error cause) :
    ¬FailsIn disk p (first :: rest) contract failure := by
  rintro ⟨hfails, before, after, hsplit, hbefore⟩
  cases before with
  | nil =>
      obtain ⟨rfl, -⟩ := List.cons.inj hsplit
      obtain rfl := Except.error.inj (hcause.symm.trans hfails.outcome)
      cases hfails.concerns.symm.trans hstops
  | cons other before =>
      obtain ⟨rfl, -⟩ := List.cons.inj hsplit
      cases hbefore.symm.trans (hends before)

/-- A batch records the failures of the contracts that fail in it, and
leaves those of all others as they are. -/
theorem failures_generateEach (p : Project) (disk : Disk) (contracts : List String)
    (contract : String) :
    (∀ failure, FailsIn disk p contracts contract failure →
      (p.generateEach disk contracts).2.failures.get? contract = some failure) ∧
    ((∀ failure, ¬FailsIn disk p contracts contract failure) →
      (p.generateEach disk contracts).2.failures.get? contract = p.failures.get? contract) := by
  induction contracts generalizing p with
  | nil => exact ⟨fun _ h => absurd h not_failsIn_nil, fun _ => rfl⟩
  | cons first rest ih =>
      rcases generateEach_cases p disk first with
        ⟨next, hnext, hgoes⟩ | ⟨cause, hcause, hstops, hends⟩
      · obtain ⟨hfails, hspares⟩ := ih next
        obtain ⟨hnow, hleft⟩ := hnext.failures contract
        have hcons (failure : Failure) :
            FailsIn disk p (first :: rest) contract failure ↔
              first = contract ∧ Fails disk p contract failure ∨
                FailsIn disk next rest contract failure :=
          failsIn_cons hnext.agrees fun rest => (hgoes rest).1
        rw [(hgoes rest).2]
        refine ⟨fun failure h => ?_, fun h => ?_⟩
        · by_cases hlater : FailsIn disk next rest contract failure
          · exact hfails failure hlater
          · -- the failure is recorded at once, and no other one can follow
            have hfirst := ((hcons failure).mp h).resolve_right hlater
            rw [hspares fun other hother =>
              hlater (hfirst.2.unique (hnext.agrees.fails_iff.mp hother.toFails) ▸ hother)]
            exact hnow failure hfirst
        · rw [hspares fun failure hlater => h failure ((hcons failure).mpr (.inr hlater)),
            hleft fun failure hfirst => h failure ((hcons failure).mpr (.inl hfirst))]
      · rw [(hends rest).2, (generate_spec p disk first).2.failures]
        refine ⟨fun failure h => absurd h ?_, fun _ => rfl⟩
        exact not_failsIn_of_ends hcause hstops fun rest => (hends rest).1

/-! ## Deployers and failures -/

theorem Settled.not_fails {artifact : Artifact} {libraries : List Resolved} {source : String}
    (h : Settled p contract artifact libraries source) : ¬Fails disk p contract failure := by
  intro hfails
  obtain ⟨notices, hagain⟩ := h.again
  have houtcome := hfails.outcome
  rw [outcome, hagain disk] at houtcome
  cases houtcome

/-- A contract that fails in a batch has no deployer after it. -/
theorem FailsIn.no_deployer (h : FailsIn disk p contracts contract failure)
    (hall : AllSettled p) :
    (p.generateEach disk contracts).2.deployers.contains contract = false := by
  cases hget : (p.generateEach disk contracts).2.deployers.get? contract with
  | none => rw [Entries.contains, hget, Option.isSome_none]
  | some source =>
      obtain ⟨artifact, libraries, hsettled⟩ :=
        (Grows.generateEach p disk contracts).all hall contract source hget
      have hafter := (agrees_generateEach p disk contracts).fails_iff.mpr h.toFails
      exact absurd hafter hsettled.not_fails

/-! ## Requests -/

/-- Only a batch in which a contract fails changes what is recorded for it. -/
theorem failures_handle (p : Project) (disk : Disk) (request : Request) (contract : String) :
    (request.handle disk p).failures.get? contract = p.failures.get? contract ∨
      ∃ contracts failure, request = .generateAll contracts ∧
        FailsIn disk p contracts contract failure ∧
        (request.handle disk p).failures.get? contract = some failure := by
  cases request with
  | load key => exact .inl (by rw [Request.handle, (keeps_load p disk key).failures])
  | generate other => exact .inl (by rw [Request.handle, (generate_spec p disk other).2.failures])
  | generateAll contracts =>
      obtain ⟨hfails, hspares⟩ := failures_generateEach p disk contracts contract
      by_cases h : ∃ failure, FailsIn disk p contracts contract failure
      · obtain ⟨failure, h⟩ := h
        exact .inr ⟨contracts, failure, rfl, h, hfails failure h⟩
      · exact .inl (hspares fun failure hfailure => h ⟨failure, hfailure⟩)

/-- A failure that is recorded is never taken away. -/
theorem failures_kept (p : Project) (history : List (Disk × Request))
    (h : p.failures.contains contract = true) :
    (p.through history).failures.contains contract = true := by
  induction history generalizing p with
  | nil => exact h
  | cons event rest ih =>
      obtain ⟨disk, request⟩ := event
      refine ih _ ?_
      rcases failures_handle p disk request contract with hsame | ⟨contracts, failure, -, -, hget⟩
      · rwa [Entries.contains, hsame]
      · rw [Entries.contains, hget, Option.isSome_some]

/-- What is recorded for a contract with a deployer does not change. -/
theorem Settled.failures_through {artifact : Artifact} {libraries : List Resolved}
    {source : String} (h : Settled p contract artifact libraries source)
    (history : List (Disk × Request)) :
    (p.through history).failures.get? contract = p.failures.get? contract := by
  induction history generalizing p with
  | nil => rfl
  | cons event rest ih =>
      obtain ⟨disk, request⟩ := event
      have hnext := ih ((Grows.handle p disk request).settled h)
      rcases failures_handle p disk request contract with hsame | ⟨contracts, failure, -, hfails, -⟩
      · exact hnext.trans hsame
      · exact absurd hfails.toFails h.not_fails

/-- A failure that was not there at the start is from a batch. -/
theorem exists_failsIn (p : Project) (history : List (Disk × Request))
    (hstart : p.failures.contains contract = false)
    (h : (p.through history).failures.contains contract = true) :
    ∃ before disk contracts after failure,
      history = before ++ (disk, .generateAll contracts) :: after ∧
        FailsIn disk (p.through before) contracts contract failure := by
  induction history generalizing p with
  | nil =>
      rw [show p.through [] = p from rfl, hstart] at h
      cases h
  | cons event rest ih =>
      obtain ⟨disk, request⟩ := event
      rcases failures_handle p disk request contract with
        hsame | ⟨contracts, failure, rfl, hfails, -⟩
      · have hnext : (request.handle disk p).failures.contains contract = false := by
          rwa [Entries.contains, hsame]
        obtain ⟨before, other, contracts, after, failure, rfl, hfails⟩ := ih _ hnext h
        exact ⟨(disk, request) :: before, other, contracts, after, failure, rfl, hfails⟩
      · exact ⟨[], disk, contracts, rest, failure, rfl, hfails⟩

theorem through_append (p : Project) (before after : List (Disk × Request)) :
    p.through (before ++ after) = (p.through before).through after :=
  List.foldl_append ..

/-- Requests with one disk. -/
theorem through_of_disk (p : Project) {history : List (Disk × Request)}
    (h : ∀ event ∈ history, event.1 = disk) :
    p.through history = p.after disk (history.map Prod.snd) := by
  induction history generalizing p with
  | nil => rfl
  | cons event rest ih =>
      obtain ⟨other, request⟩ := event
      obtain rfl : other = disk := h (other, request) List.mem_cons_self
      exact ih _ fun event hevent => h event (List.mem_cons_of_mem _ hevent)

/-- No contract gets both a deployer and a failure from one disk. -/
theorem Follows.not_reportedTwice {base : Project} (h : Follows disk base p) :
    ¬ReportedTwice p contract := by
  rintro ⟨hdeployer, hfailure⟩
  obtain ⟨source, hsource⟩ := Option.isSome_iff_exists.mp hdeployer
  obtain ⟨failure, hfailure⟩ := Option.isSome_iff_exists.mp hfailure
  cases (h.deployers _ _ hsource).symm.trans (h.failures _ _ hfailure)

/-- **A contract has a deployer and a failure exactly if it failed in a batch
and was generated later.** For every platform, all options and every history
of requests, the disk being another one at each of them: a contract with a
deployer has a failure too if and only if it failed in some batch, after
which it had no deployer yet. From then on its failure does not change, and
if it has none it never gets one. As long as the disk stays the same no
contract has both. -/
theorem failures_stand (platform : Platform) (options : Json.Fields)
    (history : List (Disk × Request)) :
    let fresh := start platform options
    let used := fresh.through history
    (∀ contract, ReportedTwice used contract ↔
      used.deployers.contains contract = true ∧
        ∃ before disk contracts after failure,
          history = before ++ (disk, .generateAll contracts) :: after ∧
            FailsIn disk (fresh.through before) contracts contract failure ∧
            (fresh.through (before ++ [(disk, .generateAll contracts)])).deployers.contains
              contract = false) ∧
      (∀ contract, used.deployers.contains contract = true →
        ∀ later, (used.through later).failures.get? contract = used.failures.get? contract) ∧
      ∀ disk, (∀ event ∈ history, event.1 = disk) → ∀ contract, ¬ReportedTwice used contract := by
  intro fresh used
  refine ⟨fun contract => and_congr_right fun _ => ⟨fun hfailure => ?_, ?_⟩, ?_, ?_⟩
  · obtain ⟨before, disk, contracts, after, failure, hsplit, hfails⟩ :=
      exists_failsIn fresh history rfl hfailure
    refine ⟨before, disk, contracts, after, failure, hsplit, hfails, ?_⟩
    rw [through_append]
    exact hfails.no_deployer (allSettled_through platform options before)
  · rintro ⟨before, disk, contracts, after, failure, rfl, hfails, -⟩
    show (fresh.through (before ++ _)).failures.contains contract = true
    rw [through_append]
    refine failures_kept _ after ?_
    have hrecorded := (failures_generateEach _ disk contracts contract).1 failure hfails
    exact Option.isSome_iff_exists.mpr ⟨failure, hrecorded⟩
  · intro contract hdeployer later
    obtain ⟨source, hsource⟩ := Option.isSome_iff_exists.mp hdeployer
    obtain ⟨artifact, libraries, hsettled⟩ :=
      allSettled_through platform options history contract source hsource
    exact hsettled.failures_through later
  · intro disk hdisk contract
    show ¬ReportedTwice (fresh.through history) contract
    rw [through_of_disk fresh hdisk]
    exact ((follows_start platform options disk).after _).not_reportedTwice

/-- The artifact of the contract is written after a batch in which it failed. -/
theorem reportedTwice_late :
    ReportedTwice ((start atRoot []).through
      [(⟨[], []⟩, .generateAll ["Token"]), (halfReadable, .generate "Token")]) "Token" :=
  ⟨by decide +kernel, by decide +kernel⟩

end SolDeployer.Project
