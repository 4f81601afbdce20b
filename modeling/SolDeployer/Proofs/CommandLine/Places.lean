import SolDeployer.CommandLine
import SolDeployer.Proofs.Project.Places

/-!
# Telling the places of libraries

For each contract with a deployer the command line predicts where its
libraries go, tells it, and turns to the next one. Telling never fails, so
how this ends is decided by the predictions alone: by the first one that
fails, and by whether the address of the deployer is to blame for it. A
library whose slots do not fit is not: such a failure ends the whole run.
But a failure for want of bytes or of digits is taken for a bad address.
-/

namespace SolDeployer.CommandLine

open Files (Disk)
open Project (Places)

variable {project : Project}

/-! ## One contract after the other -/

theorem bind_of_ok {α β : Type} {first : Action α} {next : α → Action β}
    {workspace after : Workspace} {notices : List Notice} {a : α}
    (h : first workspace = (⟨notices, .ok a⟩, after)) :
    (first >>= next) workspace =
      (⟨notices ++ (next a after).1.notices, (next a after).1.result⟩, (next a after).2) := by
  show Action.bind first next workspace = _
  rw [Action.bind, h]

/-- Notices are told one after the other, and nothing else happens. -/
theorem doAll_tells {α : Type} (notice : α → Notice) (items : List α) (workspace : Workspace) :
    doAll (items.map fun item => Action.tell (notice item)) workspace =
      (⟨items.map notice, .ok ()⟩, workspace) := by
  induction items with
  | nil => rfl
  | cons item rest ih =>
      have hfirst : Action.tell (notice item) workspace = (⟨[notice item], .ok ()⟩, workspace) :=
        rfl
      rw [List.map_cons, doAll, bind_of_ok hfirst, ih]
      rfl

/-- A prediction that succeeds leaves it to the contracts that follow, and the
first one that fails decides. -/
theorem tellPlaces_cons (project : Project) (deployer : Json) (contract : String)
    (rest : List String) (workspace : Workspace) :
    (∀ addresses, (predict deployer (project.librariesOf contract)).result = .ok addresses →
      (tellPlaces project deployer (contract :: rest) workspace).1.result =
        (tellPlaces project deployer rest workspace).1.result) ∧
    ∀ failure, (predict deployer (project.librariesOf contract)).result = .error failure →
      (tellPlaces project deployer (contract :: rest) workspace).1.result =
        if isBadAddress failure then .ok false else .error failure := by
  cases hlibraries : project.librariesOf contract with
  | nil =>
      rw [tellPlaces, hlibraries]
      exact ⟨fun _ _ => rfl, nofun⟩
  | cons library others =>
      have hattempt : attempt (Action.report (predict deployer (library :: others))) workspace =
          (⟨(predict deployer (library :: others)).notices,
            .ok (predict deployer (library :: others)).result⟩, workspace) := rfl
      rw [tellPlaces, hlibraries]
      show (∀ _, _ → ((attempt (Action.report (predict deployer (library :: others))) >>= _)
        workspace).1.result = _) ∧ ∀ _, _ → ((attempt _ >>= _) workspace).1.result = _
      rw [bind_of_ok hattempt]
      refine ⟨fun addresses hpredict => ?_, fun failure hpredict => ?_⟩
      · rw [hpredict]
        show ((doAll (addresses.map fun pair =>
          Action.tell (.placed contract pair.1 pair.2)) >>= _) workspace).1.result = _
        rw [bind_of_ok (doAll_tells (fun pair => .placed contract pair.1 pair.2) addresses
          workspace)]
      · rw [hpredict]
        simp only
        split <;> rfl

/-- Either all predictions succeed, or one that fails decides. -/
theorem tellPlaces_cases (project : Project) (deployer : Json) (contracts : List String)
    (workspace : Workspace) :
    ((∀ contract ∈ contracts, ∃ addresses,
        (predict deployer (project.librariesOf contract)).result = .ok addresses) ∧
      (tellPlaces project deployer contracts workspace).1.result = .ok true) ∨
    ∃ contract ∈ contracts, ∃ failure,
      (predict deployer (project.librariesOf contract)).result = .error failure ∧
      (tellPlaces project deployer contracts workspace).1.result =
        if isBadAddress failure then .ok false else .error failure := by
  induction contracts with
  | nil => exact .inl ⟨nofun, rfl⟩
  | cons contract rest ih =>
      obtain ⟨hgoes, hstops⟩ := tellPlaces_cons project deployer contract rest workspace
      cases hpredict : (predict deployer (project.librariesOf contract)).result with
      | error failure =>
          exact .inr ⟨contract, List.mem_cons_self, failure, hpredict, hstops failure hpredict⟩
      | ok addresses =>
          rw [hgoes addresses hpredict]
          rcases ih with ⟨hall, hends⟩ | ⟨other, hmem, hother⟩
          · exact .inl ⟨List.forall_mem_cons.mpr ⟨⟨addresses, hpredict⟩, hall⟩, hends⟩
          · exact .inr ⟨other, List.mem_cons_of_mem _ hmem, hother⟩

/-! ## After a generation -/

/-- The slots of all libraries of some contracts fit. -/
def AllFit (project : Project) (contracts : List String) : Prop :=
  ∀ contract ∈ contracts, ∀ library ∈ project.librariesOf contract, SlotsFit library

/-- With the address of a deployer, slots that do not fit are all that can go
wrong. -/
theorem tellPlaces_addressed {deployer : String} {contracts : List String}
    (hplaces : ∀ contract ∈ contracts, Places project contract deployer) (workspace : Workspace) :
    (AllFit project contracts →
      (tellPlaces project (.str deployer) contracts workspace).1.result = .ok true) ∧
    (¬AllFit project contracts → ∃ contract ∈ contracts, ∃ misfit,
      FirstOf SlotsFit (HasMisfit misfit) (project.librariesOf contract) ∧
      (tellPlaces project (.str deployer) contracts workspace).1.result =
        if isBadAddress (.ofMisfit misfit) then .ok false else .error (.ofMisfit misfit)) := by
  rcases tellPlaces_cases project (.str deployer) contracts workspace with
    ⟨hall, hends⟩ | ⟨contract, hmem, failure, hfails, hends⟩
  · refine ⟨fun _ => hends, fun hnot => absurd ?_ hnot⟩
    intro contract hmem
    obtain ⟨addresses, haddresses⟩ := hall contract hmem
    refine (fit_or_misfit _).resolve_right ?_
    rintro ⟨misfit, hfirst⟩
    cases haddresses.symm.trans (((hplaces contract hmem).fails _).mpr ⟨misfit, rfl, hfirst⟩)
  · obtain ⟨misfit, rfl, hfirst⟩ := ((hplaces contract hmem).fails failure).mp hfails
    refine ⟨fun hfit => ?_, fun _ => ⟨contract, hmem, misfit, hfirst, hends⟩⟩
    obtain ⟨addresses, haddresses, -⟩ := (hplaces contract hmem).placed (hfit contract hmem)
    cases haddresses.symm.trans hfails

/-- With a text that is no address, that is told as soon as there is a library
to place. -/
theorem tellPlaces_unaddressed {deployer : String} {contracts : List String}
    (hdeployable : ∀ contract ∈ contracts, Deployable (project.librariesOf contract))
    (hfit : AllFit project contracts)
    (hdeployer : ∀ bytes, Hex.markedBytes? deployer.toList = some bytes → bytes.length ≠ 20)
    (workspace : Workspace) :
    (tellPlaces project (.str deployer) contracts workspace).1.result =
      .ok (contracts.all fun contract => (project.librariesOf contract).isEmpty) := by
  induction contracts with
  | nil => rfl
  | cons contract rest ih =>
      obtain ⟨hfirst, hrest⟩ := List.forall_mem_cons.mp hdeployable
      obtain ⟨hfitFirst, hfitRest⟩ := List.forall_mem_cons.mp hfit
      obtain ⟨hgoes, hstops⟩ := tellPlaces_cons project (.str deployer) contract rest workspace
      rw [List.all_cons]
      cases hlibraries : project.librariesOf contract with
      | nil =>
          rw [hlibraries] at hgoes
          exact (hgoes [] rfl).trans (ih hrest hfitRest)
      | cons library others =>
          rw [hlibraries] at hfirst hfitFirst hstops
          obtain ⟨cause, hcause⟩ :=
            hfirst.predict_unaddressed (hfitFirst library List.mem_cons_self) hdeployer
          exact hstops _ hcause

/-- **Slots that do not fit are all that can stand in the way of a place.**
For every platform, all options, every history of requests and every deployer
with an address of 20 bytes: a contract for which a deployer is generated has
its `Places`, and so has every contract that has a deployer from earlier on.
Telling the places succeeds if the slots of all libraries of these contracts
fit, and ends with one that does not otherwise; if that is no defect, it is
taken for a bad address. If all fit, even a deployer that is no address does
not end the run: it is reported if there is any library. -/
theorem places_after_generation (platform : Platform) (options : Json.Fields)
    (history : List (Disk × Project.Request)) :
    let used := (Project.start platform options).through history
    let told := fun (deployer : String) (workspace : Workspace) =>
      (tellPlaces used (.str deployer) used.deployers.keys workspace).1.result
    (∀ (deployer : String) (bytes : List UInt8),
      Hex.markedBytes? deployer.toList = some bytes → bytes.length = 20 →
      (∀ disk contract source, (used.generate disk contract).1.result = .ok source →
        Places (used.generate disk contract).2 contract deployer) ∧
      (∀ contract source, used.deployers.get? contract = some source →
        Places used contract deployer) ∧
      ∀ workspace,
        (AllFit used used.deployers.keys → told deployer workspace = .ok true) ∧
        (¬AllFit used used.deployers.keys → ∃ contract ∈ used.deployers.keys, ∃ misfit,
          FirstOf SlotsFit (HasMisfit misfit) (used.librariesOf contract) ∧
          told deployer workspace =
            if isBadAddress (.ofMisfit misfit) then .ok false
            else .error (.ofMisfit misfit))) ∧
    ∀ deployer : String,
      (∀ bytes, Hex.markedBytes? deployer.toList = some bytes → bytes.length ≠ 20) →
      AllFit used used.deployers.keys → ∀ workspace, told deployer workspace =
        .ok (used.deployers.keys.all fun contract => (used.librariesOf contract).isEmpty) := by
  intro used told
  refine ⟨fun deployer bytes hdeployer hlength => ⟨?_, ?_, ?_⟩, ?_⟩
  · intro disk contract source hmade
    have hlater : (used.generate disk contract).2 =
        (Project.start platform options).through (history ++ [(disk, .generate contract)]) := by
      rw [Project.through, List.foldl_append]
      rfl
    obtain ⟨artifact, libraries, hsettled⟩ := Project.settled_generate hmade
    have hsource := hsettled.deployer
    rw [hlater] at hsource ⊢
    exact Project.places_through platform options _ hsource hdeployer hlength
  · intro contract source hsource
    exact Project.places_through platform options history hsource hdeployer hlength
  · refine tellPlaces_addressed fun contract hmem => ?_
    obtain ⟨source, hsource⟩ := Entries.exists_get?_of_mem_keys hmem
    exact Project.places_through platform options history hsource hdeployer hlength
  · intro deployer hdeployer hfit workspace
    refine tellPlaces_unaddressed (fun contract hmem => ?_) hfit hdeployer workspace
    obtain ⟨source, hsource⟩ := Entries.exists_get?_of_mem_keys hmem
    obtain ⟨artifact, -, hdeployable, -⟩ :=
      Project.settled_through platform options history hsource
    exact hdeployable

/-- The library of the vault has a place, and a deployer that is no address is
reported. -/
theorem places_after_generation_vault :
    let used := (Project.start Project.atRoot []).through
      [(Project.linkedVault, .generate "Vault")]
    let told := fun (deployer : String) (workspace : Workspace) =>
      (tellPlaces used (.str deployer) used.deployers.keys workspace).1.result
    (∃ source, used.deployers.get? "Vault" = some source) ∧ Places used "Vault" creator ∧
      AllFit used used.deployers.keys ∧
      ∀ workspace, told creator workspace = .ok true ∧ told "0x11" workspace = .ok false := by
  obtain ⟨haddressed, hunaddressed⟩ :=
    places_after_generation Project.atRoot [] [(Project.linkedVault, .generate "Vault")]
  obtain ⟨-, hplaces, htold⟩ := haddressed creator creatorBytes creator_bytes rfl
  generalize hused : (Project.start Project.atRoot []).through
    [(Project.linkedVault, .generate "Vault")] = used at *
  intro _ told
  obtain ⟨hkeys, hfits, hsome⟩ : used.deployers.keys = ["Vault"] ∧
      (used.librariesOf "Vault").all (fun library =>
        (segment library.artifact.bytecode library.artifact.links).isOk) = true ∧
      (used.librariesOf "Vault").isEmpty = false := by
    rw [← hused]
    decide +kernel
  have hshort : ∀ bytes, Hex.markedBytes? "0x11".toList = some bytes → bytes.length ≠ 20 := by
    decide +kernel
  have hmem : "Vault" ∈ used.deployers.keys := by
    rw [hkeys]
    exact List.mem_cons_self
  obtain ⟨source, hsource⟩ := Entries.exists_get?_of_mem_keys hmem
  have hfit : AllFit used used.deployers.keys := by
    intro contract hcontract library hlibrary
    rw [hkeys, List.mem_singleton] at hcontract
    subst hcontract
    exact exists_of_isOk (List.all_eq_true.mp hfits library hlibrary)
  refine ⟨⟨source, hsource⟩, hplaces "Vault" source hsource, hfit, fun workspace => ⟨?_, ?_⟩⟩
  · exact (htold workspace).1 hfit
  · refine (hunaddressed "0x11" hshort hfit workspace).trans ?_
    rw [hkeys, List.all_cons, hsome]
    rfl

/-- A contract that names a library without using it. The slot of the library
is outside of its bytecode. -/
def unlinkable : Disk where
  nodes := [
    (["out"], .directory),
    (["out", "Root.sol"], .directory),
    (["out", "Root.sol", "Root.json"], .file (Text.Utf8.encode
      ("\x7b\"bytecode\": \x7b\"object\": \"aa\", \"linkReferences\": " ++
        "\x7b\"m.sol\": \x7b\"Math\": []\x7d\x7d\x7d\x7d").toList)),
    (["out", "m.sol"], .directory),
    (["out", "m.sol", "Math.json"], .file (Text.Utf8.encode
      ("\x7b\"bytecode\": \x7b\"object\": \"6001\", \"linkReferences\": " ++
        "\x7b\"x.sol\": \x7b\"Lib\": " ++
        "[\x7b\"start\": 100, \"length\": 20\x7d]\x7d\x7d\x7d\x7d").toList)),
    (["out", "x.sol"], .directory),
    (["out", "x.sol", "Lib.json"], .file (Text.Utf8.encode
      "\x7b\"bytecode\": \x7b\"object\": \"6002\"\x7d\x7d".toList))]
  current := []

/-- The deployer of the contract is generated, and then its library stands in
the way, although the deployer has an address. -/
theorem places_missing :
    let used := (Project.start Project.atRoot []).through [(unlinkable, .generate "Root")]
    let misfit := Misfit.outside ⟨⟨100, 20⟩, ⟨"x.sol", "Lib"⟩⟩
    (used.deployers.get? "Root").isSome = true ∧
      Hex.markedBytes? creator.toList = some creatorBytes ∧ creatorBytes.length = 20 ∧
      (predict (.str creator) (used.librariesOf "Root")).result =
        .error (.malformed (.misfit misfit)) ∧
      ∀ workspace, (tellPlaces used (.str creator) used.deployers.keys workspace).1.result =
        .error (.malformed (.misfit misfit)) := by
  intro used misfit
  have hkeys : used.deployers.keys = ["Root"] := by decide +kernel
  have hpredict : (predict (.str creator) (used.librariesOf "Root")).result =
      .error (.malformed (.misfit misfit)) :=
    eq_error_of_check (by decide +kernel)
  refine ⟨by decide +kernel, creator_bytes, rfl, hpredict, fun workspace => ?_⟩
  rw [hkeys]
  exact (tellPlaces_cons _ _ "Root" [] workspace).2 _ hpredict

end SolDeployer.CommandLine
