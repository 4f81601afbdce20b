import SolDeployer.Proofs.Artifact.Literals
import SolDeployer.Proofs.Deployer.Agreement
import SolDeployer.Proofs.Project.Permanence

/-!
# Places of libraries after a generation

A contract with a deployer has its libraries resolved, and all their
artifacts were read. So only one thing can stand in the way of a
prediction: the slots of a library that do not fit its bytecode. A
generation finds this out for the libraries that it deploys along; those of
a contract without any slot are resolved and never looked at.
-/

namespace SolDeployer

/-- The slots of a library fit its bytecode. -/
def SlotsFit (library : Resolved) : Prop :=
  ∃ code, segment library.artifact.bytecode library.artifact.links = .ok code

/-- The first slot of a library that does not fit, and why. -/
def HasMisfit (misfit : Misfit) (library : Resolved) : Prop :=
  segment library.artifact.bytecode library.artifact.links = .error misfit

/-! ## Predictions -/

section Prediction

variable {deployer : String} {bytes : List UInt8} {libraries : List Resolved}

theorem predictFrom_append {deployer : Json} {byKey : Entries String String}
    {before : List Resolved} {pairs : List (String × String)}
    (h : (predictFrom deployer byKey before).result = .ok pairs) :
    ∃ known, ∀ rest, (predictFrom deployer byKey (before ++ rest)).result =
      (predictFrom deployer known rest).result >>= fun others => .ok (pairs ++ others) := by
  induction before generalizing byKey pairs with
  | nil =>
      obtain rfl := Except.ok.inj h
      refine ⟨byKey, fun rest => ?_⟩
      show (predictFrom deployer byKey rest).result = _ >>= pure
      rw [bind_pure]
  | cons library before ih =>
      rw [predictFrom_cons] at h
      obtain ⟨text, hone, h⟩ := bind_eq_ok.mp h
      obtain ⟨others, hothers, h⟩ := bind_eq_ok.mp h
      obtain rfl := Except.ok.inj h
      obtain ⟨known, hknown⟩ := ih hothers
      refine ⟨known, fun rest => ?_⟩
      rw [List.cons_append, predictFrom_cons, hone]
      show (predictFrom deployer _ (before ++ rest)).result >>= _ = _
      rw [hknown, bind_assoc]
      rfl

/-- A text that is not an address creates nothing, and is to blame for it. -/
theorem create2_unaddressed (initcode : String)
    (hdeployer : ∀ bytes, Hex.markedBytes? deployer.toList = some bytes → bytes.length ≠ 20) :
    ∃ cause, create2 (.str deployer) (.str initcode) (.str Address.zeroSalt) =
      .error (.create2 cause) := by
  cases hbytes : Hex.markedBytes? deployer.toList with
  | none =>
      refine ⟨.notHex, ?_⟩
      show (if (Hex.markedBytes? deployer.toList).isNone = true then _ else _) = _
      rw [hbytes]
      rfl
  | some bytes =>
      refine ⟨.deployerSize deployer, ?_⟩
      rw [create2_str hbytes, Address.create2, hbytes, Address.markedBytes?_zeroSalt]
      show Except.mapError _ (if bytes.length ≠ 20 then _ else _) = _
      rw [if_pos (hdeployer bytes hbytes)]
      rfl

/-- A library with a misfit has no address. -/
theorem predictFrom_misfit {deployer : Json} {byKey : Entries String String} {library : Resolved}
    {misfit : Misfit} (h : HasMisfit misfit library) (rest : List Resolved) :
    (predictFrom deployer byKey (library :: rest)).result =
      .error (.ofMisfit misfit) := by
  have hsegment : (Deployer.segmentArtifact library.artifact).result =
      .error (.ofMisfit misfit) := by
    unfold Deployer.segmentArtifact
    rw [show segment library.artifact.bytecode library.artifact.links = .error misfit from h]
    rfl
  rw [predictFrom_cons, predictOne, Report.bind_result, hsegment]
  rfl

/-- Either all slots fit, or some library is the first with one that does not. -/
theorem fit_or_misfit (libraries : List Resolved) :
    (∀ library ∈ libraries, SlotsFit library) ∨
      ∃ misfit, FirstOf SlotsFit (HasMisfit misfit) libraries := by
  induction libraries with
  | nil => exact .inl nofun
  | cons library rest ih =>
      simp only [firstOf_cons, List.forall_mem_cons]
      cases hsegment : segment library.artifact.bytecode library.artifact.links with
      | error misfit => exact .inr ⟨misfit, .inl hsegment⟩
      | ok code =>
          rcases ih with hfit | ⟨misfit, hfirst⟩
          · exact .inl ⟨⟨code, hsegment⟩, hfit⟩
          · exact .inr ⟨misfit, .inr ⟨⟨code, hsegment⟩, hfirst⟩⟩

/-- Libraries in an order in which they can be deployed, each with an artifact
that was read. -/
structure Deployable (libraries : List Resolved) : Prop where
  keys : (libraries.map Resolved.key).Nodup
  identifiers : (libraries.map Resolved.identifier).Nodup
  ordered : ∀ before library after, libraries = before ++ library :: after →
    ∀ child ∈ library.artifact.libraryIds, child.key ∈ before.map Resolved.key
  read : ∀ library ∈ libraries, WasRead library.artifact

namespace Deployable

theorem left {before rest : List Resolved} (h : Deployable (before ++ rest)) :
    Deployable before where
  keys := h.keys.sublist ((List.sublist_append_left before rest).map _)
  identifiers := h.identifiers.sublist ((List.sublist_append_left before rest).map _)
  ordered first library after hsplit := h.ordered first library (after ++ rest) (by
    rw [hsplit, List.append_assoc]
    rfl)
  read library hmem := h.read library (List.mem_append_left _ hmem)

/-- If all slots fit there are addresses for all libraries. -/
theorem predicted (h : Deployable libraries) (hfit : ∀ library ∈ libraries, SlotsFit library)
    (hdeployer : Hex.markedBytes? deployer.toList = some bytes) (hlength : bytes.length = 20) :
    ∃ texts, Predicted deployer [] libraries texts := by
  have hordered : ∀ before library after, libraries = before ++ library :: after →
      ∀ child ∈ library.artifact.libraryIds,
        child.key ∈ Entries.keys ([] : Entries String String) ++ before.map Resolved.key :=
    h.ordered
  have hkeys : (Entries.keys ([] : Entries String String) ++ libraries.map Resolved.key).Nodup :=
    h.keys
  rcases predictFrom_spec hdeployer hlength hfit hkeys (fun key hmem => by cases hmem) hordered with
    hpredicted | ⟨library, hmem, hwithout, -⟩
  · exact hpredicted
  · obtain ⟨document, contract, host, hread⟩ := h.read library hmem
    obtain ⟨code, hcode⟩ := hfit library hmem
    exact absurd hwithout (not_withoutBytes (Artifact.read_ok hread) hcode)

theorem predict_ok (h : Deployable libraries) (hfit : ∀ library ∈ libraries, SlotsFit library)
    (hdeployer : Hex.markedBytes? deployer.toList = some bytes) (hlength : bytes.length = 20) :
    ∃ addresses, (predict (.str deployer) libraries).result = .ok addresses ∧
      ∀ library ∈ libraries, ∃ address : List UInt8, address.length = 20 ∧
        addresses.get? library.identifier = some (Address.checksummed address) := by
  obtain ⟨texts, hpredicted⟩ := h.predicted hfit hdeployer hlength
  refine ⟨Entries.ofList ((libraries.map Resolved.identifier).zip texts), ?_, ?_⟩
  · rw [predict_result, hpredicted.result]
    rfl
  · intro library hmem
    obtain ⟨text, hpair⟩ := exists_mem_zip hpredicted.length hmem
    have hcreate := hpredicted.created (library, text) hpair
    rw [Address.create2_eq hdeployer hlength] at hcreate
    split at hcreate
    · rename_i code hcode
      refine ⟨Address.create2Bytes bytes (List.replicate 32 0) code,
        Address.length_create2Bytes .., ?_⟩
      rw [Except.ok.inj hcreate]
      exact get?_ofList_identifiers h.identifiers hpredicted.length hpair
    · cases hcreate

/-- The first library whose slots do not fit ends the prediction. -/
theorem predict_misfit (h : Deployable libraries) {misfit : Misfit}
    (hfirst : FirstOf SlotsFit (HasMisfit misfit) libraries)
    (hdeployer : Hex.markedBytes? deployer.toList = some bytes) (hlength : bytes.length = 20) :
    (predict (.str deployer) libraries).result = .error (.ofMisfit misfit) := by
  obtain ⟨before, library, after, rfl, hfit, hmisfit⟩ := hfirst
  obtain ⟨texts, hpredicted⟩ := h.left.predicted hfit hdeployer hlength
  obtain ⟨known, hknown⟩ := predictFrom_append hpredicted.result
  rw [predict_result, hknown, predictFrom_misfit hmisfit]
  rfl

/-- Nothing else can go wrong. -/
theorem predict_error_iff (h : Deployable libraries)
    (hdeployer : Hex.markedBytes? deployer.toList = some bytes) (hlength : bytes.length = 20)
    (failure : Failure) : (predict (.str deployer) libraries).result = .error failure ↔
      ∃ misfit, failure = .ofMisfit misfit ∧
        FirstOf SlotsFit (HasMisfit misfit) libraries := by
  constructor
  · intro hfails
    rcases fit_or_misfit libraries with hfit | ⟨misfit, hfirst⟩
    · obtain ⟨addresses, haddresses, -⟩ := h.predict_ok hfit hdeployer hlength
      cases haddresses.symm.trans hfails
    · have hmisfit := h.predict_misfit hfirst hdeployer hlength
      exact ⟨misfit, Except.error.inj (hfails.symm.trans hmisfit), hfirst⟩
  · rintro ⟨misfit, rfl, hfirst⟩
    exact h.predict_misfit hfirst hdeployer hlength

/-- With a text that is not an address the first library has none, and for this
reason. -/
theorem predict_unaddressed {library : Resolved} {rest : List Resolved}
    (h : Deployable (library :: rest)) (hfit : SlotsFit library)
    (hdeployer : ∀ bytes, Hex.markedBytes? deployer.toList = some bytes → bytes.length ≠ 20) :
    ∃ cause, (predict (.str deployer) (library :: rest)).result = .error (.create2 cause) := by
  obtain ⟨code, hcode⟩ := hfit
  have hneeds : ∀ child ∈ library.artifact.libraryIds, Known [] child.key := by
    intro child hchild
    cases h.ordered [] library rest rfl child hchild
  have hone := predictOne_code (.str deployer) hcode hneeds
  obtain ⟨cause, hcause⟩ :=
    create2_unaddressed (String.ofList (codeByName [] library.artifact)) hdeployer
  refine ⟨cause, ?_⟩
  rw [predict_result, predictFrom_cons, hone, hcause]
  rfl

end Deployable

end Prediction

namespace Project

open Files (Disk)

variable {disk : Disk} {p q : Project} {contract source : String} {artifact : Artifact}
  {libraries : List Resolved}

/-! ## Artifacts that are kept were read -/

/-- Every artifact that is kept was read. -/
def AllRead (p : Project) : Prop :=
  ∀ key artifact, p.artifacts.get? key = some artifact → WasRead artifact

theorem AllRead.of_artifact (h : AllRead p) {key : ArtifactKey}
    (hartifact : p.artifact disk key = .ok artifact) : WasRead artifact := by
  unfold Project.artifact at hartifact
  split at hartifact
  · rename_i kept hkept
    obtain rfl := Except.ok.inj hartifact
    exact h key _ hkept
  · obtain ⟨text, -, hread⟩ := bind_eq_ok.mp hartifact
    exact ⟨_, _, _, hread⟩

/-- A project that finds what another one finds keeps nothing else. -/
theorem AllRead.agrees (h : AllRead p) (hagrees : Agrees disk q p) : AllRead q := by
  intro key artifact hkept
  refine @AllRead.of_artifact disk p artifact h key ?_
  rw [← hagrees.artifact]
  exact artifact_of_kept hkept disk

theorem AllRead.handle (h : AllRead p) (disk : Disk) (request : Request) :
    AllRead (request.handle disk p) := by
  cases request with
  | load key => exact h.agrees (keeps_load p disk key).agrees
  | generate contract => exact h.agrees (generate_spec p disk contract).2.agrees
  | generateAll contracts => exact h.agrees (agrees_generateEach p disk contracts)

theorem AllRead.through (h : AllRead p) (history : List (Disk × Request)) :
    AllRead (p.through history) := by
  induction history generalizing p with
  | nil => exact h
  | cons event rest ih =>
      obtain ⟨disk, request⟩ := event
      exact ih (h.handle disk request)

/-! ## The libraries of a deployer -/

theorem FromKept.deployable (h : FromKept p artifact libraries) (hread : AllRead p) :
    Deployable libraries := by
  cases h with
  | unneeded hneeds =>
      refine ⟨List.nodup_nil, List.nodup_nil, ?_, nofun⟩
      intro before library after hsplit
      simp at hsplit
  | @resolved outcome libraries hneeds hkept hends hresult =>
      have hresolve : (resolve (p.loader ⟨[], []⟩) (p.resolutionSteps ⟨[], []⟩ artifact.links)
          p.disambiguate artifact.links).result = .ok libraries := by
        rw [resolve_of_ends (hends ⟨[], []⟩)]
        exact hresult
      obtain ⟨-, -, -, hidentifiers⟩ := resolve_entries hresolve
      refine ⟨resolved_keys_nodup hresolve, hidentifiers, ?_, ?_⟩
      · intro before library after hsplit child hchild
        exact resolved_before hresolve hsplit hchild
      · intro library hmem
        exact hread.of_artifact (resolved_loaded hresolve hmem)

/-- The libraries that are deployed along with a contract fit. -/
theorem Settled.slotsFit (h : Settled p contract artifact libraries source)
    (hslots : artifact.links.placements ≠ []) : ∀ library ∈ libraries, SlotsFit library := by
  obtain ⟨d, hplan, -⟩ := Deployer.generate_ok h.made
  have hlibraries := Deployer.plan_libraries hslots hplan
  intro library hmem
  have hdeployed : library ∈ d.libraries.map Deployer.Inlined.library := by
    rw [hlibraries]
    exact hmem
  obtain ⟨inlined, hinlined, rfl⟩ := List.mem_map.mp hdeployed
  exact ⟨inlined.code, (Deployer.plan_ok hplan).2.2 inlined hinlined⟩

/-- Where the libraries of a contract go, as a deployer creates them. If the
contract itself has slots they are deployed along, and they fit. As long as
all fit, each has an address; the first one that does not fit is the only
thing that can go wrong. -/
structure Places (p : Project) (contract deployer : String) : Prop where
  fits : ∃ artifact, p.artifacts.get? ⟨contract, none⟩ = some artifact ∧
    (artifact.links.placements ≠ [] → ∀ library ∈ p.librariesOf contract, SlotsFit library)
  placed : (∀ library ∈ p.librariesOf contract, SlotsFit library) →
    ∃ addresses, (predict (.str deployer) (p.librariesOf contract)).result = .ok addresses ∧
      ∀ library ∈ p.librariesOf contract, ∃ address : List UInt8, address.length = 20 ∧
        addresses.get? library.identifier = some (Address.checksummed address)
  fails : ∀ failure, (predict (.str deployer) (p.librariesOf contract)).result = .error failure ↔
    ∃ misfit, failure = .ofMisfit misfit ∧
      FirstOf SlotsFit (HasMisfit misfit) (p.librariesOf contract)

/-- What is recorded of a contract with a deployer, whatever came before. -/
theorem settled_through (platform : Platform) (options : Json.Fields)
    (history : List (Disk × Request))
    (hsource : ((start platform options).through history).deployers.get? contract = some source) :
    ∃ artifact, ((start platform options).through history).artifacts.get? ⟨contract, none⟩ =
        some artifact ∧
      Deployable (((start platform options).through history).librariesOf contract) ∧
      (artifact.links.placements ≠ [] →
        ∀ library ∈ ((start platform options).through history).librariesOf contract,
          SlotsFit library) := by
  obtain ⟨artifact, libraries, hsettled⟩ :=
    allSettled_through platform options history contract source hsource
  have hread : AllRead ((start platform options).through history) :=
    AllRead.through (p := start platform options) nofun history
  have hlibraries : ((start platform options).through history).librariesOf contract =
      libraries := by
    rw [librariesOf, hsettled.recorded]
    rfl
  rw [hlibraries]
  exact ⟨artifact, hsettled.kept, hsettled.resolved.deployable hread, hsettled.slotsFit⟩

theorem places_through (platform : Platform) (options : Json.Fields)
    (history : List (Disk × Request))
    (hsource : ((start platform options).through history).deployers.get? contract = some source)
    {deployer : String} {bytes : List UInt8}
    (hdeployer : Hex.markedBytes? deployer.toList = some bytes) (hlength : bytes.length = 20) :
    Places ((start platform options).through history) contract deployer := by
  obtain ⟨artifact, hkept, hdeployable, hfits⟩ :=
    settled_through platform options history hsource
  exact ⟨⟨artifact, hkept, hfits⟩, fun hfit => hdeployable.predict_ok hfit hdeployer hlength,
    hdeployable.predict_error_iff hdeployer hlength⟩

end Project

end SolDeployer
