import SolDeployer.Proofs.Deployer.Execution
import SolDeployer.Proofs.Prediction
import SolDeployer.Proofs.Resolution.Termination

/-!
# The deployer and the prediction agree

Where the generated code puts the libraries, and where they are predicted.
Both link a library with the addresses of those before it. The generated
code binds the parameters of a function to the values of variables, and a
variable is found by the key of a library; the prediction keeps addresses
by key and links by the names of the parameters. As long as the names of
the parameters of one library differ, both put the address of a key into
the slots of that key.

The proof goes along the order of deployment. What holds before each line
is `Agrees`: the variable of every key that has an address holds this
address. A call then returns the bytes that the prediction hashes
(`call_spec`), so the line keeps the address that is predicted.
-/

namespace SolDeployer

open Solidity (IsName)

/-! ## Values and texts -/

/-- The value of some pieces is what their text is read as. -/
theorem bytes?_refill {binding : String → Option (List UInt8)} {segments : List Segment}
    {value : List UInt8} (h : packed? binding segments = some value) {chars : List Char}
    (hchars : refill ((addressNames segments).map fun name =>
      Hex.ofBytes ((binding name).getD [])) segments = some chars) :
    Hex.bytes? chars = some value := by
  induction segments generalizing value chars with
  | nil =>
      obtain rfl := Option.some.inj h
      obtain rfl := Option.some.inj hchars
      rfl
  | cons segment rest ih =>
      cases segment with
      | hex digits =>
          simp only [packed?] at h
          split at h
          · rename_i bytes more hbytes hmore
            obtain rfl := Option.some.inj h
            simp only [addressNames, refill] at hchars
            obtain ⟨left, hleft, rfl⟩ := Option.map_eq_some_iff.mp hchars
            exact Hex.bytes?_append hbytes (ih hmore hleft)
          · cases h
      | address name =>
          simp only [packed?] at h
          split at h
          · rename_i bytes more hbytes hmore
            obtain rfl := Option.some.inj h
            simp only [addressNames, List.map_cons, refill, hbytes, Option.getD_some] at hchars
            obtain ⟨left, hleft, rfl⟩ := Option.map_eq_some_iff.mp hchars
            exact Hex.bytes?_append (Hex.bytes?_ofBytes bytes) (ih hmore hleft)
          · cases h

namespace Deployer

/-! ## One line -/

/-- The variable of every key that has an address holds this address. -/
def Agrees (known byKey : Entries String String) (store : Store) : Prop :=
  ∀ key ∈ byKey.keys, ∃ identifier address, known.get? key = some identifier ∧
    store.get? identifier = some address ∧ address.length = 20 ∧
    byKey.get? key = some (Address.checksummed address)

/-- No two keys have one identifier. -/
def OneToOne (known : Entries String String) : Prop :=
  ∀ key other identifier, known.get? key = some identifier → known.get? other = some identifier →
    key = other

/-- The value of the variable of a library. -/
def valueOf (known : Entries String String) (store : Store) (library : LibraryId) : List UInt8 :=
  (store.get? ((known.get? library.key).getD "")).getD []

section Line

variable {known byKey : Entries String String} {store : Store}

theorem Agrees.known_key (h : Agrees known byKey store) {key : String} (hkey : key ∈ byKey.keys) :
    Known byKey key := by
  obtain ⟨identifier, address, -, -, hlength, hget⟩ := h key hkey
  exact ⟨address, hlength, hget⟩

theorem Agrees.value (h : Agrees known byKey store) {library : LibraryId}
    (hkey : library.key ∈ byKey.keys) :
    (∀ name, store.get? (variableFor known ⟨name, library⟩) = some (valueOf known store library)) ∧
      (valueOf known store library).length = 20 ∧
      linkedAddress byKey library.key = Hex.ofBytes (valueOf known store library) := by
  obtain ⟨identifier, address, hknown, hstore, hlength, hget⟩ := h _ hkey
  have hvalue : valueOf known store library = address := by
    simp only [valueOf, hknown, Option.getD_some, hstore]
  rw [hvalue]
  refine ⟨fun name => ?_, hlength, linkedAddress_of_get hget hlength⟩
  simp only [variableFor, hknown, Option.getD_some, hstore]

variable {host : Host} {inlined : Inlined}

/-- The arguments of a call have values, and it returns the bytes of the
code that the prediction is made for. A proper bytecode has such bytes. -/
theorem call_spec (hcode : segment inlined.library.artifact.bytecode
      inlined.library.artifact.links = .ok inlined.code)
    (hnames : (inlined.code.parameters.map Parameter.name).Nodup)
    (hfunction : host.functions.get? (initcodeName inlined.library.identifier) =
      some (initcodeSource inlined.code))
    (hagrees : Agrees known byKey store)
    (hneeds : ∀ child ∈ inlined.library.artifact.libraryIds, child.key ∈ byKey.keys) :
    ∃ values, (inlined.code.parameters.map (variableFor known)).mapM store.get? = some values ∧
      (∀ value, host.call? (initcodeName inlined.library.identifier) values = some value →
        Hex.bytes? (codeByName byKey inlined.library.artifact) = some value) ∧
      (Artifact.bytecodeDefect? inlined.library.artifact.bytecode
          inlined.library.artifact.links = none →
        ∃ value, host.call? (initcodeName inlined.library.identifier) values = some value) := by
  obtain ⟨library, code⟩ := inlined
  simp only at hcode hnames hfunction hneeds ⊢
  have hparameters := segment_parameters hcode
  have hneeded : ∀ parameter ∈ code.parameters, parameter.library.key ∈ byKey.keys := by
    rw [hparameters]
    exact fun parameter hmem => hneeds _ (parameter_mem_libraryIds hmem)
  have hbound : ∀ placement ∈ library.artifact.links.byPosition,
      Entries.get? ((code.parameters.map Parameter.name).zip
        (code.parameters.map fun parameter => valueOf known store parameter.library))
        (variableIn library.artifact.links.byPosition placement.library) =
          some (valueOf known store placement.library) := fun placement hmem =>
    get?_arguments_of_key hcode hnames hmem fun parameter _ hkey => by
      simp only [valueOf, hkey]
  have hcall : host.call? (initcodeName library.identifier)
      (code.parameters.map fun parameter => valueOf known store parameter.library) =
        packed? (Entries.get? ((code.parameters.map Parameter.name).zip
          (code.parameters.map fun parameter => valueOf known store parameter.library)))
          code.segments := by
    simp only [Host.call?, hfunction, Option.bind_some, initcodeSource, List.length_map, if_true]
    rfl
  refine ⟨_, Solidity.mapM_map_eq_some fun parameter hmem =>
    (hagrees.value (hneeded parameter hmem)).1 parameter.name, fun value hvalue => ?_,
    fun hproper => ?_⟩
  · -- with names that differ, linking by names is linking by keys
    have hbyKey : codeByName byKey library.artifact = codeByKey byKey library.artifact := by
      refine (codeByName_eq_codeByKey (segment_ok hcode).1 fun child hchild =>
        hagrees.known_key (hneeds child hchild)).mpr (NamesAgree.of_nodup ?_)
      rwa [← hparameters]
    have hvalues : codeByKey byKey library.artifact =
        library.artifact.links.substituted library.artifact.bytecode fun placement =>
          Hex.ofBytes (valueOf known store placement.library) := by
      refine LinkReferences.substituted_congr (segment_ok hcode).1 fun placement hmem => ?_
      obtain ⟨own, hown, hkey, -⟩ := variableIn_mem hmem
      have hmem' := hneeds _ (parameter_mem_libraryIds hown)
      rw [hkey] at hmem'
      exact (hagrees.value hmem').2.2
    rw [hcall] at hvalue
    refine bytes?_refill hvalue ?_
    rw [hbyKey, hvalues, ← refill_segment hcode, addressNames_segment hcode, List.map_map]
    congr 1
    refine List.map_congr_left fun placement hmem => ?_
    rw [Function.comp_apply, hbound placement hmem, Option.getD_some]
  · have hnamed : ∀ name ∈ addressNames code.segments,
        (Entries.get? ((code.parameters.map Parameter.name).zip
          (code.parameters.map fun parameter => valueOf known store parameter.library))
          name).isSome = true := by
      rw [addressNames_segment hcode]
      intro name hmem
      obtain ⟨placement, hplacement, rfl⟩ := List.mem_map.mp hmem
      rw [hbound placement hplacement]
      rfl
    obtain ⟨value, hvalue, -⟩ :=
      packed?_refill (fun digits hmem => segment_digits hproper hcode hmem) hnamed
    exact ⟨value, hcall.trans hvalue⟩

/-- A new address is kept in a variable that no other key has. -/
theorem Agrees.insert (h : Agrees known byKey store)
    (hinj : OneToOne known)
    {key identifier : String} (hknown : known.get? key = some identifier)
    (hnew : key ∉ byKey.keys) {address : List UInt8} (hlength : address.length = 20) :
    Agrees known (byKey.insert key (Address.checksummed address)) (store.insert identifier address) := by
  rw [Entries.insert_of_notMem _ hnew]
  intro other hmem
  simp only [Entries.keys, List.map_append, List.mem_append, List.map_cons, List.map_nil,
    List.mem_singleton] at hmem
  rcases hmem with hmem | rfl
  · obtain ⟨name, value, hname, hvalue, hsize, hget⟩ := h other hmem
    have hne : name ≠ identifier := by
      rintro rfl
      exact hnew (hinj _ _ _ hknown hname ▸ hmem)
    exact ⟨name, value, hname, (Entries.get?_insert_of_ne _ _ hne).trans hvalue, hsize,
      Entries.get?_append_of_some hget⟩
  · refine ⟨identifier, address, hknown, Entries.get?_insert_self .., hlength, ?_⟩
    rw [Entries.get?_append_of_notMem hnew]
    simp [Entries.get?]

end Line

/-! ## One line after another -/

/-- Libraries to deploy in order when those of `byKey` are deployed: each
needs only earlier ones, and its function and its variable are its own. -/
structure Queue (host : Host) (known byKey : Entries String String) (rest : List Inlined) :
    Prop where
  code : ∀ inlined ∈ rest, segment inlined.library.artifact.bytecode
    inlined.library.artifact.links = .ok inlined.code
  names : ∀ inlined ∈ rest, (inlined.code.parameters.map Parameter.name).Nodup
  function : ∀ inlined ∈ rest, host.functions.get? (initcodeName inlined.library.identifier) =
    some (initcodeSource inlined.code)
  known : ∀ inlined ∈ rest, known.get? inlined.library.key = some inlined.library.identifier
  nodup : (byKey.keys ++ rest.map (·.library.key)).Nodup
  ordered : ∀ before inlined after, rest = before ++ inlined :: after →
    ∀ child ∈ inlined.library.artifact.libraryIds,
      child.key ∈ byKey.keys ++ before.map (·.library.key)

section Queue

variable {host : Host} {known byKey : Entries String String} {inlined : Inlined}
  {rest : List Inlined}

theorem Queue.head_new (h : Queue host known byKey (inlined :: rest)) :
    inlined.library.key ∉ byKey.keys := fun hmem =>
  (List.nodup_append.mp h.nodup).2.2 _ hmem _ (List.mem_cons_self ..) rfl

theorem Queue.head_needs (h : Queue host known byKey (inlined :: rest)) :
    ∀ child ∈ inlined.library.artifact.libraryIds, child.key ∈ byKey.keys := fun child hchild => by
  simpa using h.ordered [] inlined rest rfl child hchild

theorem Queue.tail (h : Queue host known byKey (inlined :: rest)) (text : String) :
    Queue host known (byKey.insert inlined.library.key text) rest := by
  have hkeys : (byKey.insert inlined.library.key text).keys = byKey.keys ++ [inlined.library.key] := by
    rw [Entries.insert_of_notMem _ h.head_new, keys_concat]
  refine ⟨fun one hmem => h.code one (List.mem_cons_of_mem _ hmem),
    fun one hmem => h.names one (List.mem_cons_of_mem _ hmem),
    fun one hmem => h.function one (List.mem_cons_of_mem _ hmem),
    fun one hmem => h.known one (List.mem_cons_of_mem _ hmem), ?_, ?_⟩
  · rw [hkeys, List.append_assoc]
    exact h.nodup
  · intro before one after heq child hchild
    rw [hkeys, List.append_assoc]
    exact h.ordered (inlined :: before) one after (by rw [heq]; rfl) child hchild

/-- No later library has the variable of the first. -/
theorem Queue.head_target (h : Queue host known byKey (inlined :: rest)) (hinj : OneToOne known) :
    ∀ effect ∈ rest.map (fun one => (deployment known one).effect),
      effect.target? ≠ some inlined.library.identifier := by
  intro effect hmem heq
  obtain ⟨one, hone, rfl⟩ := List.mem_map.mp hmem
  have hidentifier : one.library.identifier = inlined.library.identifier := Option.some.inj heq
  have hknown := h.known one (List.mem_cons_of_mem _ hone)
  rw [hidentifier] at hknown
  have hkey : one.library.key = inlined.library.key :=
    hinj _ _ _ hknown (h.known inlined (List.mem_cons_self ..))
  have hnodup := (List.nodup_append.mp h.nodup).2.1
  rw [List.map_cons, List.nodup_cons] at hnodup
  exact hnodup.1 (hkey ▸ List.mem_map_of_mem (f := fun one : Inlined => one.library.key) hone)

variable {deployer : String} {bytes : List UInt8} {store : Store}

/-- What is predicted for some libraries, given what their variables hold in the end. -/
def heldAddresses (after : Store) (libraries : List Inlined) : List (String × String) :=
  libraries.map fun inlined => (inlined.library.identifier,
    Address.checksummed ((after.get? inlined.library.identifier).getD []))

/-- A line that deploys a library keeps the address that is predicted. -/
theorem deployment_agrees (hdeployer : Hex.markedBytes? deployer.toList = some bytes)
    (hlength : bytes.length = 20)
    (haddress : host.addressOf = Address.create2Bytes bytes (List.replicate 32 0))
    (hqueue : Queue host known byKey (inlined :: rest)) (hagrees : Agrees known byKey store)
    {after : Store} (hrun : (deployment known inlined).effect.run? host store = some after) :
    ∃ address, address.length = 20 ∧ after = store.insert inlined.library.identifier address ∧
      (predictOne (.str deployer) byKey inlined.library).result =
        .ok (Address.checksummed address) := by
  have hfirst := List.mem_cons_self (a := inlined) (l := rest)
  obtain ⟨values, hvalues, hcode, -⟩ := call_spec (hqueue.code _ hfirst) (hqueue.names _ hfirst)
    (hqueue.function _ hfirst) hagrees hqueue.head_needs
  obtain ⟨arguments, harguments, hcall⟩ := Option.bind_eq_some_iff.mp hrun
  obtain rfl := Option.some.inj (harguments.symm.trans hvalues)
  obtain ⟨code, hcodeValue, rfl⟩ := Option.map_eq_some_iff.mp hcall
  refine ⟨host.addressOf code, ?_, rfl, ?_⟩
  · rw [haddress]
    exact Address.length_create2Bytes ..
  · rw [predictOne_result hdeployer (hqueue.code _ hfirst) fun child hchild =>
      hagrees.known_key (hqueue.head_needs child hchild), Address.create2_eq hdeployer hlength,
      String.toList_ofList, Hex.markedBytes?_of_bytes? (hcode code hcodeValue), haddress]
    rfl

/-- Lines that deploy libraries keep the addresses that are predicted. -/
theorem queue_agrees (hdeployer : Hex.markedBytes? deployer.toList = some bytes)
    (hlength : bytes.length = 20)
    (haddress : host.addressOf = Address.create2Bytes bytes (List.replicate 32 0))
    (hinj : OneToOne known) (hqueue : Queue host known byKey rest)
    (hagrees : Agrees known byKey store) {after : Store}
    (hrun : run? host (rest.map fun inlined => (deployment known inlined).effect) store =
      some after) :
    (predictFrom (.str deployer) byKey (rest.map Inlined.library)).result =
        .ok (heldAddresses after rest) ∧
      ∀ inlined ∈ rest, ∃ address, after.get? inlined.library.identifier = some address := by
  induction rest generalizing byKey store with
  | nil => exact ⟨rfl, fun inlined hmem => by cases hmem⟩
  | cons inlined rest ih =>
      obtain ⟨next, hnext, hrest⟩ := Option.bind_eq_some_iff.mp hrun
      obtain ⟨address, hsize, rfl, hone⟩ :=
        deployment_agrees hdeployer hlength haddress hqueue hagrees hnext
      have hknown := hqueue.known inlined (List.mem_cons_self ..)
      obtain ⟨hlater, hheld⟩ := ih (hqueue.tail (Address.checksummed address))
        (hagrees.insert hinj hknown hqueue.head_new hsize) hrest
      have hkept : after.get? inlined.library.identifier = some address := by
        rw [run?_other hrest (hqueue.head_target hinj), Entries.get?_insert_self]
      refine ⟨?_, fun one hmem => ?_⟩
      · rw [List.map_cons, predictFrom_cons, hone]
        show (predictFrom _ _ _).result >>= _ = _
        rw [hlater]
        simp only [heldAddresses, List.map_cons, hkept, Option.getD_some]
        rfl
      · rcases List.mem_cons.mp hmem with rfl | hmem
        · exact ⟨address, hkept⟩
        · exact hheld one hmem

/-- Lines that deploy libraries with proper bytecodes do not fail. -/
theorem queue_runs (haddress : host.addressOf = Address.create2Bytes bytes (List.replicate 32 0))
    (hinj : OneToOne known) (hqueue : Queue host known byKey rest)
    (hagrees : Agrees known byKey store)
    (hproper : ∀ inlined ∈ rest, Artifact.bytecodeDefect? inlined.library.artifact.bytecode
      inlined.library.artifact.links = none) :
    ∃ after, run? host (rest.map fun inlined => (deployment known inlined).effect) store =
      some after := by
  induction rest generalizing byKey store with
  | nil => exact ⟨store, rfl⟩
  | cons inlined rest ih =>
      have hfirst := List.mem_cons_self (a := inlined) (l := rest)
      obtain ⟨values, hvalues, -, hvalue⟩ := call_spec (hqueue.code _ hfirst)
        (hqueue.names _ hfirst) (hqueue.function _ hfirst) hagrees hqueue.head_needs
      obtain ⟨code, hcode⟩ := hvalue (hproper _ hfirst)
      have hnext : (deployment known inlined).effect.run? host store =
          some (store.insert inlined.library.identifier (host.addressOf code)) := by
        simp only [deployment, Statement.effect, Effect.run?, hvalues, Option.bind_some, hcode,
          Option.map_some]
      have hsize : (host.addressOf code).length = 20 := by
        rw [haddress]
        exact Address.length_create2Bytes ..
      obtain ⟨after, hafter⟩ := ih
        (hqueue.tail (Address.checksummed (host.addressOf code)))
        (hagrees.insert hinj (hqueue.known _ hfirst) hqueue.head_new hsize)
        (fun one hmem => hproper one (List.mem_cons_of_mem _ hmem))
      refine ⟨after, ?_⟩
      rw [List.map_cons, run?, hnext]
      exact hafter

end Queue

/-! ## The identifiers of a resolution -/

theorem identifiersOf_get? {libraries : List Resolved} (hkeys : (libraries.map Resolved.key).Nodup)
    {library : Resolved} (hmem : library ∈ libraries) :
    (identifiersOf libraries).get? library.key = some library.identifier := by
  refine Entries.get?_ofList_of_nodup ?_ (List.mem_map_of_mem hmem)
  rw [List.map_map]
  exact hkeys

theorem identifiersOf_mem {libraries : List Resolved} {key identifier : String}
    (h : (identifiersOf libraries).get? key = some identifier) :
    ∃ library ∈ libraries, library.key = key ∧ library.identifier = identifier := by
  obtain ⟨library, hmem, heq⟩ := List.mem_map.mp (Entries.get?_ofList_mem h)
  obtain ⟨hkey, hidentifier⟩ := Prod.mk.inj heq
  exact ⟨library, hmem, hkey, hidentifier⟩

theorem identifiersOf_oneToOne {libraries : List Resolved}
    (h : (libraries.map Resolved.identifier).Nodup) : OneToOne (identifiersOf libraries) := by
  intro key other identifier hkey hother
  obtain ⟨library, hmem, rfl, hidentifier⟩ := identifiersOf_mem hkey
  obtain ⟨library', hmem', rfl, hidentifier'⟩ := identifiersOf_mem hother
  rw [List.inj_on_of_nodup_map h hmem hmem' (hidentifier.trans hidentifier'.symm)]

theorem initcodeName_injective {identifier other : String}
    (h : initcodeName identifier = initcodeName other) : identifier = other :=
  (String.append_right_inj _).mp ((String.append_left_inj _).mp h)

/-- The function of a library is found by its name. -/
theorem functions_get? {d : Deployer}
    (h : (d.libraries.map fun inlined => inlined.library.identifier).Nodup) {inlined : Inlined}
    (hmem : inlined ∈ d.libraries) :
    d.functions.get? (initcodeName inlined.library.identifier) =
      some (initcodeSource inlined.code) := by
  refine Entries.get?_append_of_some (Entries.get?_of_nodup ?_ (List.mem_map.mpr ⟨inlined, hmem, rfl⟩))
  have hnames := h.map (f := initcodeName) fun _ _ heq => initcodeName_injective heq
  rw [List.map_map] at hnames
  rw [Entries.keys, List.map_map]
  exact hnames

/-! ## Lines that deploy no library -/

/-- The effects of the lines after the libraries. -/
def lastEffects (d : Deployer) : List Effect :=
  (if d.params.isEmpty then [] else [.keepBytes]) ++ [.keepBytes, .create]

theorem effects_eq (d : Deployer) (salted : Bool) :
    d.effects salted = d.libraries.map (fun inlined => (deployment d.identifiers inlined).effect) ++
      d.lastEffects := by
  simp only [effects, statements, lastEffects, List.map_append, List.map_map, List.append_assoc]
  congr 2
  split <;> rfl

theorem run?_lastEffects (host : Host) (d : Deployer) (store : Store) :
    run? host d.lastEffects store = some (store.insert "deployed" host.contract) := by
  unfold lastEffects
  split <;> rfl

/-! ## Names that can be read back -/

section Legible

variable {load : Loader} {steps : Nat} {disambiguate : Bool} {links : LinkReferences}
  {libraries : List Resolved}

theorem isName_identifier (h : (resolve load steps disambiguate links).result = .ok libraries)
    (hnames : ∀ id, Loader.Reachable load links.libraryIds id → IsName id.name)
    {library : Resolved} (hmem : library ∈ libraries) : IsName library.identifier := by
  obtain ⟨visited, hvisit, hnamed⟩ := resolve_ok h
  obtain ⟨other, hother, hform⟩ := Resolved.ofVisited_identifier hnamed hmem
  have hname := isName_identifierOf (hnames _ (Traversal.visited_reachable hvisit hother))
  rcases hform with heq | ⟨index, heq⟩
  · rw [heq]
    exact hname
  · rw [heq]
    exact isName_append_toString hname index

theorem legibleCode {artifact : Artifact} {code : Segmentation}
    (hcode : segment artifact.bytecode artifact.links = .ok code)
    (hproper : Artifact.bytecodeDefect? artifact.bytecode artifact.links = none)
    (hnames : ∀ id ∈ artifact.libraryIds, IsName id.name) : LegibleCode code :=
  ⟨fun _ hmem => isName_parameter hcode hnames hmem,
    fun _ hmem => legible_segment hproper hcode hnames hmem⟩

theorem isName_variableFor {d : Deployer}
    (hidentifiers : ∀ inlined ∈ d.libraries, IsName inlined.library.identifier)
    {parameter : Parameter} (hname : IsName parameter.name) :
    IsName (variableFor d.identifiers parameter) := by
  cases hknown : d.identifiers.get? parameter.library.key with
  | none => simpa only [variableFor, hknown, Option.getD_none] using hname
  | some identifier =>
      obtain ⟨library, hmem, -, rfl⟩ := identifiersOf_mem hknown
      obtain ⟨inlined, hinlined, rfl⟩ := List.mem_map.mp hmem
      simpa only [variableFor, hknown, Option.getD_some] using hidentifiers inlined hinlined

theorem proper_statements {d : Deployer} (hcodes : ∀ inlined ∈ d.libraries, LegibleCode inlined.code)
    (hidentifiers : ∀ inlined ∈ d.libraries, IsName inlined.library.identifier) (salted : Bool) :
    ∀ statement ∈ d.statements salted, statement.Proper := by
  intro statement hmem
  simp only [statements, List.mem_append] at hmem
  rcases hmem with (hmem | hmem) | hmem
  · obtain ⟨inlined, hinlined, rfl⟩ := List.mem_map.mp hmem
    refine ⟨hidentifiers inlined hinlined, fun name hname => ?_⟩
    obtain ⟨parameter, hparameter, rfl⟩ := List.mem_map.mp hname
    exact isName_variableFor hidentifiers ((hcodes inlined hinlined).params parameter hparameter)
  · split at hmem
    · cases hmem
    · rw [List.mem_singleton.mp hmem]
      trivial
  · simp only [List.mem_cons, List.not_mem_nil, or_false] at hmem
    rcases hmem with rfl | rfl <;> trivial

end Legible

/-! ## Whole deployers -/

theorem parametersOf_ne_nil {links : LinkReferences} (h : links.placements ≠ []) :
    parametersOf links.byPosition ≠ [] := by
  have hperm := links.byPosition_perm
  cases hposition : links.byPosition with
  | nil => exact absurd (hposition ▸ hperm).nil_eq.symm h
  | cons placement rest => simp [parametersOf]

section Plan

variable {load : Loader} {steps : Nat} {disambiguate : Bool} {artifact : Artifact}
  {options : Options} {d : Deployer}

/-- With slots, all libraries of the options are deployed along. -/
theorem plan_libraries (hslots : artifact.links.placements ≠ [])
    (hplan : (plan artifact options).result = .ok d) :
    d.libraries.map Inlined.library = options.libraries := by
  obtain ⟨hcode, hlibraries, -⟩ := plan_ok hplan
  rw [hlibraries, segment_parameters hcode]
  cases hparameters : parametersOf artifact.links.byPosition with
  | nil => exact absurd hparameters (parametersOf_ne_nil hslots)
  | cons parameter rest => rfl

/-- The libraries of a resolution can be deployed in their order. -/
theorem queue_of_plan
    (hresolve : (resolve load steps disambiguate artifact.links).result = .ok options.libraries)
    (hslots : artifact.links.placements ≠ []) (hplan : (plan artifact options).result = .ok d)
    (hnames : ∀ library ∈ options.libraries,
      ((parametersOf library.artifact.links.byPosition).map Parameter.name).Nodup)
    (host : Host) (hfunctions : host.functions = d.functions) :
    Queue host d.identifiers [] d.libraries := by
  have hlibraries := plan_libraries hslots hplan
  obtain ⟨-, -, hcodes⟩ := plan_ok hplan
  obtain ⟨visited, -, -, hidentifiers⟩ := resolve_entries hresolve
  have hmem : ∀ inlined ∈ d.libraries, inlined.library ∈ options.libraries :=
    fun inlined hinlined => hlibraries ▸ List.mem_map_of_mem hinlined
  have hkeys := resolved_keys_nodup hresolve
  have hmap : ∀ {α : Type} (f : Resolved → α), (d.libraries.map fun inlined => f inlined.library) =
      options.libraries.map f := fun f => by rw [← hlibraries, List.map_map]; rfl
  refine ⟨hcodes, fun inlined hinlined => ?_, fun inlined hinlined => ?_,
    fun inlined hinlined => ?_, ?_, fun before inlined after heq child hchild => ?_⟩
  · rw [segment_parameters (hcodes inlined hinlined)]
    exact hnames _ (hmem inlined hinlined)
  · rw [hfunctions]
    refine functions_get? ?_ hinlined
    rwa [hmap Resolved.identifier]
  · rw [identifiers, hlibraries]
    exact identifiersOf_get? hkeys (hmem inlined hinlined)
  · rw [hmap Resolved.key]
    exact hkeys
  · have hsplit : options.libraries =
        before.map Inlined.library ++ inlined.library :: after.map Inlined.library := by
      rw [← hlibraries, heq, List.map_append, List.map_cons]
    have hbefore := resolved_before hresolve hsplit hchild
    rw [List.map_map] at hbefore
    exact hbefore

/-- What the lines of a plan hold in the end is what is predicted. -/
theorem effects_agree {deployer : String} {bytes : List UInt8}
    (hresolve : (resolve load steps disambiguate artifact.links).result = .ok options.libraries)
    (hslots : artifact.links.placements ≠ []) (hplan : (plan artifact options).result = .ok d)
    (hnames : ∀ library ∈ options.libraries,
      ((parametersOf library.artifact.links.byPosition).map Parameter.name).Nodup)
    (hclash : "deployed" ∉ options.libraries.map Resolved.identifier)
    (hdeployer : Hex.markedBytes? deployer.toList = some bytes) (hlength : bytes.length = 20)
    {salted : Bool} {contract : List UInt8} {store after : Store}
    (hrun : run? ⟨d.functions, Address.create2Bytes bytes (List.replicate 32 0), contract⟩
      (d.effects salted) store = some after) :
    ∃ addresses, (predict (.str deployer) options.libraries).result = .ok addresses ∧
      ∀ library ∈ options.libraries, ∃ address, after.get? library.identifier = some address ∧
        addresses.get? library.identifier = some (Address.checksummed address) := by
  have hqueue := queue_of_plan hresolve hslots hplan hnames
    ⟨d.functions, Address.create2Bytes bytes (List.replicate 32 0), contract⟩ rfl
  have hlibraries := plan_libraries hslots hplan
  obtain ⟨visited, -, -, hidentifiers⟩ := resolve_entries hresolve
  rw [effects_eq, run?_append] at hrun
  obtain ⟨held, hheld, hlast⟩ := Option.bind_eq_some_iff.mp hrun
  rw [run?_lastEffects] at hlast
  obtain rfl := Option.some.inj hlast
  have hinj : OneToOne d.identifiers := identifiersOf_oneToOne (by rwa [hlibraries])
  have hagrees : Agrees d.identifiers [] store := fun key hmem => by cases hmem
  obtain ⟨hpredict, hsome⟩ := queue_agrees hdeployer hlength rfl hinj hqueue hagrees hheld
  rw [hlibraries] at hpredict
  refine ⟨Entries.ofList (heldAddresses held d.libraries), by rw [predict_result, hpredict]; rfl,
    fun library hmem => ?_⟩
  have hmem' : library ∈ d.libraries.map Inlined.library := hlibraries ▸ hmem
  obtain ⟨inlined, hinlined, rfl⟩ := List.mem_map.mp hmem'
  obtain ⟨address, haddress⟩ := hsome inlined hinlined
  have hne : inlined.library.identifier ≠ "deployed" := fun heq =>
    hclash (heq ▸ List.mem_map_of_mem hmem)
  refine ⟨address, (Entries.get?_insert_of_ne _ _ hne).trans haddress, ?_⟩
  refine Entries.get?_ofList_of_nodup ?_ (List.mem_map.mpr ⟨inlined, hinlined, ?_⟩)
  · rw [heldAddresses, List.map_map]
    rw [← hlibraries, List.map_map] at hidentifiers
    exact hidentifiers
  · rw [haddress, Option.getD_some]

/-- The lines of a plan do not fail if the libraries have proper bytecodes. -/
theorem effects_run {bytes : List UInt8}
    (hresolve : (resolve load steps disambiguate artifact.links).result = .ok options.libraries)
    (hslots : artifact.links.placements ≠ []) (hplan : (plan artifact options).result = .ok d)
    (hnames : ∀ library ∈ options.libraries,
      ((parametersOf library.artifact.links.byPosition).map Parameter.name).Nodup)
    (hproper : ∀ library ∈ options.libraries,
      Artifact.bytecodeDefect? library.artifact.bytecode library.artifact.links = none)
    (salted : Bool) (contract : List UInt8) (store : Store) :
    ∃ after, run? ⟨d.functions, Address.create2Bytes bytes (List.replicate 32 0), contract⟩
      (d.effects salted) store = some after := by
  have hqueue := queue_of_plan hresolve hslots hplan hnames
    ⟨d.functions, Address.create2Bytes bytes (List.replicate 32 0), contract⟩ rfl
  have hlibraries := plan_libraries hslots hplan
  obtain ⟨visited, -, -, hidentifiers⟩ := resolve_entries hresolve
  have hinj : OneToOne d.identifiers := identifiersOf_oneToOne (by rwa [hlibraries])
  have hagrees : Agrees d.identifiers [] store := fun key hmem => by cases hmem
  obtain ⟨held, hheld⟩ := queue_runs rfl hinj hqueue hagrees fun inlined hinlined =>
    hproper _ (hlibraries ▸ List.mem_map_of_mem hinlined)
  rw [effects_eq, run?_append, hheld]
  exact ⟨_, run?_lastEffects ..⟩

/-- The functions and lines of a plan are read back from the texts. -/
theorem texts_read_back
    (hresolve : (resolve load steps disambiguate artifact.links).result = .ok options.libraries)
    (hslots : artifact.links.placements ≠ []) (hplan : (plan artifact options).result = .ok d)
    (hreadable : ∀ id, Loader.Reachable load artifact.libraryIds id → IsName id.name)
    (hproper : Artifact.bytecodeDefect? artifact.bytecode artifact.links = none)
    (hlibraries : ∀ library ∈ options.libraries,
      Artifact.bytecodeDefect? library.artifact.bytecode library.artifact.links = none) :
    readFunctions d.members = d.functions ∧
      ∀ salted, readEffects? (d.deployFunction salted).body = some (d.effects salted) := by
  have hplanned := plan_libraries hslots hplan
  obtain ⟨hcode, -, hcodes⟩ := plan_ok hplan
  have hmem : ∀ inlined ∈ d.libraries, inlined.library ∈ options.libraries :=
    fun inlined hinlined => hplanned ▸ List.mem_map_of_mem hinlined
  have hlegible : ∀ inlined ∈ d.libraries, LegibleCode inlined.code := fun inlined hinlined =>
    legibleCode (hcodes inlined hinlined) (hlibraries _ (hmem inlined hinlined))
      fun id hid => hreadable id (.link (resolved_reachable hresolve (hmem inlined hinlined))
        (resolved_loaded hresolve (hmem inlined hinlined)) hid)
  refine ⟨readFunctions_members
    (legibleCode hcode hproper fun id hid => hreadable id (.root hid)) hlegible, fun salted => ?_⟩
  exact readEffects_body (proper_statements hlegible
    (fun inlined hinlined => isName_identifier hresolve hreadable (hmem inlined hinlined)) salted)

end Plan

/-- **The deployer and the prediction agree.** Run the lines of a generated
`deploy` from any values of variables, each library at the address of the
bytecode that its function returns. In the end the variable of each
library holds the address that is predicted for it. The lines do not fail
if the bytecodes of the libraries are proper, and if also the names of the
libraries in reach are, then these are the lines and functions that the
texts are read as. -/
theorem deployed_as_predicted {load : Loader} {steps : Nat} {disambiguate : Bool}
    {artifact : Artifact} {options : Options} {source deployer : String} {bytes : List UInt8}
    (hresolve : (resolve load steps disambiguate artifact.links).result = .ok options.libraries)
    (hslots : artifact.links.placements ≠ [])
    (hgenerate : (generate artifact options).result = .ok source)
    (hnames : ∀ library ∈ options.libraries,
      ((parametersOf library.artifact.links.byPosition).map Parameter.name).Nodup)
    (hclash : "deployed" ∉ options.libraries.map Resolved.identifier)
    (hdeployer : Hex.markedBytes? deployer.toList = some bytes) (hlength : bytes.length = 20) :
    ∃ d : Deployer, (plan artifact options).result = .ok d ∧ source = d.source ∧
      (∀ salted contract store after,
        run? ⟨d.functions, Address.create2Bytes bytes (List.replicate 32 0), contract⟩
          (d.effects salted) store = some after →
        ∃ addresses, (predict (.str deployer) options.libraries).result = .ok addresses ∧
          ∀ library ∈ options.libraries, ∃ address, after.get? library.identifier = some address ∧
            addresses.get? library.identifier = some (Address.checksummed address)) ∧
      ((∀ library ∈ options.libraries,
          Artifact.bytecodeDefect? library.artifact.bytecode library.artifact.links = none) →
        (∀ salted contract store, ∃ after,
          run? ⟨d.functions, Address.create2Bytes bytes (List.replicate 32 0), contract⟩
            (d.effects salted) store = some after) ∧
        (Artifact.bytecodeDefect? artifact.bytecode artifact.links = none →
          (∀ id, Loader.Reachable load artifact.libraryIds id → IsName id.name) →
          readFunctions d.members = d.functions ∧
            ∀ salted, readEffects? (d.deployFunction salted).body = some (d.effects salted))) := by
  obtain ⟨d, hplan, rfl⟩ := generate_ok hgenerate
  refine ⟨d, hplan, rfl, fun salted contract store after hrun => ?_, fun hproper => ⟨?_, ?_⟩⟩
  · exact effects_agree hresolve hslots hplan hnames hclash hdeployer hlength hrun
  · exact effects_run hresolve hslots hplan hnames hproper
  · exact fun hown hreadable => texts_read_back hresolve hslots hplan hreadable hown hproper

/-- A contract that calls the second of two libraries of one name. -/
def vault : Artifact :=
  .ofCode "Vault" ("60" ++ String.ofList (List.replicate 40 '0') ++ "00").toList
    [("a.sol", [("Math", [⟨1, 20⟩])])]

def vaultOptions : Options := { libraries := [firstMath, secondMath] }

theorem deployed_as_predicted_vault :
    ∃ (source : String) (d : Deployer) (after : Store) (addresses : Entries String String),
      (generate vault vaultOptions).result = .ok source ∧
      source = d.source ∧
      run? ⟨d.functions, Address.create2Bytes creatorBytes (List.replicate 32 0), []⟩
        (d.effects false) [] = some after ∧
      (predict (.str creator) [firstMath, secondMath]).result = .ok addresses ∧
      (∀ library ∈ [firstMath, secondMath], ∃ address,
        after.get? library.identifier = some address ∧
        addresses.get? library.identifier = some (Address.checksummed address)) ∧
      readFunctions d.members = d.functions ∧
      readEffects? (d.deployFunction false).body = some (d.effects false) := by
  have hresolve : (resolve .namesakes 20 true vault.links).result = .ok vaultOptions.libraries := by
    rfl
  have hgenerated : (generate vault vaultOptions).result.toOption.isSome = true := by
    decide +kernel
  have hnames : ∀ library ∈ vaultOptions.libraries,
      ((parametersOf library.artifact.links.byPosition).map Parameter.name).Nodup := by
    decide +kernel
  have hproper : ∀ library ∈ vaultOptions.libraries,
      Artifact.bytecodeDefect? library.artifact.bytecode library.artifact.links = none := by
    decide +kernel
  have hown : Artifact.bytecodeDefect? vault.bytecode vault.links = none := by decide +kernel
  have hreadable : ∀ id, Loader.Reachable .namesakes vault.libraryIds id → IsName id.name := by
    intro id hid
    have hmem : id ∈ [(⟨"a.sol", "Math"⟩ : LibraryId), ⟨"b.sol", "Math"⟩] :=
      hid.mem_of_closed (by decide +kernel) (by decide +kernel)
    simp only [List.mem_cons, List.not_mem_nil, or_false] at hmem
    rcases hmem with rfl | rfl <;> exact ⟨by decide, List.all_eq_true.mp (by decide)⟩
  cases hgenerate : (generate vault vaultOptions).result with
  | error failure =>
      rw [hgenerate] at hgenerated
      cases hgenerated
  | ok source =>
      obtain ⟨d, -, hsource, hagree, hrun⟩ := deployed_as_predicted hresolve (by decide) hgenerate
        hnames (by decide) creator_bytes rfl
      obtain ⟨hruns, hread⟩ := hrun hproper
      obtain ⟨after, hafter⟩ := hruns false [] []
      obtain ⟨addresses, hpredict, haddresses⟩ := hagree false [] [] after hafter
      obtain ⟨hfunctions, heffects⟩ := hread hown hreadable
      exact ⟨source, d, after, addresses, rfl, hsource, hafter, hpredict, haddresses, hfunctions,
        heffects false⟩

end Deployer

end SolDeployer
