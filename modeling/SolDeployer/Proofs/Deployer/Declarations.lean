import SolDeployer.Proofs.Deployer.Aliasing

/-!
# Names that a deployer declares

A generated `deploy` declares the parameters of the constructor, the
addresses that the caller gives, the address that it returns, a variable for
each library that is deployed along, and up to three names of its own. Only
the parameters of the constructor are checked: they are compared with those
own names, with the variables of libraries and with the parameters of the
contract's bytecode. So without a warning a name is declared twice in three
ways and no other (`Apart`): an address or the variable of a library has one
of the own names, an address has the name of a variable, or an address that
only a library asks for has the name of a parameter.
-/

namespace SolDeployer.Deployer

/-! ## Declarations as they are written -/

/-- The variable that a line declares. -/
def Statement.newName? : Statement → Option String
  | .deployLibrary identifier _ => some identifier
  | .encodeParams _ => some "args"
  | .buildInitcode _ _ => some "initcode_"
  | .create _ _ => none

/-- What a function that deploys the contract declares: each declaration as
it is written, and the name. -/
def declarations (d : Deployer) (salted : Bool) : List (String × String) :=
  d.params.map (fun param => (paramText param, param.name.text)) ++
    d.callerAddresses.map (fun name => (addressText name, name)) ++
    (if salted then [("bytes32 salt", "salt")] else []) ++
    [("address deployed", "deployed")] ++
    (d.statements salted).filterMap fun statement => statement.newName?.map (statement.text, ·)

def declaredNames (d : Deployer) (salted : Bool) : List String :=
  (d.declarations salted).map Prod.snd

/-- A text declares a name: a type stands before it, and nothing after it or
a value. -/
inductive Declares (name : String) : String → Prop
  | bare (type : String) : Declares name (type ++ " " ++ name)
  | valued (type value : String) : Declares name (type ++ " " ++ name ++ " = " ++ value)

/-- The variables of the libraries that are deployed along. -/
def libraryVariables (d : Deployer) : List String :=
  d.libraries.map fun inlined => inlined.library.identifier

/-- The names that the function has however its parameters and libraries
are called. -/
def fixedNames (d : Deployer) (salted : Bool) : List String :=
  (if salted then ["salt"] else []) ++ ["deployed"] ++
    (if d.params.isEmpty then [] else ["args"]) ++ ["initcode_"]

section

variable {d : Deployer} {salted : Bool} {artifact : Artifact} {options : Options}

theorem Declares.of_toList {name text : String} {type value : List Char}
    (h : text.toList = type ++ ([' '] ++ (name.toList ++ ([' ', '=', ' '] ++ value)))) :
    Declares name text := by
  have htext : text = String.ofList type ++ " " ++ name ++ " = " ++ String.ofList value := by
    refine String.toList_injective ?_
    rw [h]
    simp
  rw [htext]
  exact .valued _ _

theorem Statement.declares {statement : Statement} {name : String}
    (h : statement.newName? = some name) : Declares name statement.text := by
  have hinitcode : "bytes memory initcode_ = ".toList =
      "bytes memory".toList ++ ([' '] ++ ("initcode_".toList ++ [' ', '=', ' '])) := by simp
  cases statement with
  | deployLibrary identifier arguments =>
      obtain rfl := Option.some.inj h
      have haddress : "address ".toList = "address".toList ++ [' '] := by simp
      have hdeploy : " = DeployHelper.deployLibrary(".toList =
          [' ', '=', ' '] ++ "DeployHelper.deployLibrary(".toList := by simp
      have htext := toList_deployLibrary identifier arguments
      simp only [haddress, hdeploy, List.append_assoc] at htext
      exact .of_toList htext
  | encodeParams names =>
      obtain rfl := Option.some.inj h
      have hargs : "bytes memory args = abi.encode(".toList = "bytes memory".toList ++
          ([' '] ++ ("args".toList ++ ([' ', '=', ' '] ++ "abi.encode(".toList))) := by simp
      have htext := toList_encodeParams names
      simp only [hargs, List.append_assoc] at htext
      exact .of_toList htext
  | buildInitcode arguments encoded =>
      obtain rfl := Option.some.inj h
      obtain ⟨hencoded, halone⟩ := toList_buildInitcode arguments
      simp only [hinitcode, List.append_assoc] at hencoded halone
      cases encoded with
      | true => exact .of_toList hencoded
      | false => exact .of_toList halone
  | create salted payable => cases h

/-- Every line but the last one declares a variable. -/
theorem statements_snoc (d : Deployer) (salted : Bool) :
    ∃ front, d.statements salted = front ++ [.create salted d.payable] ∧
      front.filterMap Statement.newName? =
        d.libraryVariables ++ (if d.params.isEmpty then [] else ["args"]) ++ ["initcode_"] ∧
      ∀ statement ∈ front, statement.newName?.isSome = true := by
  refine ⟨d.libraries.map (deployment d.identifiers) ++
    (if d.params.isEmpty then [] else [.encodeParams (d.params.map (·.name.text))]) ++
    [.buildInitcode (d.code.parameters.map (variableFor d.identifiers)) (!d.params.isEmpty)],
    ?_, ?_, ?_⟩
  · rw [statements, List.append_assoc _ _ [Statement.create salted d.payable]]
    rfl
  · have hdeployments : (d.libraries.map (deployment d.identifiers)).filterMap
        Statement.newName? = d.libraryVariables := by
      rw [List.filterMap_map, libraryVariables, ← List.filterMap_eq_map]
      rfl
    rw [List.filterMap_append, List.filterMap_append, hdeployments]
    split <;> rfl
  · intro statement hmem
    rcases List.mem_append.mp hmem with hmem | hmem
    · rcases List.mem_append.mp hmem with hmem | hmem
      · obtain ⟨inlined, -, rfl⟩ := List.mem_map.mp hmem
        rfl
      · split at hmem
        · cases hmem
        · rw [List.mem_singleton.mp hmem]
          rfl
    · rw [List.mem_singleton.mp hmem]
      rfl

theorem declaredNames_eq (d : Deployer) (salted : Bool) :
    d.declaredNames salted = d.params.map (·.name.text) ++ d.callerAddresses ++
      (if salted then ["salt"] else []) ++ ["deployed"] ++
      (d.libraryVariables ++ (if d.params.isEmpty then [] else ["args"]) ++ ["initcode_"]) := by
  obtain ⟨front, hstatements, hvariables, -⟩ := statements_snoc d salted
  have hlines : ((d.statements salted).filterMap fun statement =>
      statement.newName?.map (statement.text, ·)).map Prod.snd =
        (d.statements salted).filterMap Statement.newName? := by
    rw [List.map_filterMap]
    refine List.filterMap_congr fun statement _ => ?_
    cases statement.newName? <;> rfl
  have hlast : (d.statements salted).filterMap Statement.newName? =
      front.filterMap Statement.newName? := by
    rw [hstatements, List.filterMap_append]
    exact List.append_nil _
  simp only [declaredNames, declarations, List.map_append, List.map_map, hlines, hlast, hvariables]
  cases salted <;> simp [Function.comp_def]

/-- The declarations are the parameters of the function, what it returns,
and all lines but the last one, which gives the returned address its value. -/
theorem declarations_texts (d : Deployer) (salted : Bool) :
    (d.declarations salted).map Prod.fst ++ [(Statement.create salted d.payable).text] =
      (d.deployFunction salted).params ++ [(d.deployFunction salted).returns] ++
        (d.deployFunction salted).body := by
  obtain ⟨front, hstatements, -, hsome⟩ := statements_snoc d salted
  have hlines : ((d.statements salted).filterMap fun statement =>
      statement.newName?.map (statement.text, ·)).map Prod.fst = front.map Statement.text := by
    rw [hstatements, List.filterMap_append, List.map_append, List.map_filterMap]
    have hfront : (front.filterMap fun statement =>
        (statement.newName?.map (statement.text, ·)).map Prod.fst) = front.map Statement.text := by
      rw [← List.filterMap_eq_map]
      refine List.filterMap_congr fun statement hmem => ?_
      obtain ⟨name, hname⟩ := Option.isSome_iff_exists.mp (hsome statement hmem)
      rw [hname]
      rfl
    rw [hfront]
    exact List.append_nil _
  have hbody : (d.deployFunction salted).body =
      front.map Statement.text ++ [(Statement.create salted d.payable).text] := by
    rw [← List.map_singleton, ← List.map_append, ← hstatements]
    rfl
  rw [hbody, params_deployFunction]
  simp only [declarations, List.map_append, List.map_map, hlines]
  cases salted <;> simp [Function.comp_def, deployFunction]

theorem declares_of_mem {text name : String} (h : (text, name) ∈ d.declarations salted) :
    Declares name text := by
  simp only [declarations, List.mem_append, List.mem_map, List.mem_filterMap,
    Option.map_eq_some_iff, List.mem_singleton, Prod.mk.injEq] at h
  rcases h with (((⟨param, -, rfl, rfl⟩ | ⟨caller, -, rfl, rfl⟩) | hsalt) | ⟨rfl, rfl⟩) |
    ⟨statement, -, held, hheld, rfl, rfl⟩
  · exact .bare (param.type ++ (if param.memory then " memory" else ""))
  · exact .bare "address"
  · split at hsalt
    · obtain ⟨rfl, rfl⟩ := Prod.mk.inj (List.mem_singleton.mp hsalt)
      exact .bare "bytes32"
    · cases hsalt
  · exact .bare "address"
  · exact statement.declares hheld

/-! ## Names of parameters that are told -/

theorem notMem_reserved {contract : String} {reserved : List String}
    {params : List Abi.Declaration} (htexts : ∀ param ∈ params, param.name.isText = true)
    (hquiet : ∀ notice ∈ (tellClashes contract reserved params).notices, notice.level ≠ .warning) :
    ∀ param ∈ params, param.name.text ∉ reserved := by
  induction params with
  | nil => exact nofun
  | cons first rest ih =>
      obtain ⟨name, hname⟩ : ∃ name, first.name = .str name := by
        have htext := htexts first List.mem_cons_self
        cases hfirst : first.name with
        | str name => exact ⟨name, rfl⟩
        | _ =>
            rw [hfirst] at htext
            cases htext
      have htold : (tellClashes contract reserved (first :: rest)).notices =
          (if reserved.contains name then [.nameClash contract name] else []) ++
            (tellClashes contract reserved rest).notices := by
        simp only [tellClashes, hname]
        rfl
      rw [htold] at hquiet
      intro param hparam
      rcases List.mem_cons.mp hparam with rfl | hparam
      · rw [hname]
        intro (hmem : name ∈ reserved)
        refine hquiet (.nameClash contract name) (List.mem_append_left _ ?_) rfl
        rw [if_pos (List.contains_iff_mem.mpr hmem)]
        exact List.mem_singleton_self _
      · refine ih (fun other hother => htexts other (List.mem_cons_of_mem _ hother)) ?_ param hparam
        intro notice hnotice
        exact hquiet notice (List.mem_append_right _ hnotice)

/-- What a plan tells of the parameters of the constructor, which are texts. -/
theorem plan_clashes (h : (plan artifact options).result = .ok d) :
    (∀ param ∈ d.params, param.name.isText = true) ∧
      (tellClashes artifact.contract
        (ownNames ++ (identifiersOf (d.libraries.map Inlined.library)).values ++
          d.code.parameters.map Parameter.name) d.params).notices ⊆
        (plan artifact options).notices := by
  rw [(segmentLibraries_ok (planned h).libraries).1]
  exact ⟨(planned h).texts, (planned h).clashes⟩

/-- The variables of libraries are among the names that are compared. -/
theorem libraryVariables_subset (hkeys : (options.libraries.map Resolved.key).Nodup)
    (hplan : (plan artifact options).result = .ok d) :
    d.libraryVariables ⊆ (identifiersOf (d.libraries.map Inlined.library)).values := by
  intro name hname
  obtain ⟨inlined, hinlined, rfl⟩ := List.mem_map.mp hname
  rw [given_of_inlined hplan hinlined]
  have hmem : inlined.library ∈ options.libraries := by
    rw [← given_of_inlined hplan hinlined]
    exact List.mem_map_of_mem hinlined
  exact List.mem_map.mpr ⟨_, Entries.mem_of_get? (identifiersOf_get? hkeys hmem), rfl⟩

/-! ## Names that are declared twice -/

/-- No two declarations of different kinds have one name, as far as nobody
checks it. -/
structure Apart (d : Deployer) (salted : Bool) : Prop where
  own : ∀ name ∈ d.callerAddresses ++ d.libraryVariables, name ∉ d.fixedNames salted
  library : ∀ name ∈ d.callerAddresses, name ∉ d.libraryVariables
  param : ∀ name ∈ d.callerAddresses, name ∉ d.params.map (·.name.text)

theorem fixedNames_nodup (d : Deployer) (salted : Bool) : (d.fixedNames salted).Nodup := by
  unfold fixedNames
  cases salted <;> cases d.params.isEmpty <;> decide

theorem fixedNames_subset (d : Deployer) (salted : Bool) : d.fixedNames salted ⊆ ownNames := by
  unfold fixedNames
  cases salted <;> cases d.params.isEmpty <;> decide

theorem declaredNames_perm (d : Deployer) (salted : Bool) :
    (d.declaredNames salted).Perm (d.params.map (·.name.text) ++
      (d.callerAddresses ++ (d.libraryVariables ++ d.fixedNames salted))) := by
  rw [declaredNames_eq, fixedNames]
  simp only [List.append_assoc]
  refine .append_left _ (.append_left _ ?_)
  -- the variables of libraries come after the returned address
  simp only [← List.append_assoc]
  refine .append_right _ (.append_right _ ?_)
  simp only [List.append_assoc]
  rw [← List.append_assoc]
  exact List.perm_append_comm

theorem declared_nodup_iff (hparams : (d.params.map (·.name.text)).Nodup)
    (hlibraries : d.libraryVariables.Nodup)
    (hown : ∀ name ∈ d.params.map (·.name.text), name ∉ ownNames)
    (hcompared : ∀ name ∈ d.params.map (·.name.text), name ∉ d.libraryVariables) :
    (d.declaredNames salted).Nodup ↔ Apart d salted := by
  rw [(declaredNames_perm d salted).nodup_iff]
  constructor
  · intro h
    obtain ⟨-, h, hfirst⟩ := List.nodup_append'.mp h
    obtain ⟨-, h, hcallers⟩ := List.nodup_append'.mp h
    obtain ⟨-, -, hfixed⟩ := List.nodup_append'.mp h
    refine ⟨?_, ?_, ?_⟩
    · intro name hname hown
      rcases List.mem_append.mp hname with hname | hname
      · exact hcallers hname (List.mem_append_right _ hown)
      · exact hfixed hname hown
    · intro name hname hlibrary
      exact hcallers hname (List.mem_append_left _ hlibrary)
    · intro name hname hparam
      exact hfirst hparam (List.mem_append_left _ hname)
  · intro h
    refine List.nodup_append'.mpr ⟨hparams, List.nodup_append'.mpr ⟨nodup_distinct _,
      List.nodup_append'.mpr ⟨hlibraries, fixedNames_nodup d salted, ?_⟩, ?_⟩, ?_⟩
    · intro name hname
      exact h.own name (List.mem_append_right _ hname)
    · intro name hname hother
      rcases List.mem_append.mp hother with hlibrary | hfixed
      · exact h.library name hname hlibrary
      · exact h.own name (List.mem_append_left _ hname) hfixed
    · intro name hname hother
      rcases List.mem_append.mp hother with hcaller | hother
      · exact h.param name hcaller hname
      · rcases List.mem_append.mp hother with hlibrary | hfixed
        · exact hcompared name hname hlibrary
        · exact hown name hname (fixedNames_subset d salted hfixed)

/-- An address has the name of a variable only if two libraries have one
bare name, and one of them is not deployed along. -/
theorem bare_of_caller {load : Loader} {steps : Nat} {disambiguate : Bool}
    {libraries : List Resolved}
    (hresolve : (resolve load steps disambiguate artifact.links).result = .ok libraries)
    (hgiven : ∀ library ∈ options.libraries, library ∈ libraries)
    (hplan : (plan artifact options).result = .ok d)
    (hplain : ∀ id, Loader.Reachable load artifact.libraryIds id → ':' ∉ id.name.toList)
    {name : String} (hcaller : name ∈ d.callerAddresses) (hlibrary : name ∈ d.libraryVariables) :
    ∃ library ∈ options.libraries, ∃ other ∈ libraries, other ∉ options.libraries ∧
      library.identifier = name ∧ library.id.identifier = name ∧ other.id.identifier = name := by
  obtain ⟨inlined, hinlined, hidentifier⟩ := List.mem_map.mp hlibrary
  obtain ⟨code, hcode, parameter, hparameter, hunknown, rfl⟩ := mem_callerAddresses.mp hcaller
  obtain ⟨hname, -, other, hother, hkey⟩ :=
    parameter_resolved hresolve hgiven hplan hcode hparameter
  have hid := id_of_key hresolve hgiven hplan hplain hcode hparameter hother hkey
  have hmem : inlined.library ∈ options.libraries := by
    rw [← given_of_inlined hplan hinlined]
    exact List.mem_map_of_mem hinlined
  have hbare : other.id.identifier = parameter.name := by rw [hid, hname]
  refine ⟨inlined.library, hmem, other, hother, ?_, hidentifier, ?_, hbare⟩
  · intro halong
    have hget := identifiersOf_get?_of_subset (resolved_keys_nodup hresolve) hgiven halong
    rw [← given_of_inlined hplan hinlined, hkey] at hget
    cases hunknown.symm.trans hget
  · rcases resolved_identifier_new hresolve (hgiven _ hmem) with hown | hnew
    · rw [← hown, hidentifier]
    · rw [hidentifier, ← hbare] at hnew
      exact absurd (List.mem_map_of_mem hother) hnew

/-- Without a warning the parameters of the constructor have none of the
names that they are compared with. -/
theorem param_names_apart (hkeys : (options.libraries.map Resolved.key).Nodup)
    (hplan : (plan artifact options).result = .ok d)
    (hquiet : ∀ notice ∈ (plan artifact options).notices, notice.level ≠ .warning) :
    ∀ name ∈ d.params.map (·.name.text), name ∉ ownNames ∧ name ∉ d.libraryVariables ∧
      name ∉ d.code.parameters.map Parameter.name := by
  obtain ⟨htexts, htold⟩ := plan_clashes hplan
  intro name hname
  obtain ⟨param, hparam, rfl⟩ := List.mem_map.mp hname
  have hfree := notMem_reserved htexts (fun notice hmem => hquiet notice (htold hmem)) param hparam
  simp only [List.mem_append, not_or] at hfree
  refine ⟨hfree.1.1, ?_, hfree.2⟩
  intro hlibrary
  exact hfree.1.2 (libraryVariables_subset hkeys hplan hlibrary)

theorem apart_iff_of_resolved (hnone : d.callerAddresses = []) :
    Apart d salted ↔ ∀ name ∈ d.libraryVariables, name ∉ d.fixedNames salted := by
  constructor
  · intro h name hname
    exact h.own name (List.mem_append_right _ hname)
  · intro h
    refine ⟨?_, ?_, ?_⟩
    · rw [hnone]
      exact h
    · rw [hnone]
      exact nofun
    · rw [hnone]
      exact nofun

theorem mem_callerAddresses_alone (halone : d.libraries = []) {name : String} :
    name ∈ d.callerAddresses ↔ name ∈ d.code.parameters.map Parameter.name := by
  have hcodes : d.codes = [d.code] := by rw [codes, halone, List.map_nil, List.nil_append]
  have hunknown (key : String) : d.identifiers.get? key = none := by rw [identifiers, halone]; rfl
  simp only [mem_callerAddresses, hcodes, hunknown, List.mem_singleton, List.mem_map,
    exists_eq_left, true_and]

theorem apart_iff_alone (halone : d.libraries = [])
    (hparams : ∀ name ∈ d.params.map (·.name.text), name ∉ d.code.parameters.map Parameter.name) :
    Apart d salted ↔ ∀ parameter ∈ d.code.parameters, parameter.name ∉ d.fixedNames salted := by
  have hvariables : d.libraryVariables = [] := by rw [libraryVariables, halone, List.map_nil]
  constructor
  · intro h parameter hparameter
    have hcaller := (mem_callerAddresses_alone halone).mpr (List.mem_map_of_mem hparameter)
    exact h.own parameter.name (List.mem_append_left _ hcaller)
  · intro h
    refine ⟨?_, ?_, ?_⟩
    · intro name hname
      rw [hvariables, List.append_nil, mem_callerAddresses_alone halone] at hname
      obtain ⟨parameter, hparameter, rfl⟩ := List.mem_map.mp hname
      exact h parameter hparameter
    · rw [hvariables]
      intro name _
      exact List.not_mem_nil
    · intro name hname hparam
      exact hparams name hparam ((mem_callerAddresses_alone halone).mp hname)

end

/-- **Names of the functions that deploy a contract.** Generate a deployer
along with a part of a resolution, without a warning, where the parameters
of the constructor have different names. What `deploy` and `deploy2` declare
are their parameters, the returned address and all their lines but the last
one. All names are different exactly if those that nobody compares are
(`Apart`). With the whole resolution that only means that no library has one
of the own names, and with no library that no parameter of the bytecode has
one. If no name in reach has a colon, an address has the name of a variable
only where two libraries have one bare name. -/
theorem declared_names_distinct {load : Loader} {steps : Nat} {disambiguate : Bool}
    {artifact : Artifact} {options : Options} {libraries : List Resolved} {d : Deployer}
    (hresolve : (resolve load steps disambiguate artifact.links).result = .ok libraries)
    (hgiven : options.libraries.Sublist libraries)
    (hplan : (plan artifact options).result = .ok d)
    (hquiet : ∀ notice ∈ (generate artifact options).notices, notice.level ≠ .warning)
    (hparams : (d.params.map (·.name.text)).Nodup) :
    (generate artifact options).result = .ok d.source ∧ ∀ salted,
      .function (d.deployFunction salted) ∈ d.members ∧
      (d.declarations salted).map Prod.fst ++ [(Statement.create salted d.payable).text] =
        (d.deployFunction salted).params ++ [(d.deployFunction salted).returns] ++
          (d.deployFunction salted).body ∧
      (∀ declaration ∈ d.declarations salted, Declares declaration.2 declaration.1) ∧
      ((d.declaredNames salted).Nodup ↔ Apart d salted) ∧
      (options.libraries = libraries → ((d.declaredNames salted).Nodup ↔
        ∀ name ∈ d.libraryVariables, name ∉ d.fixedNames salted)) ∧
      (options.libraries = [] → ((d.declaredNames salted).Nodup ↔
        ∀ parameter ∈ d.code.parameters, parameter.name ∉ d.fixedNames salted)) ∧
      ((∀ id, Loader.Reachable load artifact.libraryIds id → ':' ∉ id.name.toList) →
        ∀ name ∈ d.callerAddresses, name ∈ d.libraryVariables →
          ∃ library ∈ options.libraries, ∃ other ∈ libraries, other ∉ options.libraries ∧
            library.identifier = name ∧ library.id.identifier = name ∧
            other.id.identifier = name) := by
  obtain ⟨visited, -, -, hidentifiers⟩ := resolve_entries hresolve
  have hkeys : (options.libraries.map Resolved.key).Nodup :=
    (resolved_keys_nodup hresolve).sublist (hgiven.map _)
  have hsource : (generate artifact options).result = .ok d.source :=
    Report.bind_ok.mpr ⟨d, hplan, rfl⟩
  have hapart := param_names_apart hkeys hplan fun notice hmem =>
    hquiet notice (Report.mem_bind_left hmem)
  have hlibraries : d.libraryVariables.Nodup := by
    rcases plan_given hplan with ⟨-, hempty⟩ | hsame
    · rw [libraryVariables, hempty]
      exact List.nodup_nil
    · have hdistinct := hidentifiers.sublist (hgiven.map _)
      rw [← hsame, List.map_map] at hdistinct
      exact hdistinct
  refine ⟨hsource, fun salted => ?_⟩
  have hexact : (d.declaredNames salted).Nodup ↔ Apart d salted :=
    declared_nodup_iff hparams hlibraries (fun name hname => (hapart name hname).1)
      fun name hname => (hapart name hname).2.1
  refine ⟨?_, declarations_texts d salted, fun _ hmem => declares_of_mem hmem, hexact, ?_, ?_, ?_⟩
  · cases salted <;> simp [members]
  · intro hfull
    rw [← hfull] at hresolve
    exact hexact.trans (apart_iff_of_resolved (callerAddresses_resolved hresolve hplan))
  · intro hnone
    have halone : d.libraries = [] := by
      rcases plan_given hplan with ⟨-, hempty⟩ | hsame
      · exact hempty
      · exact List.map_eq_nil_iff.mp (hsame.trans hnone)
    exact hexact.trans (apart_iff_alone halone fun name hname => (hapart name hname).2.2)
  · intro hplain name hcaller hlibrary
    exact bare_of_caller hresolve (fun _ hmem => hgiven.subset hmem) hplan hplain hcaller hlibrary

/-- A customer whose constructor takes an owner. -/
def ownedCustomer : Artifact :=
  { customer with abi := [⟨.str "constructor", .null,
    [⟨.str "owner", .str "address", .str "address", .bool false, none⟩], [], .null⟩] }

theorem declared_names_distinct_vendors :
    ∃ d, (plan ownedCustomer { libraries := vendorLibraries }).result = .ok d ∧
      d.params.map (·.name.text) = ["owner"] ∧ ∀ salted, (d.declaredNames salted).Nodup := by
  have hplanned : (plan ownedCustomer { libraries := vendorLibraries }).result.toOption.map
      (fun d => (d.params.map (·.name.text), d.libraryVariables)) =
        some (["owner"], ["math", "math2", "vendor"]) := by
    decide +kernel
  have hquiet : ∀ notice ∈ (generate ownedCustomer { libraries := vendorLibraries }).notices,
      notice.level ≠ .warning := by
    decide +kernel
  cases hplan : (plan ownedCustomer { libraries := vendorLibraries }).result with
  | error failure =>
      rw [hplan] at hplanned
      cases hplanned
  | ok d =>
      rw [hplan] at hplanned
      obtain ⟨hparams, hvariables⟩ := Prod.mk.inj (Option.some.inj hplanned)
      have hdistinct : (d.params.map (·.name.text)).Nodup := by
        rw [hparams]
        decide
      have hresolve : (resolve vendors 20 true ownedCustomer.links).result =
          .ok vendorLibraries := resolve_vendors
      obtain ⟨-, hnames⟩ := declared_names_distinct hresolve (.refl _) hplan hquiet hdistinct
      refine ⟨d, rfl, hparams, fun salted => ?_⟩
      obtain ⟨-, -, -, -, hfull, -⟩ := hnames salted
      refine (hfull rfl).mpr ?_
      rw [hvariables]
      intro name hname hfixed
      have hapart : ∀ name ∈ ["math", "math2", "vendor"], name ∉ ownNames := by decide
      exact hapart name hname (fixedNames_subset d salted hfixed)

/-! ## A library named like the returned address -/

/-- A contract that calls a library named `Deployed`. -/
def depot : Artifact :=
  .ofCode "Depot" ("60" ++ String.ofList (List.replicate 40 '0') ++ "50").toList
    [("c.sol", [("Deployed", [⟨1, 20⟩])])]

def depotLibraries : List Resolved :=
  [⟨⟨"c.sol", "Deployed"⟩, "deployed", .ofCode "Deployed" "6001".toList [], []⟩]

/-- The variable of the library is declared beside the returned address, in
both functions, and nothing is told. -/
theorem deployed_declared_twice :
    ∃ source d, (resolve (.ofCodes [(⟨"c.sol", "Deployed"⟩, "6001".toList, [])]) 20 true
        depot.links).result = .ok depotLibraries ∧
      (generate depot { libraries := depotLibraries }).result = .ok source ∧
      (generate depot { libraries := depotLibraries }).notices = [] ∧
      source = Deployer.source d ∧ d.params = [] ∧ ∀ salted,
        (d.deployFunction salted).returns = "address deployed" ∧
        (d.deployFunction salted).body.head? =
          some "address deployed = DeployHelper.deployLibrary(_deployedInitcode());" ∧
        ¬(d.declaredNames salted).Nodup := by
  have hplanned : (plan depot { libraries := depotLibraries }).result.toOption.map (fun d =>
      (d.params.isEmpty, (d.deployFunction false).body.head?, (d.deployFunction true).body.head?,
        d.declaredNames false, d.declaredNames true)) =
      some (true, some "address deployed = DeployHelper.deployLibrary(_deployedInitcode());",
        some "address deployed = DeployHelper.deployLibrary(_deployedInitcode());",
        ["deployed", "deployed", "initcode_"], ["salt", "deployed", "deployed", "initcode_"]) := by
    decide +kernel
  cases hplan : (plan depot { libraries := depotLibraries }).result with
  | error failure =>
      rw [hplan] at hplanned
      cases hplanned
  | ok d =>
      rw [hplan] at hplanned
      simp only [Except.toOption, Option.map_some, Option.some.injEq, Prod.mk.injEq] at hplanned
      obtain ⟨hparams, hfirst, hsecond, hnames, hsalted⟩ := hplanned
      have hsource : (generate depot { libraries := depotLibraries }).result = .ok d.source :=
        Report.bind_ok.mpr ⟨d, hplan, rfl⟩
      refine ⟨_, d, rfl, hsource, by decide +kernel, rfl, List.isEmpty_iff.mp hparams, ?_⟩
      intro salted
      cases salted with
      | false =>
          refine ⟨rfl, hfirst, ?_⟩
          rw [hnames]
          decide
      | true =>
          refine ⟨rfl, hsecond, ?_⟩
          rw [hsalted]
          decide

end SolDeployer.Deployer
