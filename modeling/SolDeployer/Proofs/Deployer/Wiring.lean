import SolDeployer.Proofs.Deployer.Calls

/-!
# Wiring of a deployer

Every address that a generated `deploy` passes on is in scope: it was
declared by an earlier line, or it is a parameter. Each call passes what
the called function asks for, in its order.

Lines, parameters and functions are written apart. What ties them is the
key of a library: a parameter of a bytecode becomes the variable of the
given library with its key, and a parameter of `deploy` if there is none.
That the line of the given library comes first is the order of
deployment, which a part of a resolution keeps (`Resolved.InOrder`).
-/

namespace SolDeployer.Deployer

open Solidity (IsName)

/-- What may be passed for a parameter of a bytecode: the variable of a
library that is deployed along, which a line has declared, or an address
that the caller gives. -/
inductive Passes (given : List Resolved) (declared params : List String) (parameter : Parameter) :
    String → Prop
  | deployed {library : Resolved} (hgiven : library ∈ given)
      (hkey : library.key = parameter.library.key) (hdeclared : library.identifier ∈ declared) :
      Passes given declared params parameter library.identifier
  | asked (hnone : ∀ library ∈ given, library.key ≠ parameter.library.key)
      (hparam : addressText parameter.name ∈ params) :
      Passes given declared params parameter parameter.name

section Plan

variable {load : Loader} {steps : Nat} {disambiguate : Bool} {artifact : Artifact}
  {options : Options} {libraries : List Resolved} {d : Deployer} {salted : Bool}
  {code : Segmentation} {parameter : Parameter}

/-! ## Libraries that are given -/

theorem plan_given (hplan : (plan artifact options).result = .ok d) :
    d.code.parameters = [] ∧ d.libraries = [] ∨
      d.libraries.map Inlined.library = options.libraries := by
  obtain ⟨-, hlibraries, -⟩ := plan_ok hplan
  by_cases hempty : d.code.parameters = []
  · simp only [hempty, List.isEmpty_nil, if_true, List.map_eq_nil_iff] at hlibraries
    exact .inl ⟨hempty, hlibraries⟩
  · simp only [List.isEmpty_eq_false_iff.mpr hempty, Bool.false_eq_true, if_false] at hlibraries
    exact .inr hlibraries

/-- Where there is a parameter, the given libraries are deployed along. -/
theorem given_of_parameter (hplan : (plan artifact options).result = .ok d) (hcode : code ∈ d.codes)
    (hmem : parameter ∈ code.parameters) : d.libraries.map Inlined.library = options.libraries := by
  rcases plan_given hplan with ⟨hnone, hempty⟩ | hgiven
  · rw [codes, hempty, List.map_nil, List.nil_append, List.mem_singleton] at hcode
    rw [hcode, hnone] at hmem
    cases hmem
  · exact hgiven

theorem given_of_inlined (hplan : (plan artifact options).result = .ok d) {inlined : Inlined}
    (hmem : inlined ∈ d.libraries) : d.libraries.map Inlined.library = options.libraries := by
  rcases plan_given hplan with ⟨-, hempty⟩ | hgiven
  · rw [hempty] at hmem
    cases hmem
  · exact hgiven

theorem known_given (hplan : (plan artifact options).result = .ok d) {key identifier : String}
    (h : d.identifiers.get? key = some identifier) :
    ∃ library ∈ options.libraries, library.key = key ∧ library.identifier = identifier := by
  rcases plan_given hplan with ⟨-, hempty⟩ | hgiven
  · rw [identifiers, hempty] at h
    cases h
  · rw [identifiers, hgiven] at h
    exact identifiersOf_mem h

/-- A parameter is named after its library, which is in reach and has the
key of a resolved one. -/
theorem parameter_resolved
    (hresolve : (resolve load steps disambiguate artifact.links).result = .ok libraries)
    (hgiven : ∀ library ∈ options.libraries, library ∈ libraries)
    (hplan : (plan artifact options).result = .ok d) (hcode : code ∈ d.codes)
    (hmem : parameter ∈ code.parameters) :
    parameter.name = parameter.library.identifier ∧
      Loader.Reachable load artifact.libraryIds parameter.library ∧
      ∃ library ∈ libraries, library.key = parameter.library.key := by
  obtain ⟨hroots, hclosed⟩ := resolved_closed hresolve
  have hname : ∀ {links : LinkReferences}, parameter ∈ parametersOf links.byPosition →
      parameter.name = parameter.library.identifier := by
    intro links hlisted
    obtain ⟨placement, -, rfl⟩ := mem_parametersOf hlisted
    rfl
  rcases plan_codes hplan hcode with hcut | ⟨library, hlibrary, hcut⟩
  · rw [segment_parameters hcut] at hmem
    have hid : parameter.library ∈ artifact.libraryIds := parameter_mem_libraryIds hmem
    exact ⟨hname hmem, .root hid, List.mem_map.mp (hroots _ hid)⟩
  · rw [segment_parameters hcut] at hmem
    have hid := parameter_mem_libraryIds hmem
    have hresolved := hgiven library hlibrary
    refine ⟨hname hmem, ?_, List.mem_map.mp (hclosed library hresolved _ hid)⟩
    exact .link (resolved_reachable hresolve hresolved) (resolved_loaded hresolve hresolved) hid

/-! ## Calls -/

theorem params_deployFunction (d : Deployer) (salted : Bool) :
    (d.deployFunction salted).params = d.params.map paramText ++
      d.callerAddresses.map addressText ++ (if salted then ["bytes32 salt"] else []) := rfl

/-- A parameter is passed the variable for it, if the lines so far declare
that of a given library with its key. -/
theorem passes_variable (hplan : (plan artifact options).result = .ok d)
    (hkeys : (options.libraries.map Resolved.key).Nodup) (hcode : code ∈ d.codes)
    (hmem : parameter ∈ code.parameters) {declared : List String}
    (hdeclared : ∀ library ∈ options.libraries,
      library.key = parameter.library.key → library.identifier ∈ declared) (salted : Bool) :
    Passes options.libraries declared (d.deployFunction salted).params parameter
      (variableFor d.identifiers parameter) := by
  cases hknown : d.identifiers.get? parameter.library.key with
  | some identifier =>
      rw [variableFor, hknown, Option.getD_some]
      obtain ⟨library, hlibrary, hkey, rfl⟩ := known_given hplan hknown
      exact .deployed hlibrary hkey (hdeclared library hlibrary hkey)
  | none =>
      rw [variableFor, hknown, Option.getD_none]
      refine .asked ?_ ?_
      · intro library hlibrary hkey
        have hget := identifiersOf_get? hkeys hlibrary
        rw [← given_of_parameter hplan hcode hmem, hkey] at hget
        cases hknown.symm.trans hget
      · rw [params_deployFunction]
        exact List.mem_append_left _ (List.mem_append_right _ (List.mem_map_of_mem
          (mem_callerAddresses.mpr ⟨code, hcode, parameter, hmem, hknown, rfl⟩)))

/-- A call passes what the function that it names asks for, from what the
lines before it declare and what `deploy` is given. -/
theorem call_scoped (hplan : (plan artifact options).result = .ok d)
    (hkeys : (options.libraries.map Resolved.key).Nodup)
    (horder : Resolved.InOrder options.libraries) {before after : List Statement}
    {statement : Statement} {call : Call}
    (hsplit : d.statements salted = before ++ statement :: after)
    (hcall : statement.call? = some call) :
    ∃ function ∈ functionsOf d.members, function.name = call.function ∧
      ∃ code ∈ d.codes, function.params = code.parameters.map (addressText ·.name) ∧
        function.body = ["return " ++ initcodeExpression code.segments ++ ";"] ∧
        List.Forall₂ (Passes options.libraries (before.filterMap Statement.declared?)
          (d.deployFunction salted).params) code.parameters call.arguments := by
  obtain ⟨-, -, hcodes⟩ := plan_ok hplan
  rw [functionsOf_members]
  rcases call_cases hsplit hcall with
    ⟨passed, inlined, left, hlibraries, hdeclared, rfl⟩ | ⟨hdeclared, rfl⟩
  · have hinlined : inlined ∈ d.libraries := by
      rw [hlibraries]
      exact List.mem_append_right _ (List.mem_cons_self ..)
    have hcode : inlined.code ∈ d.codes := mem_codes.mpr (.inl ⟨inlined, hinlined, rfl⟩)
    have hsplit : options.libraries =
        passed.map Inlined.library ++ inlined.library :: left.map Inlined.library := by
      rw [← given_of_inlined hplan hinlined, hlibraries, List.map_append, List.map_cons]
    refine ⟨libraryFunction inlined, ?_, rfl, inlined.code, hcode, rfl, rfl, ?_⟩
    · exact List.mem_append_left _ (List.mem_append_right _ (List.mem_map_of_mem hinlined))
    rw [List.forall₂_map_right_iff, List.forall₂_same]
    intro parameter hmem
    refine passes_variable hplan hkeys hcode hmem ?_ salted
    -- what a library refers to can only be among those that were passed
    intro library hlibrary hkey
    have hchild : parameter.library ∈ inlined.library.artifact.libraryIds := by
      rw [segment_parameters (hcodes inlined hinlined)] at hmem
      exact parameter_mem_libraryIds hmem
    rw [hsplit] at horder hlibrary
    obtain ⟨one, hone, rfl⟩ := List.mem_map.mp (horder.before hchild hlibrary hkey)
    rw [hdeclared]
    exact List.mem_map_of_mem hone
  · have hcode : d.code ∈ d.codes := mem_codes.mpr (.inr rfl)
    refine ⟨initcodeFunction "initcode" "internal" d.code, ?_, rfl, d.code, hcode, rfl, rfl, ?_⟩
    · exact List.mem_append_right _ (List.mem_singleton_self _)
    rw [List.forall₂_map_right_iff, List.forall₂_same]
    intro parameter hmem
    refine passes_variable hplan hkeys hcode hmem ?_ salted
    intro library hlibrary _
    rw [← given_of_parameter hplan hcode hmem] at hlibrary
    obtain ⟨one, hone, rfl⟩ := List.mem_map.mp hlibrary
    rw [hdeclared]
    exact List.mem_map_of_mem hone

/-! ## Lines that deploy a library -/

theorem filter_deployments {known : Entries String String} {others : List Inlined}
    {identifier : String} (h : identifier ∉ others.map (·.library.identifier)) :
    (others.map (deployment known)).filter (·.declared? == some identifier) = [] := by
  refine List.filter_eq_nil_iff.mpr ?_
  intro statement hmem hdeclared
  obtain ⟨one, hone, rfl⟩ := List.mem_map.mp hmem
  have hsame : one.library.identifier = identifier := by
    simpa [deployment, Statement.declared?] using hdeclared
  exact h (hsame ▸ List.mem_map_of_mem hone)

theorem filter_lastStatements (d : Deployer) (salted : Bool) (identifier : String) :
    (d.lastStatements salted).filter (·.declared? == some identifier) = [] := by
  refine List.filter_eq_nil_iff.mpr ?_
  intro statement hmem hdeclared
  rw [List.filterMap_eq_nil_iff.mp (lastStatements_declare d salted) statement hmem] at hdeclared
  cases hdeclared

/-- One line declares the variable of a library, and it deploys this library. -/
theorem deployed_once (hplan : (plan artifact options).result = .ok d)
    (hslots : artifact.links.placements ≠ [])
    (hidentifiers : (options.libraries.map Resolved.identifier).Nodup) {library : Resolved}
    (hmem : library ∈ options.libraries) (salted : Bool) :
    ∃ code, segment library.artifact.bytecode library.artifact.links = .ok code ∧
      libraryFunction ⟨library, code⟩ ∈ functionsOf d.members ∧
      (d.statements salted).filter (·.declared? == some library.identifier) =
        [deployment d.identifiers ⟨library, code⟩] := by
  obtain ⟨-, -, hcodes⟩ := plan_ok hplan
  rw [← plan_libraries hslots hplan] at hmem hidentifiers
  obtain ⟨⟨library, code⟩, hinlined, rfl⟩ := List.mem_map.mp hmem
  refine ⟨code, hcodes _ hinlined, ?_, ?_⟩
  · rw [functionsOf_members]
    exact List.mem_append_left _ (List.mem_append_right _ (List.mem_map_of_mem hinlined))
  · obtain ⟨passed, left, hlibraries⟩ := List.append_of_mem hinlined
    rw [hlibraries, List.map_map, List.map_append, List.map_cons, List.nodup_append,
      List.nodup_cons] at hidentifiers
    obtain ⟨-, ⟨hleft, -⟩, hpassed⟩ := hidentifiers
    have hafter : library.identifier ∉ left.map (·.library.identifier) := hleft
    have hbefore : library.identifier ∉ passed.map (·.library.identifier) := by
      intro hmem
      exact hpassed _ hmem _ (List.mem_cons_self ..) rfl
    rw [statements_eq, hlibraries, List.map_append, List.map_cons, List.filter_append,
      List.filter_append, List.filter_cons, filter_deployments hbefore, filter_deployments hafter,
      filter_lastStatements]
    simp [deployment, Statement.declared?]

/-! ## Whole resolutions -/

theorem callerAddresses_resolved
    (hresolve : (resolve load steps disambiguate artifact.links).result = .ok options.libraries)
    (hplan : (plan artifact options).result = .ok d) : d.callerAddresses = [] := by
  refine List.eq_nil_iff_forall_not_mem.mpr ?_
  intro name hname
  obtain ⟨code, hcode, parameter, hmem, hunknown, -⟩ := mem_callerAddresses.mp hname
  obtain ⟨-, -, library, hlibrary, hkey⟩ :=
    parameter_resolved hresolve (fun _ hgiven => hgiven) hplan hcode hmem
  have hget := identifiersOf_get? (resolved_keys_nodup hresolve) hlibrary
  rw [← given_of_parameter hplan hcode hmem, hkey] at hget
  cases hunknown.symm.trans hget

/-- The calls and declarations of the lines are those that their texts are read as. -/
theorem calls_read_back
    (hresolve : (resolve load steps disambiguate artifact.links).result = .ok libraries)
    (hgiven : ∀ library ∈ options.libraries, library ∈ libraries)
    (hplan : (plan artifact options).result = .ok d)
    (hreadable : ∀ id, Loader.Reachable load artifact.libraryIds id → IsName id.name)
    (salted : Bool) :
    (d.deployFunction salted).body.map (fun line => readCall? line.toList) =
        (d.statements salted).map Statement.call? ∧
      (d.deployFunction salted).body.map (fun line => readDeclared? line.toList) =
        (d.statements salted).map Statement.declared? := by
  have hidentifiers : ∀ inlined ∈ d.libraries, IsName inlined.library.identifier := by
    intro inlined hinlined
    have hmem : inlined.library ∈ options.libraries := by
      rw [← given_of_inlined hplan hinlined]
      exact List.mem_map_of_mem hinlined
    exact isName_identifier hresolve hreadable (hgiven _ hmem)
  have hparams : ∀ code ∈ d.codes, ∀ parameter ∈ code.parameters, IsName parameter.name := by
    intro code hcode parameter hmem
    obtain ⟨hname, hreach, -⟩ := parameter_resolved hresolve hgiven hplan hcode hmem
    rw [hname]
    exact isName_identifierOf (hreadable _ hreach)
  have hbody : (d.deployFunction salted).body = (d.statements salted).map Statement.text := rfl
  rw [hbody, List.map_map, List.map_map]
  refine ⟨List.map_congr_left ?_, List.map_congr_left ?_⟩
  · intro statement hmem
    exact readCall?_text (named_statements hidentifiers hparams hmem)
  · intro statement hmem
    exact readDeclared?_text (named_statements hidentifiers hparams hmem).1

end Plan

/-- **Wiring.** Generate a deployer with a part of a resolution, in its
order. No two functions have one name, and each call in `deploy` and
`deploy2` passes what the function it names asks for, in its order: the
variable of the given library with the key, which an earlier line
declares, or the own name of the parameter, which the caller is asked for.
With slots one line deploys each given library, and with the whole
resolution the caller is asked for no library. If the names in reach are
proper, the lines are read as these calls and declarations. -/
theorem wiring_scoped {load : Loader} {steps : Nat} {disambiguate : Bool} {artifact : Artifact}
    {options : Options} {libraries : List Resolved} {source : String}
    (hresolve : (resolve load steps disambiguate artifact.links).result = .ok libraries)
    (hgiven : options.libraries.Sublist libraries)
    (hgenerate : (generate artifact options).result = .ok source) :
    ∃ d : Deployer, (plan artifact options).result = .ok d ∧ source = d.source ∧
      ((functionsOf d.members).map Solidity.Function.name).Nodup ∧
      (∀ salted before statement after call, d.statements salted = before ++ statement :: after →
        statement.call? = some call →
        ∃ function ∈ functionsOf d.members, function.name = call.function ∧
          ∃ code ∈ d.codes, function.params = code.parameters.map (addressText ·.name) ∧
            function.body = ["return " ++ initcodeExpression code.segments ++ ";"] ∧
            List.Forall₂ (Passes options.libraries (before.filterMap Statement.declared?)
              (d.deployFunction salted).params) code.parameters call.arguments) ∧
      (artifact.links.placements ≠ [] → ∀ library ∈ options.libraries, ∀ salted,
        ∃ code, segment library.artifact.bytecode library.artifact.links = .ok code ∧
          libraryFunction ⟨library, code⟩ ∈ functionsOf d.members ∧
          (d.statements salted).filter (·.declared? == some library.identifier) =
            [deployment d.identifiers ⟨library, code⟩]) ∧
      (options.libraries = libraries → ∀ salted, (d.deployFunction salted).params =
        d.params.map paramText ++ (if salted then ["bytes32 salt"] else [])) ∧
      ((∀ id, Loader.Reachable load artifact.libraryIds id → IsName id.name) → ∀ salted,
        (d.deployFunction salted).body.map (fun line => readCall? line.toList) =
            (d.statements salted).map Statement.call? ∧
          (d.deployFunction salted).body.map (fun line => readDeclared? line.toList) =
            (d.statements salted).map Statement.declared?) := by
  obtain ⟨d, hplan, rfl⟩ := generate_ok hgenerate
  obtain ⟨visited, -, -, hidentifiers⟩ := resolve_entries hresolve
  have hdistinct : (options.libraries.map Resolved.identifier).Nodup :=
    hidentifiers.sublist (hgiven.map _)
  have hkeys : (options.libraries.map Resolved.key).Nodup :=
    (resolved_keys_nodup hresolve).sublist (hgiven.map _)
  have horder := (resolved_inOrder hresolve).sublist hgiven
  refine ⟨d, hplan, rfl, functionsOf_names_nodup ?_, ?_, ?_, ?_, ?_⟩
  · rcases plan_given hplan with ⟨-, hempty⟩ | hlibraries
    · rw [hempty]
      exact List.nodup_nil
    · rw [← hlibraries, List.map_map] at hdistinct
      exact hdistinct
  · intro salted before statement after call hsplit hcall
    exact call_scoped hplan hkeys horder hsplit hcall
  · intro hslots library hmem salted
    exact deployed_once hplan hslots hdistinct hmem salted
  · intro hfull salted
    rw [← hfull] at hresolve
    rw [params_deployFunction, callerAddresses_resolved hresolve hplan, List.map_nil,
      List.append_nil]
  · intro hreadable salted
    exact calls_read_back hresolve (fun _ hmem => hgiven.subset hmem) hplan hreadable salted

/-- The second of two libraries of one name is deployed along and the
first is not: the caller gives the address for it. -/
theorem wiring_scoped_second :
    ∃ (source : String) (d : Deployer),
      (generate vault { libraries := [secondMath] }).result = .ok source ∧
      source = d.source ∧
      d.statements true = [.deployLibrary "math2" ["math"], .buildInitcode ["math2"] false,
        .create true false] ∧
      (d.deployFunction true).params = ["address math", "bytes32 salt"] ∧
      ∃ function ∈ functionsOf d.members, function.name = "initcode" ∧ ∃ code ∈ d.codes,
        List.Forall₂ (Passes [secondMath] ["math2"] ["address math", "bytes32 salt"])
          code.parameters ["math2"] := by
  have hresolve : (resolve .namesakes 20 true vault.links).result = .ok [firstMath, secondMath] := by
    rfl
  have hgiven : [secondMath].Sublist [firstMath, secondMath] := .cons _ (.refl _)
  have hplanned : (plan vault { libraries := [secondMath] }).result.toOption.map (fun d =>
      (d.statements true, (d.deployFunction true).params)) =
      some ([.deployLibrary "math2" ["math"], .buildInitcode ["math2"] false, .create true false],
        ["address math", "bytes32 salt"]) := by decide +kernel
  cases hgenerate : (generate vault { libraries := [secondMath] }).result with
  | error failure =>
      have hsome : (generate vault { libraries := [secondMath] }).result.toOption.isSome = true := by
        decide +kernel
      rw [hgenerate] at hsome
      cases hsome
  | ok source =>
      obtain ⟨d, hplan, hsource, -, hcalls, -⟩ := wiring_scoped hresolve hgiven hgenerate
      rw [hplan] at hplanned
      obtain ⟨hstatements, hparams⟩ := Prod.mk.inj (Option.some.inj hplanned)
      obtain ⟨function, hfunction, hname, code, hcode, -, -, hpasses⟩ := hcalls true
        [.deployLibrary "math2" ["math"]] (.buildInitcode ["math2"] false) [.create true false]
        ⟨"initcode", ["math2"]⟩ hstatements rfl
      rw [hparams] at hpasses
      exact ⟨source, d, rfl, hsource, hstatements, hparams, function, hfunction, hname, code, hcode,
        hpasses⟩

end SolDeployer.Deployer
