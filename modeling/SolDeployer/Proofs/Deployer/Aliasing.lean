import SolDeployer.Proofs.Deployer.Wiring
import SolDeployer.Proofs.Resolution.Indices

/-!
# Libraries that share a variable

A library that is deployed along is passed by its own identifier, and any
other by its bare name. Names that one bytecode shares are told; names of
different bytecodes are not compared. So two arguments for different
libraries are one variable exactly if they are passed to different
functions, have one bare name, and are both passed by it. That takes a
resolution of which a part is deployed along: with all of it there are only
identifiers, with none of it only one function.

An identifier with an index is never a bare name, so it is not shared.
-/

namespace SolDeployer.Deployer

section

variable {load : Loader} {steps : Nat} {disambiguate : Bool} {artifact : Artifact}
  {options : Options} {libraries : List Resolved} {d : Deployer}

/-! ## Names of one bytecode -/

theorem names_nodup_of_untold {owner : String} {parameters : List Parameter}
    (h : sharedNameNotices owner parameters = []) : (parameters.map Parameter.name).Nodup := by
  rw [List.nodup_iff_count_le_one]
  intro name
  by_cases hmem : name ∈ parameters.map Parameter.name
  · have hnone := List.filterMap_eq_nil_iff.mp h name (mem_distinct.mpr hmem)
    by_contra hcount
    rw [if_pos (by omega)] at hnone
    cases hnone
  · rw [List.count_eq_zero_of_not_mem hmem]
    exact Nat.zero_le 1

theorem sharedNameNotices_level {owner : String} {parameters : List Parameter} {notice : Notice}
    (h : notice ∈ sharedNameNotices owner parameters) : notice.level = .warning := by
  obtain ⟨name, -, heq⟩ := List.mem_filterMap.mp h
  split at heq
  · rw [← Option.some.inj heq]
    rfl
  · cases heq

/-- Without a warning the parameters of each bytecode have different names. -/
theorem names_nodup_of_quiet (hplan : (plan artifact options).result = .ok d)
    (hquiet : ∀ notice ∈ (plan artifact options).notices, notice.level ≠ .warning)
    {code : Segmentation} (hcode : code ∈ d.codes) : (code.parameters.map Parameter.name).Nodup := by
  have huntold : ∀ {owner : String} {parameters : List Parameter},
      sharedNameNotices owner parameters ⊆ (plan artifact options).notices →
      sharedNameNotices owner parameters = [] := by
    intro owner parameters hsubset
    refine List.eq_nil_iff_forall_not_mem.mpr ?_
    intro notice hmem
    exact hquiet notice (hsubset hmem) (sharedNameNotices_level hmem)
  obtain ⟨hown, hlibraries⟩ := plan_sharedNames hplan
  rcases mem_codes.mp hcode with ⟨inlined, hinlined, rfl⟩ | rfl
  · exact names_nodup_of_untold (huntold (hlibraries inlined hinlined))
  · exact names_nodup_of_untold (huntold hown)

/-! ## Parameters and the libraries of a resolution -/

theorem identifiersOf_get?_of_subset (hkeys : (libraries.map Resolved.key).Nodup)
    {given : List Resolved} (hgiven : ∀ library ∈ given, library ∈ libraries) {library : Resolved}
    (hmem : library ∈ given) :
    (identifiersOf given).get? library.key = some library.identifier := by
  refine Entries.get?_ofList_of_agree (List.mem_map_of_mem hmem) ?_
  intro identifier hlisted
  obtain ⟨other, hother, heq⟩ := List.mem_map.mp hlisted
  obtain ⟨hkey, rfl⟩ := Prod.mk.inj heq
  rw [List.inj_on_of_nodup_map hkeys (hgiven other hother) (hgiven library hmem) hkey]

/-- Variables of libraries that are deployed along are different. -/
theorem eq_key_of_known
    (hresolve : (resolve load steps disambiguate artifact.links).result = .ok libraries)
    (hgiven : ∀ library ∈ options.libraries, library ∈ libraries)
    (hplan : (plan artifact options).result = .ok d) {key other identifier : String}
    (hkey : d.identifiers.get? key = some identifier)
    (hother : d.identifiers.get? other = some identifier) : key = other := by
  obtain ⟨visited, -, -, hnodup⟩ := resolve_entries hresolve
  obtain ⟨library, hlibrary, rfl, hidentifier⟩ := known_given hplan hkey
  obtain ⟨library', hlibrary', rfl, hidentifier'⟩ := known_given hplan hother
  rw [List.inj_on_of_nodup_map hnodup (hgiven library hlibrary) (hgiven library' hlibrary')
    (hidentifier.trans hidentifier'.symm)]

/-- Where no colon stands in the names, a key tells the library. -/
theorem id_of_key
    (hresolve : (resolve load steps disambiguate artifact.links).result = .ok libraries)
    (hgiven : ∀ library ∈ options.libraries, library ∈ libraries)
    (hplan : (plan artifact options).result = .ok d)
    (hplain : ∀ id, Loader.Reachable load artifact.libraryIds id → ':' ∉ id.name.toList)
    {code : Segmentation} (hcode : code ∈ d.codes) {parameter : Parameter}
    (hmem : parameter ∈ code.parameters) {library : Resolved} (hlibrary : library ∈ libraries)
    (hkey : library.key = parameter.library.key) : library.id = parameter.library := by
  obtain ⟨-, hreach, -⟩ := parameter_resolved hresolve hgiven hplan hcode hmem
  exact LibraryId.eq_of_key (hplain _ (resolved_reachable hresolve hlibrary)) (hplain _ hreach) hkey

/-- A variable that also stands for another library is a bare name. -/
theorem variableFor_bare
    (hresolve : (resolve load steps disambiguate artifact.links).result = .ok libraries)
    (hgiven : ∀ library ∈ options.libraries, library ∈ libraries)
    (hplan : (plan artifact options).result = .ok d)
    (hplain : ∀ id, Loader.Reachable load artifact.libraryIds id → ':' ∉ id.name.toList)
    {code other : Segmentation} (hcode : code ∈ d.codes) (hother : other ∈ d.codes)
    {p q : Parameter} (hp : p ∈ code.parameters) (hq : q ∈ other.parameters)
    (hkeys : p.library.key ≠ q.library.key)
    (hsame : variableFor d.identifiers p = variableFor d.identifiers q) :
    variableFor d.identifiers p = p.name := by
  cases hknown : d.identifiers.get? p.library.key with
  | none => rw [variableFor, hknown, Option.getD_none]
  | some identifier =>
      have hvariable : variableFor d.identifiers p = identifier := by
        rw [variableFor, hknown, Option.getD_some]
      rw [hvariable] at hsame ⊢
      cases hqknown : d.identifiers.get? q.library.key with
      | some held =>
          rw [variableFor, hqknown, Option.getD_some] at hsame
          rw [hsame] at hknown
          exact absurd (eq_key_of_known hresolve hgiven hplan hknown hqknown) hkeys
      | none =>
          rw [variableFor, hqknown, Option.getD_none] at hsame
          obtain ⟨hpname, -, -⟩ := parameter_resolved hresolve hgiven hplan hcode hp
          obtain ⟨hqname, -, another, hanother, hqkey⟩ :=
            parameter_resolved hresolve hgiven hplan hother hq
          have hqid := id_of_key hresolve hgiven hplan hplain hother hq hanother hqkey
          obtain ⟨library, hlibrary, hkey, rfl⟩ := known_given hplan hknown
          have hresolved := hgiven library hlibrary
          have hpid := id_of_key hresolve hgiven hplan hplain hcode hp hresolved hkey
          -- an identifier with an index is no name, and the other variable is one
          rcases resolved_identifier_new hresolve hresolved with hbare | hnew
          · rw [hbare, hpid, hpname]
          · rw [hsame, hqname, ← hqid] at hnew
            exact absurd (List.mem_map_of_mem (f := (·.id.identifier)) hanother) hnew

/-! ## Arguments -/

/-- In a call, counted from the first line on, an argument is a variable,
and the called function has a parameter for it. -/
structure ArgumentAt (d : Deployer) (salted : Bool) (i k : Nat) (name : String)
    (parameter : Parameter) : Prop where
  passed : ∃ call, ((d.statements salted).filterMap Statement.call?)[i]? = some call ∧
    call.arguments[k]? = some name
  wanted : ∃ code, d.codes[i]? = some code ∧ code.parameters[k]? = some parameter

theorem ArgumentAt.name_eq {salted : Bool} {i k : Nat} {name : String} {parameter : Parameter}
    (h : ArgumentAt d salted i k name parameter) :
    name = variableFor d.identifiers parameter := by
  obtain ⟨call, hcall, hname⟩ := h.passed
  obtain ⟨code, hcode, hparameter⟩ := h.wanted
  have harguments : call.arguments = code.parameters.map (variableFor d.identifiers) := by
    have hlists := congrArg (·[i]?) (calls_arguments d salted)
    simpa [hcall, hcode] using hlists
  rw [harguments, List.getElem?_map, hparameter] at hname
  exact (Option.some.inj hname).symm

/-- The calls go to the functions for the bytecodes, in their order. -/
theorem calls_functions (d : Deployer) (salted : Bool) :
    List.Forall₂ (fun call code => ∃ function ∈ functionsOf d.members,
        function.name = call.function ∧ function.params = code.parameters.map (addressText ·.name))
      ((d.statements salted).filterMap Statement.call?) d.codes := by
  rw [calls_eq, codes, functionsOf_members]
  refine List.rel_append ?_ (.cons ⟨_, List.mem_append_right _ (List.mem_singleton_self _), rfl, rfl⟩
    .nil)
  rw [List.forall₂_map_left_iff, List.forall₂_map_right_iff, List.forall₂_same]
  intro inlined hmem
  exact ⟨libraryFunction inlined, List.mem_append_left _ (List.mem_append_right _
    (List.mem_map_of_mem hmem)), rfl, rfl⟩

/-- One call without a warning: parameters that are passed by one bare
name are the same. -/
theorem ArgumentAt.same_call {salted : Bool} {i k l : Nat} {name other : String} {p q : Parameter}
    (hnames : ∀ code ∈ d.codes, (code.parameters.map Parameter.name).Nodup)
    (hp : ArgumentAt d salted i k name p) (hq : ArgumentAt d salted i l other q)
    (hsame : p.name = q.name) : p = q := by
  obtain ⟨code, hcode, hp⟩ := hp.wanted
  obtain ⟨code', hcode', hq⟩ := hq.wanted
  obtain rfl := Option.some.inj (hcode.symm.trans hcode')
  exact List.inj_on_of_nodup_map (hnames code (List.mem_of_getElem? hcode))
    (List.mem_of_getElem? hp) (List.mem_of_getElem? hq) hsame

theorem ArgumentAt.mem_codes {salted : Bool} {i k : Nat} {name : String} {parameter : Parameter}
    (h : ArgumentAt d salted i k name parameter) :
    ∃ code ∈ d.codes, parameter ∈ code.parameters := by
  obtain ⟨code, hcode, hparameter⟩ := h.wanted
  exact ⟨code, List.mem_of_getElem? hcode, List.mem_of_getElem? hparameter⟩

/-- With all libraries deployed along every variable is an identifier. -/
theorem eq_key_of_full
    (hresolve : (resolve load steps disambiguate artifact.links).result = .ok libraries)
    (hgiven : ∀ library ∈ options.libraries, library ∈ libraries)
    (hplan : (plan artifact options).result = .ok d)
    (hfull : ∀ library ∈ libraries, library ∈ options.libraries)
    {code other : Segmentation} (hcode : code ∈ d.codes) (hother : other ∈ d.codes)
    {p q : Parameter} (hp : p ∈ code.parameters) (hq : q ∈ other.parameters)
    (hsame : variableFor d.identifiers p = variableFor d.identifiers q) :
    p.library.key = q.library.key := by
  have hknown : ∀ {code : Segmentation}, code ∈ d.codes → ∀ {parameter : Parameter},
      parameter ∈ code.parameters →
      d.identifiers.get? parameter.library.key = some (variableFor d.identifiers parameter) := by
    intro code hcode parameter hparameter
    obtain ⟨-, -, library, hlibrary, hkey⟩ :=
      parameter_resolved hresolve hgiven hplan hcode hparameter
    have hget : d.identifiers.get? parameter.library.key = some library.identifier := by
      rw [identifiers, given_of_parameter hplan hcode hparameter, ← hkey]
      exact identifiersOf_get?_of_subset (resolved_keys_nodup hresolve) hgiven
        (hfull library hlibrary)
    rw [variableFor, hget, Option.getD_some]
  -- both keys are known by the one variable
  have hpknown := hknown hcode hp
  rw [hsame] at hpknown
  exact eq_key_of_known hresolve hgiven hplan hpknown (hknown hother hq)

theorem ArgumentAt.of_none (hplan : (plan artifact options).result = .ok d)
    (hnone : options.libraries = []) {salted : Bool} {i k : Nat} {name : String}
    {parameter : Parameter} (h : ArgumentAt d salted i k name parameter) :
    i = 0 ∧ name = parameter.name := by
  have hempty : d.libraries = [] := by
    rcases plan_given hplan with ⟨-, hempty⟩ | hgiven
    · exact hempty
    · exact List.map_eq_nil_iff.mp (hgiven.trans hnone)
  obtain ⟨code, hcode, -⟩ := h.wanted
  refine ⟨?_, ?_⟩
  · rw [codes, hempty, List.map_nil, List.nil_append] at hcode
    obtain ⟨hlt, -⟩ := List.getElem?_eq_some_iff.mp hcode
    exact Nat.lt_one_iff.mp hlt
  · rw [h.name_eq, variableFor, identifiers, hempty]
    rfl

end

/-- **Shared variables.** Generate a deployer along with some libraries of a
resolution, without a warning. The calls of its lines go to the functions
for its bytecodes. With all libraries of the resolution, or with none, two
arguments are one variable only if they stand for one key. In any case, if
no name in reach has a colon, arguments for different keys are one variable
exactly if they belong to different calls, the parameters have one name,
and each is passed by this bare name. -/
theorem aliases_exactly {load : Loader} {steps : Nat} {disambiguate : Bool} {artifact : Artifact}
    {options : Options} {libraries : List Resolved} {source : String}
    (hresolve : (resolve load steps disambiguate artifact.links).result = .ok libraries)
    (hgiven : ∀ library ∈ options.libraries, library ∈ libraries)
    (hgenerate : (generate artifact options).result = .ok source)
    (hquiet : ∀ notice ∈ (generate artifact options).notices, notice.level ≠ .warning) :
    ∃ d : Deployer, (plan artifact options).result = .ok d ∧ source = d.source ∧
      (∀ salted, List.Forall₂ (fun call code => ∃ function ∈ functionsOf d.members,
          function.name = call.function ∧
          function.params = code.parameters.map (addressText ·.name))
        ((d.statements salted).filterMap Statement.call?) d.codes) ∧
      ∀ {salted i k j l name other p q}, ArgumentAt d salted i k name p →
        ArgumentAt d salted j l other q →
        ((∀ library ∈ libraries, library ∈ options.libraries) ∨ options.libraries = [] →
          name = other → p.library.key = q.library.key) ∧
        ((∀ id, Loader.Reachable load artifact.libraryIds id → ':' ∉ id.name.toList) →
          p.library.key ≠ q.library.key →
          (name = other ↔ i ≠ j ∧ p.name = q.name ∧ name = p.name ∧ other = q.name)) := by
  obtain ⟨d, hplan, rfl⟩ := generate_ok hgenerate
  have hnames : ∀ code ∈ d.codes, (code.parameters.map Parameter.name).Nodup := by
    intro code hcode
    refine names_nodup_of_quiet hplan ?_ hcode
    intro notice hmem
    exact hquiet notice (Report.mem_bind_left hmem)
  refine ⟨d, hplan, rfl, calls_functions d, ?_⟩
  intro salted i k j l name other p q hp hq
  obtain ⟨code, hcode, hpmem⟩ := hp.mem_codes
  obtain ⟨code', hcode', hqmem⟩ := hq.mem_codes
  refine ⟨?_, ?_⟩
  · rintro (hfull | hnone) hsame
    · rw [hp.name_eq, hq.name_eq] at hsame
      exact eq_key_of_full hresolve hgiven hplan hfull hcode hcode' hpmem hqmem hsame
    · obtain ⟨rfl, hpname⟩ := hp.of_none hplan hnone
      obtain ⟨rfl, hqname⟩ := hq.of_none hplan hnone
      rw [hp.same_call hnames hq (hpname.symm.trans (hsame.trans hqname))]
  · intro hplain hkeys
    constructor
    · intro hsame
      have hvariables : variableFor d.identifiers p = variableFor d.identifiers q := by
        rw [← hp.name_eq, ← hq.name_eq, hsame]
      have hpname := variableFor_bare hresolve hgiven hplan hplain hcode hcode' hpmem hqmem hkeys
        hvariables
      have hqname := variableFor_bare hresolve hgiven hplan hplain hcode' hcode hqmem hpmem
        hkeys.symm hvariables.symm
      have hbare : p.name = q.name := hpname.symm.trans (hvariables.trans hqname)
      refine ⟨?_, hbare, hp.name_eq.trans hpname, hq.name_eq.trans hqname⟩
      rintro rfl
      exact hkeys (congrArg (·.library.key) (hp.same_call hnames hq hbare))
    · rintro ⟨-, hbare, hpname, hqname⟩
      rw [hpname, hqname, hbare]

/-! ## Two libraries of one name -/

/-- Two libraries named `Math`, and one that calls the second of them. -/
def vendors : Loader := .ofCodes [
  (⟨"a.sol", "Math"⟩, "6001".toList, []),
  (⟨"b.sol", "Math"⟩, "6002".toList, []),
  (⟨"x.sol", "Vendor"⟩, ("60" ++ String.ofList (List.replicate 40 '0') ++ "00").toList,
    [("b.sol", [("Math", [⟨1, 20⟩])])])]

/-- A contract that calls the first of them and the one that calls the second. -/
def customer : Artifact :=
  .ofCode "Customer" ("60" ++ String.ofList (List.replicate 40 '0') ++ "50" ++
    String.ofList (List.replicate 40 '0') ++ "00").toList
    [("a.sol", [("Math", [⟨1, 20⟩])]), ("x.sol", [("Vendor", [⟨22, 20⟩])])]

def vendorLibraries : List Resolved :=
  [⟨⟨"a.sol", "Math"⟩, "math", .ofCode "Math" "6001".toList [], []⟩,
    ⟨⟨"b.sol", "Math"⟩, "math2", .ofCode "Math" "6002".toList [], []⟩,
    ⟨⟨"x.sol", "Vendor"⟩, "vendor",
      .ofCode "Vendor" ("60" ++ String.ofList (List.replicate 40 '0') ++ "00").toList
        [("b.sol", [("Math", [⟨1, 20⟩])])], ["math2"]⟩]

theorem resolve_vendors :
    (resolve vendors 20 true customer.links).result = .ok vendorLibraries := by rfl

/-- All three deployed along share no variable. -/
theorem aliases_exactly_vendors :
    ∃ source d, (generate customer { libraries := vendorLibraries }).result = .ok source ∧
      source = Deployer.source d ∧ ∀ {salted i k j l name other p q},
        ArgumentAt d salted i k name p → ArgumentAt d salted j l other q →
        name = other → p.library.key = q.library.key := by
  have hquiet : ∀ notice ∈ (generate customer { libraries := vendorLibraries }).notices,
      notice.level ≠ .warning := by decide +kernel
  cases hgenerate : (generate customer { libraries := vendorLibraries }).result with
  | error failure =>
      have hsome : (generate customer { libraries := vendorLibraries }).result.toOption.isSome =
          true := by decide +kernel
      rw [hgenerate] at hsome
      cases hsome
  | ok source =>
      obtain ⟨d, -, hsource, -, harguments⟩ :=
        aliases_exactly resolve_vendors (fun library hmem => hmem) hgenerate hquiet
      refine ⟨source, d, rfl, hsource, ?_⟩
      intro salted i k j l name other p q hp hq
      exact (harguments hp hq).1 (.inl fun library hmem => hmem)

/-- With the last one alone deployed along, the caller gives one address
that is passed for both libraries named `Math`, and nothing is told. -/
theorem caller_address_shared :
    ∃ source d, (resolve vendors 20 true customer.links).result = .ok vendorLibraries ∧
      (generate customer { libraries := vendorLibraries.drop 2 }).result = .ok source ∧
      (generate customer { libraries := vendorLibraries.drop 2 }).notices = [] ∧
      source = Deployer.source d ∧
      ArgumentAt d false 0 0 "math" ⟨"math", ⟨"b.sol", "Math"⟩⟩ ∧
      ArgumentAt d false 1 0 "math" ⟨"math", ⟨"a.sol", "Math"⟩⟩ ∧
      LibraryId.key ⟨"b.sol", "Math"⟩ ≠ LibraryId.key ⟨"a.sol", "Math"⟩ := by
  have hplanned : (plan customer { libraries := vendorLibraries.drop 2 }).result.toOption.map (fun d =>
      ((d.statements false).filterMap Statement.call?, d.codes.map Segmentation.parameters)) =
      some ([⟨"_vendorInitcode", ["math"]⟩, ⟨"initcode", ["math", "vendor"]⟩],
        [[⟨"math", ⟨"b.sol", "Math"⟩⟩],
          [⟨"math", ⟨"a.sol", "Math"⟩⟩, ⟨"vendor", ⟨"x.sol", "Vendor"⟩⟩]]) := by decide +kernel
  cases hgenerate : (generate customer { libraries := vendorLibraries.drop 2 }).result with
  | error failure =>
      have hsome : (generate customer
          { libraries := vendorLibraries.drop 2 }).result.toOption.isSome = true := by
        decide +kernel
      rw [hgenerate] at hsome
      cases hsome
  | ok source =>
      obtain ⟨d, hplan, rfl⟩ := generate_ok hgenerate
      rw [hplan] at hplanned
      obtain ⟨hcalls, hcodes⟩ := Prod.mk.inj (Option.some.inj hplanned)
      obtain ⟨first, others, hsplit, hfirst, hothers⟩ := List.map_eq_cons_iff.mp hcodes
      obtain ⟨second, rest, rfl, hsecond, -⟩ := List.map_eq_cons_iff.mp hothers
      refine ⟨_, d, resolve_vendors, rfl, by decide +kernel, rfl, ⟨?_, ?_⟩, ⟨?_, ?_⟩, by decide⟩
      · rw [hcalls]
        exact ⟨_, rfl, rfl⟩
      · rw [hsplit]
        exact ⟨first, rfl, by rw [hfirst]; rfl⟩
      · rw [hcalls]
        exact ⟨_, rfl, rfl⟩
      · rw [hsplit]
        exact ⟨second, rfl, by rw [hsecond]; rfl⟩

end SolDeployer.Deployer
