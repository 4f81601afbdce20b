import SolDeployer.Deployer
import SolDeployer.Proofs.Report

/-!
# What a plan holds

A deployer is generated only if its bytecode was cut, and the plan holds
the pieces.
-/

namespace SolDeployer.Deployer

theorem segmentArtifact_ok {artifact : Artifact} {code : Segmentation} :
    (segmentArtifact artifact).result = .ok code ↔
      segment artifact.bytecode artifact.links = .ok code := by
  unfold segmentArtifact
  cases segment artifact.bytecode artifact.links with
  | error misfit =>
      constructor
      · intro h
        cases h
      · intro h
        cases h
  | ok cut =>
      constructor
      · intro h
        rw [Except.ok.inj h]
      · intro h
        rw [Except.ok.inj h]
        rfl

theorem segmentLibraries_ok {libraries : List Resolved} {inlined : List Inlined}
    (h : (segmentLibraries libraries).result = .ok inlined) :
    inlined.map Inlined.library = libraries ∧ ∀ one ∈ inlined,
      segment one.library.artifact.bytecode one.library.artifact.links = .ok one.code := by
  induction libraries generalizing inlined with
  | nil =>
      obtain rfl := Except.ok.inj h
      exact ⟨rfl, fun one hmem => by cases hmem⟩
  | cons library rest ih =>
      obtain ⟨code, hcode, hothers⟩ := Report.bind_ok.mp h
      obtain ⟨others, hrest, hinlined⟩ := Report.bind_ok.mp hothers
      obtain rfl := Except.ok.inj hinlined
      obtain ⟨hlibraries, hcodes⟩ := ih hrest
      refine ⟨by rw [List.map_cons, hlibraries], fun one hmem => ?_⟩
      rcases List.mem_cons.mp hmem with rfl | hmem
      · exact segmentArtifact_ok.mp hcode
      · exact hcodes one hmem

theorem expected_ok {α : Type} {value : Option α} {a : α} :
    (expected value).result = .ok a ↔ value = some a := by
  cases value with
  | none =>
      constructor
      · intro h
        cases h
      · intro h
        cases h
  | some b =>
      constructor
      · intro h
        rw [Except.ok.inj h]
      · intro h
        rw [Option.some.inj h]
        rfl

/-- The parameters of the constructor, if there is one. -/
def inputsOf (artifact : Artifact) : List Abi.Param :=
  (artifact.constructor?.map Abi.Entry.inputs).getD []

/-- The libraries that are deployed along: none if the bytecode has no slot. -/
def inlinedOf (options : Options) (code : Segmentation) : List Resolved :=
  if code.parameters.isEmpty then [] else options.libraries

/-- The plan holds what the steps of planning found, and has told what they
tell. -/
structure Planned (artifact : Artifact) (options : Options) (d : Deployer) : Prop where
  structs : Abi.Structs.ofParams? (inputsOf artifact) = some d.structs
  params : Abi.Declaration.ofParams? d.structs.names (inputsOf artifact) = some d.params
  code : segment artifact.bytecode artifact.links = .ok d.code
  libraries : (segmentLibraries (inlinedOf options d.code)).result = .ok d.libraries
  texts : ∀ param ∈ d.params, param.name.isText = true
  sharedNames :
    sharedNameNotices artifact.contract d.code.parameters ⊆ (plan artifact options).notices
  clashes :
    (tellClashes artifact.contract
      (ownNames ++ (identifiersOf (inlinedOf options d.code)).values ++
        d.code.parameters.map Parameter.name) d.params).notices ⊆ (plan artifact options).notices
  librariesTold : libraryNotices d.libraries ⊆ (plan artifact options).notices

theorem planned {artifact : Artifact} {options : Options} {d : Deployer}
    (h : (plan artifact options).result = .ok d) : Planned artifact options d := by
  unfold plan at h
  cases hbytecode : withoutBytecode? artifact options.libraries with
  | some failure =>
      rw [hbytecode] at h
      obtain ⟨_, hfail, -⟩ := Report.bind_ok.mp h
      cases hfail
  | none =>
      rw [hbytecode] at h
      simp only [Report.bind_ok] at h
      obtain ⟨structs, hstructs, params, hparams, code, hcode, _, htold, _, hclashes, inlined,
        hinlined, h⟩ := h
      split at h
      · obtain ⟨_, hfail, -⟩ := Report.bind_ok.mp h
        cases hfail
      · rename_i htext
        simp only [Report.bind_ok] at h
        obtain ⟨_, hmismatches, _, -, h⟩ := h
        cases h
        refine ⟨expected_ok.mp hstructs, expected_ok.mp hparams, segmentArtifact_ok.mp hcode,
          hinlined, ?_, ?_, ?_, ?_⟩
        · intro param hparam
          cases hname : param.name.isText with
          | true => rfl
          | false =>
              have hany : params.any (fun param => !param.name.isText) = true :=
                List.any_eq_true.mpr ⟨param, hparam, by rw [hname]; rfl⟩
              exact absurd hany htext
        all_goals
          intro notice hmem
          unfold plan
          rw [hbytecode]
          refine Report.mem_bind_right hstructs (Report.mem_bind_right hparams
            (Report.mem_bind_right hcode ?_))
        · exact Report.mem_bind_left hmem
        · exact Report.mem_bind_right htold (Report.mem_bind_left hmem)
        · refine Report.mem_bind_right htold (Report.mem_bind_right hclashes
            (Report.mem_bind_right hinlined ?_))
          rw [if_neg htext]
          exact Report.mem_bind_right hmismatches (Report.mem_bind_left hmem)

/-- Libraries are deployed along if the bytecode has slots. -/
theorem plan_ok {artifact : Artifact} {options : Options} {d : Deployer}
    (h : (plan artifact options).result = .ok d) :
    segment artifact.bytecode artifact.links = .ok d.code ∧
      d.libraries.map Inlined.library =
        (if d.code.parameters.isEmpty then [] else options.libraries) ∧
      ∀ inlined ∈ d.libraries,
        segment inlined.library.artifact.bytecode inlined.library.artifact.links =
          .ok inlined.code :=
  ⟨(planned h).code, segmentLibraries_ok (planned h).libraries⟩

theorem plan_code {artifact : Artifact} {options : Options} {d : Deployer}
    (h : (plan artifact options).result = .ok d) :
    segment artifact.bytecode artifact.links = .ok d.code := (planned h).code

/-- What a plan tells of names that libraries share. -/
theorem plan_sharedNames {artifact : Artifact} {options : Options} {d : Deployer}
    (h : (plan artifact options).result = .ok d) :
    sharedNameNotices artifact.contract d.code.parameters ⊆ (plan artifact options).notices ∧
      ∀ inlined ∈ d.libraries, sharedNameNotices inlined.library.id.name inlined.code.parameters ⊆
        (plan artifact options).notices := by
  refine ⟨(planned h).sharedNames, fun inlined hinlined notice hmem => ?_⟩
  exact (planned h).librariesTold
    (List.mem_flatMap.mpr ⟨inlined, hinlined, List.mem_append_right _ hmem⟩)

/-- The bytecodes of a plan, in the order in which its statements use them. -/
def codes (d : Deployer) : List Segmentation := d.libraries.map Inlined.code ++ [d.code]

theorem mem_codes {d : Deployer} {code : Segmentation} :
    code ∈ d.codes ↔ (∃ inlined ∈ d.libraries, inlined.code = code) ∨ code = d.code := by
  simp only [codes, List.mem_append, List.mem_map, List.mem_singleton]

/-- The bytecodes of a plan are cut from that of the artifact and those of
the given libraries. -/
theorem plan_codes {artifact : Artifact} {options : Options} {d : Deployer}
    (h : (plan artifact options).result = .ok d) {code : Segmentation} (hmem : code ∈ d.codes) :
    segment artifact.bytecode artifact.links = .ok code ∨
      ∃ library ∈ options.libraries,
        segment library.artifact.bytecode library.artifact.links = .ok code := by
  obtain ⟨hcode, hlibraries, hcodes⟩ := plan_ok h
  rcases mem_codes.mp hmem with ⟨inlined, hinlined, rfl⟩ | rfl
  · refine .inr ⟨inlined.library, ?_, hcodes inlined hinlined⟩
    have hlibrary : inlined.library ∈ d.libraries.map Inlined.library :=
      List.mem_map_of_mem hinlined
    rw [hlibraries] at hlibrary
    split at hlibrary
    · cases hlibrary
    · exact hlibrary
  · exact .inl hcode

@[simp] theorem mem_distinct {names : List String} {name : String} :
    name ∈ distinct names ↔ name ∈ names := by
  induction names with
  | nil => simp [distinct]
  | cons first rest ih =>
      by_cases hfirst : name = first
      · simp [distinct, hfirst]
      · simp [distinct, ih, hfirst]

theorem nodup_distinct (names : List String) : (distinct names).Nodup := by
  induction names with
  | nil => exact List.nodup_nil
  | cons first rest ih =>
      refine List.nodup_cons.mpr ⟨?_, ih.filter _⟩
      simp

theorem distinct_concat (names : List String) (name : String) :
    distinct (names ++ [name]) =
      if name ∈ names then distinct names else distinct names ++ [name] := by
  induction names with
  | nil => rfl
  | cons first rest ih =>
      by_cases hfirst : name = first
      · subst hfirst
        rw [if_pos List.mem_cons_self, List.cons_append, distinct, distinct, ih]
        split
        · rfl
        · rw [List.filter_append]
          simp
      · have hmem : name ∈ first :: rest ↔ name ∈ rest := by simp [hfirst]
        rw [List.cons_append, distinct, distinct, ih]
        simp only [hmem]
        split
        · rfl
        · rw [List.filter_append, List.cons_append]
          simp [hfirst]

/-- The caller is asked for the libraries that are not deployed along. -/
theorem mem_callerAddresses {d : Deployer} {name : String} :
    name ∈ d.callerAddresses ↔ ∃ code ∈ d.codes, ∃ parameter ∈ code.parameters,
      d.identifiers.get? parameter.library.key = none ∧ parameter.name = name := by
  have hall : d.allParameters = d.codes.flatMap (·.parameters) := by
    simp [allParameters, codes, List.flatMap_map]
  simp only [callerAddresses, mem_distinct, hall, List.mem_map, List.mem_filter, List.mem_flatMap,
    Entries.contains, Bool.not_eq_true', Option.isSome_eq_false_iff, Option.isNone_iff_eq_none]
  constructor
  · rintro ⟨parameter, ⟨⟨code, hcode, hparameter⟩, hknown⟩, rfl⟩
    exact ⟨code, hcode, parameter, hparameter, hknown, rfl⟩
  · rintro ⟨code, hcode, parameter, hparameter, hknown, rfl⟩
    exact ⟨parameter, ⟨⟨code, hcode, hparameter⟩, hknown⟩, rfl⟩

theorem generate_ok {artifact : Artifact} {options : Options} {source : String}
    (h : (generate artifact options).result = .ok source) :
    ∃ d, (plan artifact options).result = .ok d ∧ source = d.source := by
  unfold generate at h
  obtain ⟨d, hplan, hsource⟩ := Report.bind_ok.mp h
  exact ⟨d, hplan, (Except.ok.inj hsource).symm⟩

end SolDeployer.Deployer
