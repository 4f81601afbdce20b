import SolDeployer.Proofs.Deployer.Agreement

/-!
# Calls in the body of a deployer

The lines of a generated `deploy` call the functions that build bytecodes:
a line that deploys a library calls the function of this library, and one
line after them calls that of the contract. So what stands before a call
is told by the libraries that were deployed until then (`call_cases`), and
the calls come in the order of the bytecodes of the plan
(`calls_arguments`).

The names of these functions differ from each other and from those of the
functions with the lines, so a call means one function. Calls and
declarations are taken from the plan and read back from the texts.
-/

namespace SolDeployer.Deployer

open Abi.TypeText (after?)
open Solidity (IsName before? readList?)

/-- A call of a function that builds a bytecode. -/
structure Call where
  function : String
  arguments : List String
  deriving Repr, DecidableEq

namespace Statement

def call? : Statement → Option Call
  | .deployLibrary identifier arguments => some ⟨initcodeName identifier, arguments⟩
  | .buildInitcode arguments _ => some ⟨"initcode", arguments⟩
  | _ => none

/-- The variable for an address that a line declares. -/
def declared? : Statement → Option String
  | .deployLibrary identifier _ => some identifier
  | _ => none

end Statement

/-! ## Lines and their calls -/

section

variable {d : Deployer} {salted : Bool}

/-- The lines after the libraries. -/
def lastStatements (d : Deployer) (salted : Bool) : List Statement :=
  (if d.params.isEmpty then [] else [.encodeParams (d.params.map (·.name.text))]) ++
    [.buildInitcode (d.code.parameters.map (variableFor d.identifiers)) (!d.params.isEmpty),
      .create salted d.payable]

theorem statements_eq (d : Deployer) (salted : Bool) :
    d.statements salted = d.libraries.map (deployment d.identifiers) ++ d.lastStatements salted :=
  List.append_assoc ..

theorem lastStatements_declare (d : Deployer) (salted : Bool) :
    (d.lastStatements salted).filterMap Statement.declared? = [] := by
  unfold lastStatements
  split <;> rfl

theorem lastStatements_call (d : Deployer) (salted : Bool) :
    (d.lastStatements salted).filterMap Statement.call? =
      [⟨"initcode", d.code.parameters.map (variableFor d.identifiers)⟩] := by
  unfold lastStatements
  split <;> rfl

theorem deployments_declare (known : Entries String String) (libraries : List Inlined) :
    (libraries.map (deployment known)).filterMap Statement.declared? =
      libraries.map fun inlined => inlined.library.identifier := by
  rw [List.filterMap_map, ← List.filterMap_eq_map]
  rfl

theorem statements_declare (d : Deployer) (salted : Bool) :
    (d.statements salted).filterMap Statement.declared? =
      d.libraries.map fun inlined => inlined.library.identifier := by
  rw [statements_eq, List.filterMap_append, deployments_declare, lastStatements_declare,
    List.append_nil]

/-- A line is one that deploys a library, or it comes after all of them. -/
theorem split_deployments {known : Entries String String} {libraries : List Inlined}
    {rest before after : List Statement} {statement : Statement}
    (h : libraries.map (deployment known) ++ rest = before ++ statement :: after) :
    (∃ passed inlined left, libraries = passed ++ inlined :: left ∧
      before = passed.map (deployment known) ∧ statement = deployment known inlined) ∨
    ∃ more, before = libraries.map (deployment known) ++ more ∧ rest = more ++ statement :: after := by
  rcases List.append_eq_append_iff.mp h with ⟨more, hbefore, hrest⟩ | ⟨more, hlibraries, hafter⟩
  · exact .inr ⟨more, hbefore, hrest⟩
  · -- the line is one of the rest only if no line of a library is left
    cases more with
    | nil =>
        refine .inr ⟨[], ?_, hafter.symm⟩
        rw [List.append_nil] at hlibraries ⊢
        exact hlibraries.symm
    | cons first more =>
        obtain ⟨rfl, -⟩ := List.cons.inj hafter
        obtain ⟨passed, others, rfl, hpassed, hothers⟩ := List.map_eq_append_iff.mp hlibraries
        obtain ⟨inlined, left, rfl, hinlined, -⟩ := List.map_eq_cons_iff.mp hothers
        exact .inl ⟨passed, inlined, left, rfl, hpassed.symm, hinlined.symm⟩

/-- A line with a call deploys the library after those that are declared,
or builds the bytecode of the contract after all are. -/
theorem call_cases {before after : List Statement} {statement : Statement} {call : Call}
    (hsplit : d.statements salted = before ++ statement :: after)
    (hcall : statement.call? = some call) :
    (∃ passed inlined left, d.libraries = passed ++ inlined :: left ∧
      before.filterMap Statement.declared? = passed.map (·.library.identifier) ∧
      call = ⟨initcodeName inlined.library.identifier,
        inlined.code.parameters.map (variableFor d.identifiers)⟩) ∨
    before.filterMap Statement.declared? = d.libraries.map (·.library.identifier) ∧
      call = ⟨"initcode", d.code.parameters.map (variableFor d.identifiers)⟩ := by
  rw [statements_eq] at hsplit
  rcases split_deployments hsplit with
    ⟨passed, inlined, left, hlibraries, rfl, rfl⟩ | ⟨more, rfl, hlast⟩
  · refine .inl ⟨passed, inlined, left, hlibraries, deployments_declare _ _, ?_⟩
    exact (Option.some.inj hcall).symm
  · refine .inr ⟨?_, ?_⟩
    · have hnone := lastStatements_declare d salted
      rw [hlast, List.filterMap_append, List.append_eq_nil_iff] at hnone
      rw [List.filterMap_append, deployments_declare, hnone.1, List.append_nil]
    · -- there is one call among the last lines
      have hmem : call ∈ (d.lastStatements salted).filterMap Statement.call? := by
        rw [hlast]
        exact List.mem_filterMap.mpr ⟨statement, List.mem_append_right _ (List.mem_cons_self ..), hcall⟩
      rw [lastStatements_call] at hmem
      exact List.mem_singleton.mp hmem

theorem calls_eq (d : Deployer) (salted : Bool) :
    (d.statements salted).filterMap Statement.call? =
      (d.libraries.map fun inlined => ⟨initcodeName inlined.library.identifier,
        inlined.code.parameters.map (variableFor d.identifiers)⟩) ++
      [⟨"initcode", d.code.parameters.map (variableFor d.identifiers)⟩] := by
  have hdeployments : (d.libraries.map (deployment d.identifiers)).filterMap Statement.call? =
      d.libraries.map fun inlined => ⟨initcodeName inlined.library.identifier,
        inlined.code.parameters.map (variableFor d.identifiers)⟩ := by
    rw [List.filterMap_map, ← List.filterMap_eq_map]
    rfl
  rw [statements_eq, List.filterMap_append, hdeployments, lastStatements_call]

/-- The arguments are the variables for the parameters of the bytecodes. -/
theorem calls_arguments (d : Deployer) (salted : Bool) :
    ((d.statements salted).filterMap Statement.call?).map Call.arguments =
      d.codes.map fun code => code.parameters.map (variableFor d.identifiers) := by
  rw [calls_eq, codes, List.map_append, List.map_append, List.map_map, List.map_map]
  rfl

end

/-! ## Functions and their names -/

/-- The functions among the members of a library. -/
def functionsOf (members : List Solidity.Fragment) : List Solidity.Function :=
  members.filterMap fun
    | .function function => some function
    | _ => none

theorem functionsOf_append (members more : List Solidity.Fragment) :
    functionsOf (members ++ more) = functionsOf members ++ functionsOf more :=
  List.filterMap_append

theorem functionsOf_members (d : Deployer) :
    functionsOf d.members = [d.deployFunction false, d.deployFunction true] ++
      d.libraries.map libraryFunction ++ [initcodeFunction "initcode" "internal" d.code] := by
  have hcomment : functionsOf d.commentFragments = [] := by
    unfold commentFragments
    split <;> rfl
  have hstructs : functionsOf (d.structs.map structFragment) = [] := by
    refine List.filterMap_eq_nil_iff.mpr ?_
    intro fragment hmem
    obtain ⟨definition, -, rfl⟩ := List.mem_map.mp hmem
    rfl
  have hlibraries : functionsOf (d.libraries.map (.function ∘ libraryFunction)) =
      d.libraries.map libraryFunction := by
    rw [functionsOf, List.filterMap_map, ← List.filterMap_eq_map]
    rfl
  rw [members, functionsOf_append, functionsOf_append, functionsOf_append, functionsOf_append,
    hcomment, hstructs, hlibraries]
  rfl

theorem initcodeName_ne {identifier other : String} (h : other.toList.head? ≠ some '_') :
    initcodeName identifier ≠ other := by
  rintro rfl
  exact h (by simp [initcodeName])

/-- No two functions have one name, as long as the identifiers differ. -/
theorem functionsOf_names_nodup {d : Deployer}
    (h : (d.libraries.map fun inlined => inlined.library.identifier).Nodup) :
    ((functionsOf d.members).map Solidity.Function.name).Nodup := by
  have hnames : (d.libraries.map libraryFunction).map Solidity.Function.name =
      (d.libraries.map fun inlined => inlined.library.identifier).map initcodeName := by
    rw [List.map_map, List.map_map]
    rfl
  have hlibraries := h.map (f := initcodeName) fun _ _ heq => initcodeName_injective heq
  -- the others begin with a letter
  have hother : ∀ name ∈ (d.libraries.map fun inlined => inlined.library.identifier).map initcodeName,
      name ∉ ["deploy", "deploy2", "initcode"] := by
    intro name hmem hname
    obtain ⟨identifier, -, rfl⟩ := List.mem_map.mp hmem
    simp only [List.mem_cons, List.not_mem_nil, or_false] at hname
    rcases hname with hname | hname | hname
    · exact initcodeName_ne (by decide) hname
    · exact initcodeName_ne (by decide) hname
    · exact initcodeName_ne (by decide) hname
  have hown : ∀ name ∈ ["deploy", "deploy2"], name ∈ ["deploy", "deploy2", "initcode"] ∧
      name ≠ "initcode" := by decide
  rw [functionsOf_members, List.map_append, List.map_append, hnames, List.append_assoc]
  show (["deploy", "deploy2"] ++ (_ ++ ["initcode"])).Nodup
  refine List.nodup_append.mpr ⟨by decide, List.nodup_append.mpr ⟨hlibraries, by decide, ?_⟩, ?_⟩
  · intro name hmem other hinitcode heq
    rw [List.mem_singleton.mp hinitcode] at heq
    exact hother name hmem (by rw [heq]; decide)
  · intro name hmem other hlater heq
    rcases List.mem_append.mp hlater with hlibrary | hinitcode
    · exact hother other hlibrary (heq ▸ (hown name hmem).1)
    · exact (hown name hmem).2 (heq.trans (List.mem_singleton.mp hinitcode))

/-! ## Reading the calls -/

/-- The call of the function for the bytecode of the contract. -/
def readOwnCall? (text : List Char) : Option Call :=
  (after? "initcode(".toList text).bind fun arguments =>
    (readList? readName? arguments).map (⟨"initcode", ·⟩)

/-- A line after the name of the variable for the bytecode. -/
def readBuild? (text : List Char) : Option Call :=
  match after? "abi.encodePacked(".toList text with
  | some packed => (before? "), args);".toList packed).bind readOwnCall?
  | none => (before? ");".toList text).bind readOwnCall?

def readCall? (line : List Char) : Option Call :=
  match readEffect? line with
  | some (.deployLibrary _ function arguments) => some ⟨function, arguments⟩
  | _ => (after? "bytes memory initcode_ = ".toList line).bind readBuild?

def readDeclared? (line : List Char) : Option String :=
  match readEffect? line with
  | some (.deployLibrary target _ _) => some target
  | _ => none

theorem readOwnCall?_toList {arguments : List String} (h : ∀ name ∈ arguments, IsName name) :
    readOwnCall? ("initcode(".toList ++ [',', ' '].intercalate (arguments.map String.toList)) =
      some ⟨"initcode", arguments⟩ := by
  rw [readOwnCall?, Solidity.after?_append, Option.bind_some, readList?_names h]
  rfl

theorem readBuild?_toList {arguments : List String} (h : ∀ name ∈ arguments, IsName name) :
    readBuild? ("abi.encodePacked(".toList ++ ("initcode(".toList ++
        [',', ' '].intercalate (arguments.map String.toList) ++ "), args);".toList)) =
      some ⟨"initcode", arguments⟩ ∧
    readBuild? ("initcode(".toList ++ [',', ' '].intercalate (arguments.map String.toList) ++
        ");".toList) = some ⟨"initcode", arguments⟩ := by
  constructor
  · rw [readBuild?, Solidity.after?_append]
    simp only [Solidity.before?_append, Option.bind_some, readOwnCall?_toList h]
  · have hnone : after? "abi.encodePacked(".toList ("initcode(".toList ++
        [',', ' '].intercalate (arguments.map String.toList) ++ ");".toList) = none := by
      simp [after?]
    rw [readBuild?, hnone]
    simp only [Solidity.before?_append, Option.bind_some, readOwnCall?_toList h]

theorem toList_encodeParams (names : List String) : (Statement.encodeParams names).text.toList =
    "bytes memory args = abi.encode(".toList ++
      ([',', ' '].intercalate (names.map String.toList) ++ ");".toList) := by
  have htext : (Statement.encodeParams names).text =
      "bytes memory args = abi.encode(" ++ ", ".intercalate names ++ ");" := rfl
  have hcomma : ", ".toList = [',', ' '] := by simp
  simp only [htext, String.toList_append, String.toList_intercalate, hcomma, List.append_assoc]

theorem toList_buildInitcode (arguments : List String) :
    (Statement.buildInitcode arguments true).text.toList =
        "bytes memory initcode_ = ".toList ++ ("abi.encodePacked(".toList ++
          ("initcode(".toList ++ [',', ' '].intercalate (arguments.map String.toList) ++
            "), args);".toList)) ∧
      (Statement.buildInitcode arguments false).text.toList =
        "bytes memory initcode_ = ".toList ++ ("initcode(".toList ++
          [',', ' '].intercalate (arguments.map String.toList) ++ ");".toList) := by
  have hcomma : ", ".toList = [',', ' '] := by simp
  constructor
  · have htext : (Statement.buildInitcode arguments true).text =
        "bytes memory initcode_ = abi.encodePacked(initcode(" ++
          ", ".intercalate arguments ++ "), args);" := rfl
    have hhead : "bytes memory initcode_ = abi.encodePacked(initcode(".toList =
        "bytes memory initcode_ = ".toList ++ ("abi.encodePacked(".toList ++
          "initcode(".toList) := by simp
    simp only [htext, hhead, String.toList_append, String.toList_intercalate, hcomma,
      List.append_assoc]
  · have htext : (Statement.buildInitcode arguments false).text =
        "bytes memory initcode_ = initcode(" ++ ", ".intercalate arguments ++ ");" := rfl
    have hhead : "bytes memory initcode_ = initcode(".toList =
        "bytes memory initcode_ = ".toList ++ "initcode(".toList := by simp
    simp only [htext, hhead, String.toList_append, String.toList_intercalate, hcomma,
      List.append_assoc]

theorem after?_encodeParams (rest : List Char) : after? "bytes memory initcode_ = ".toList
    ("bytes memory args = abi.encode(".toList ++ rest) = none := rfl

/-- The names that a line is written with: those it declares and passes. -/
def Statement.Named (statement : Statement) : Prop :=
  statement.Proper ∧ ∀ call, statement.call? = some call → ∀ name ∈ call.arguments, IsName name

theorem readDeclared?_text {statement : Statement} (h : statement.Proper) :
    readDeclared? statement.text.toList = statement.declared? := by
  rw [readDeclared?, readEffect?_text h]
  cases statement <;> rfl

theorem readCall?_text {statement : Statement} (h : statement.Named) :
    readCall? statement.text.toList = statement.call? := by
  obtain ⟨hproper, harguments⟩ := h
  rw [readCall?, readEffect?_text hproper]
  cases statement with
  | deployLibrary identifier arguments => rfl
  | encodeParams names =>
      show (after? _ (Statement.encodeParams names).text.toList).bind readBuild? = none
      rw [toList_encodeParams, after?_encodeParams]
      rfl
  | buildInitcode arguments encoded =>
      have hnames : ∀ name ∈ arguments, IsName name := harguments _ rfl
      obtain ⟨hpacked, halone⟩ := readBuild?_toList hnames
      obtain ⟨htextPacked, htextAlone⟩ := toList_buildInitcode arguments
      cases encoded with
      | true =>
          rw [htextPacked]
          simp only [Statement.effect, Solidity.after?_append, Option.bind_some, hpacked,
            Statement.call?]
      | false =>
          rw [htextAlone]
          simp only [Statement.effect, Solidity.after?_append, Option.bind_some, halone,
            Statement.call?]
  | create salted payable => cases salted <;> cases payable <;> rfl

/-- The lines of a plan are written with the names of its libraries and parameters. -/
theorem named_statements {d : Deployer}
    (hidentifiers : ∀ inlined ∈ d.libraries, IsName inlined.library.identifier)
    (hparams : ∀ code ∈ d.codes, ∀ parameter ∈ code.parameters, IsName parameter.name)
    {salted : Bool} {statement : Statement} (hmem : statement ∈ d.statements salted) :
    statement.Named := by
  have harguments : ∀ code ∈ d.codes,
      ∀ name ∈ code.parameters.map (variableFor d.identifiers), IsName name := by
    intro code hcode name hname
    obtain ⟨parameter, hparameter, rfl⟩ := List.mem_map.mp hname
    exact isName_variableFor hidentifiers (hparams code hcode parameter hparameter)
  -- a call in a line is one of those that are listed
  have hcall : ∀ call, statement.call? = some call → ∀ name ∈ call.arguments, IsName name := by
    intro call hsome
    have hlisted : call.arguments ∈ ((d.statements salted).filterMap Statement.call?).map
        Call.arguments := List.mem_map_of_mem (List.mem_filterMap.mpr ⟨statement, hmem, hsome⟩)
    rw [calls_arguments] at hlisted
    obtain ⟨code, hcode, heq⟩ := List.mem_map.mp hlisted
    rw [← heq]
    exact harguments code hcode
  refine ⟨?_, hcall⟩
  cases statement with
  | deployLibrary identifier arguments =>
      refine ⟨?_, hcall _ rfl⟩
      have hdeclared : identifier ∈ (d.statements salted).filterMap Statement.declared? :=
        List.mem_filterMap.mpr ⟨_, hmem, rfl⟩
      rw [statements_declare] at hdeclared
      obtain ⟨inlined, hinlined, rfl⟩ := List.mem_map.mp hdeclared
      exact hidentifiers inlined hinlined
  | encodeParams names => trivial
  | buildInitcode arguments encoded => trivial
  | create salted payable => trivial

end SolDeployer.Deployer
