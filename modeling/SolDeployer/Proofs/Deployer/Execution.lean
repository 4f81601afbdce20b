import SolDeployer.Proofs.Deployer.Initcode

/-!
# Running the lines that deploy libraries

What the body of a generated `deploy` does to variables that hold
addresses. A line that deploys a library calls a function for its
bytecode with the values of some store, and keeps the address of the
library in a variable of its own; the line that creates the contract
keeps its address in the variable that is returned; the other lines keep
bytes. Where a library goes is a parameter, since it is for the chain to
say.

The lines and the functions are run as they stand in a plan, and they are
read back from the texts of the generated functions: both are the same
(`readFunctions_members`, `readEffects_body`) when the names are proper
names and the bytecodes are proper bytecodes, because then no name and no
literal holds a character that ends it.
-/

namespace SolDeployer.Deployer

open Abi.TypeText (after?)
open Solidity (IsName Legible InitcodeSource before? isNameChar readAddress? readExpression?
  readList?)

/-! ## Lines and what they do -/

/-- What a line does to variables that hold addresses. -/
inductive Effect where
  /-- Deploy a library with the bytecode that a function builds, and keep its address. -/
  | deployLibrary (target function : String) (arguments : List String)
  /-- Create the contract and keep its address in the variable that is returned. -/
  | create
  /-- Keep some bytes. -/
  | keepBytes
  deriving Repr, DecidableEq

/-- What lines are run with: the functions that build bytecodes, by name,
the address of a library by its bytecode, and that of the contract. -/
structure Host where
  functions : Entries String InitcodeSource
  addressOf : List UInt8 → List UInt8
  contract : List UInt8

/-- The values of the variables that hold addresses. -/
abbrev Store := Entries String (List UInt8)

/-- What a call of a function returns, if it has an argument for each parameter. -/
def Host.call? (host : Host) (function : String) (values : List (List UInt8)) :
    Option (List UInt8) :=
  (host.functions.get? function).bind fun source =>
    if values.length = source.params.length then source.call? values else none

/-- The variables after a line. -/
def Effect.run? (host : Host) (store : Store) : Effect → Option Store
  | .deployLibrary target function arguments =>
    (arguments.mapM store.get?).bind fun values =>
      (host.call? function values).map fun code => store.insert target (host.addressOf code)
  | .create => some (store.insert "deployed" host.contract)
  | .keepBytes => some store

/-- The variables after some lines. -/
def run? (host : Host) : List Effect → Store → Option Store
  | [], store => some store
  | effect :: rest, store => (effect.run? host store).bind (run? host rest)

theorem run?_append (host : Host) (effects more : List Effect) (store : Store) :
    run? host (effects ++ more) store = (run? host effects store).bind (run? host more) := by
  induction effects generalizing store with
  | nil => rfl
  | cons effect rest ih =>
      rw [List.cons_append, run?, run?]
      cases effect.run? host store with
      | none => rfl
      | some next => exact ih next

/-- The variable that a line gives a value. -/
def Effect.target? : Effect → Option String
  | .deployLibrary target _ _ => some target
  | .create => some "deployed"
  | .keepBytes => none

/-- A line leaves all variables alone but its own. -/
theorem Effect.run?_other {host : Host} {store after : Store} {effect : Effect}
    (h : effect.run? host store = some after) {name : String}
    (hname : effect.target? ≠ some name) : after.get? name = store.get? name := by
  cases effect with
  | deployLibrary target function arguments =>
      obtain ⟨values, -, hvalues⟩ := Option.bind_eq_some_iff.mp h
      obtain ⟨code, -, rfl⟩ := Option.map_eq_some_iff.mp hvalues
      exact Entries.get?_insert_of_ne _ _ fun heq => hname (congrArg some heq.symm)
  | create =>
      obtain rfl := Option.some.inj h
      exact Entries.get?_insert_of_ne _ _ fun heq => hname (congrArg some heq.symm)
  | keepBytes =>
      obtain rfl := Option.some.inj h
      rfl

theorem run?_other {host : Host} {effects : List Effect} {store after : Store}
    (h : run? host effects store = some after) {name : String}
    (hname : ∀ effect ∈ effects, effect.target? ≠ some name) :
    after.get? name = store.get? name := by
  induction effects generalizing store with
  | nil => rw [Option.some.inj h]
  | cons effect rest ih =>
      obtain ⟨next, hnext, hrest⟩ := Option.bind_eq_some_iff.mp h
      rw [ih hrest fun other hmem => hname other (List.mem_cons_of_mem _ hmem),
        Effect.run?_other hnext (hname effect (List.mem_cons_self ..))]

/-! ## The lines and functions of a plan -/

/-- The name of the function that builds the bytecode of a library. -/
def initcodeName (identifier : String) : String := "_" ++ identifier ++ "Initcode"

def Statement.effect : Statement → Effect
  | .deployLibrary identifier arguments =>
    .deployLibrary identifier (initcodeName identifier) arguments
  | .encodeParams _ => .keepBytes
  | .buildInitcode .. => .keepBytes
  | .create .. => .create

/-- A function that builds a bytecode. -/
def initcodeSource (code : Segmentation) : InitcodeSource :=
  ⟨code.parameters.map Parameter.name, code.segments⟩

/-- The functions of a deployer that build bytecodes, by name. -/
def functions (d : Deployer) : Entries String InitcodeSource :=
  d.libraries.map (fun inlined =>
    (initcodeName inlined.library.identifier, initcodeSource inlined.code)) ++
    [("initcode", initcodeSource d.code)]

def effects (d : Deployer) (salted : Bool) : List Effect :=
  (d.statements salted).map Statement.effect

/-! ## Reading lines -/

def readName? (text : List Char) : Option String :=
  if !text.isEmpty && text.all isNameChar then some (String.ofList text) else none

/-- A line after the type of the variable that it declares. -/
def readDeployment? (text : List Char) : Option Effect :=
  (after? " = DeployHelper.deployLibrary(".toList (text.dropWhile isNameChar)).bind fun call =>
    (after? ['('] (call.dropWhile isNameChar)).bind fun rest =>
      (before? "));".toList rest).bind fun arguments =>
        (readList? readName? arguments).map
          (.deployLibrary (String.ofList (text.takeWhile isNameChar))
            (String.ofList (call.takeWhile isNameChar)))

/-- What a line does: it declares an address, or it declares bytes, or the
contract is created. -/
def readEffect? (text : List Char) : Option Effect :=
  match after? "address ".toList text with
  | some rest => readDeployment? rest
  | none =>
    if (after? "bytes memory ".toList text).isSome then some .keepBytes
    else if (after? "deployed = ".toList text).isSome then some .create
    else none

/-- What the lines of a body do. -/
def readEffects? (body : List String) : Option (List Effect) :=
  body.mapM fun line => readEffect? line.toList

theorem readName?_toList {name : String} (h : IsName name) : readName? name.toList = some name := by
  have hempty : name.toList.isEmpty = false := by
    rw [List.isEmpty_eq_false_iff]
    exact fun hnil => h.1 (String.toList_eq_nil_iff.mp hnil)
  simp only [readName?, hempty, List.all_eq_true.mpr h.2, Bool.not_false, Bool.and_self, if_true,
    String.ofList_toList]

/-- A name ends where a word begins with another character. -/
theorem takeWhile_name {name : List Char} (h : ∀ c ∈ name, isNameChar c = true)
    (word : List Char) (hword : ∀ c ∈ word.head?, isNameChar c = false) :
    (name ++ word).takeWhile isNameChar = name ∧ (name ++ word).dropWhile isNameChar = word := by
  rw [List.takeWhile_append_of_pos h, List.dropWhile_append_of_pos h]
  cases word with
  | nil => simp
  | cons c rest =>
      have hc := hword c rfl
      simp [hc]

theorem isName_initcodeName {identifier : String} (h : IsName identifier) :
    IsName (initcodeName identifier) := by
  have hafter : "Initcode".toList.all isNameChar = true := by decide
  refine ⟨fun hempty => ?_, fun c hmem => ?_⟩
  · have := congrArg String.toList hempty
    simp [initcodeName] at this
  · simp only [initcodeName, String.toList_append, List.mem_append] at hmem
    rcases hmem with (hmem | hmem) | hmem
    · rw [List.mem_singleton.mp hmem]
      decide
    · exact h.2 c hmem
    · exact List.all_eq_true.mp hafter c hmem

theorem toList_deployLibrary (identifier : String) (arguments : List String) :
    (Statement.deployLibrary identifier arguments).text.toList =
      "address ".toList ++ (identifier.toList ++ (" = DeployHelper.deployLibrary(".toList ++
        ((initcodeName identifier).toList ++ (['('] ++
          ([',', ' '].intercalate (arguments.map String.toList) ++ "));".toList))))) := by
  have hcall : " = DeployHelper.deployLibrary(_".toList =
      " = DeployHelper.deployLibrary(".toList ++ "_".toList := by simp
  have hopen : "Initcode(".toList = "Initcode".toList ++ ['('] := by simp
  have hcomma : ", ".toList = [',', ' '] := by simp
  have htext : (Statement.deployLibrary identifier arguments).text =
      "address " ++ identifier ++ " = DeployHelper.deployLibrary(_" ++ identifier ++ "Initcode(" ++
        ", ".intercalate arguments ++ "));" := rfl
  simp only [htext, initcodeName, String.toList_append, String.toList_intercalate, hcall, hopen,
    hcomma, List.append_assoc]

theorem readList?_names {names : List String} (h : ∀ name ∈ names, IsName name) :
    readList? readName? ([',', ' '].intercalate (names.map String.toList)) = some names := by
  refine Solidity.readList?_intercalate ?_
  intro name hmem
  have hname := h name hmem
  refine ⟨readName?_toList hname, ?_, ?_⟩
  · intro hcomma
    exact Solidity.isNameChar_ne (hname.2 _ hcomma) (by decide) rfl
  · intro hnil
    exact hname.1 (String.toList_eq_nil_iff.mp hnil)

theorem readDeployment?_text {identifier : String} {arguments : List String}
    (hidentifier : IsName identifier) (harguments : ∀ name ∈ arguments, IsName name) :
    readDeployment? (identifier.toList ++ (" = DeployHelper.deployLibrary(".toList ++
        ((initcodeName identifier).toList ++ (['('] ++
          ([',', ' '].intercalate (arguments.map String.toList) ++ "));".toList))))) =
      some (.deployLibrary identifier (initcodeName identifier) arguments) := by
  obtain ⟨htake, hdrop⟩ := takeWhile_name hidentifier.2 (" = DeployHelper.deployLibrary(".toList ++
    ((initcodeName identifier).toList ++ (['('] ++
      ([',', ' '].intercalate (arguments.map String.toList) ++ "));".toList)))) (by simp; decide)
  obtain ⟨htakeCall, hdropCall⟩ := takeWhile_name (isName_initcodeName hidentifier).2 (['('] ++
    ([',', ' '].intercalate (arguments.map String.toList) ++ "));".toList)) (by simp; decide)
  simp only [readDeployment?, htake, hdrop, Solidity.after?_append, Option.bind_some, htakeCall,
    hdropCall, Solidity.before?_append, readList?_names harguments, Option.map_some,
    String.ofList_toList]

/-- The names that a statement on a library is written with are proper. -/
def Statement.Proper : Statement → Prop
  | .deployLibrary identifier arguments => IsName identifier ∧ ∀ name ∈ arguments, IsName name
  | _ => True

theorem readEffect?_text {statement : Statement} (h : statement.Proper) :
    readEffect? statement.text.toList = some statement.effect := by
  cases statement with
  | deployLibrary identifier arguments =>
      rw [readEffect?, toList_deployLibrary, Solidity.after?_append]
      exact readDeployment?_text h.1 h.2
  | encodeParams names =>
      have htext : (Statement.encodeParams names).text =
          "bytes memory args = abi.encode(" ++ ", ".intercalate names ++ ");" := rfl
      rw [htext]
      simp [readEffect?, after?, Statement.effect]
  | buildInitcode arguments encoded =>
      have hpacked : (Statement.buildInitcode arguments true).text =
          "bytes memory initcode_ = abi.encodePacked(initcode(" ++ ", ".intercalate arguments ++
            "), args);" := rfl
      have halone : (Statement.buildInitcode arguments false).text =
          "bytes memory initcode_ = initcode(" ++ ", ".intercalate arguments ++ ");" := rfl
      cases encoded with
      | true =>
          rw [hpacked]
          simp [readEffect?, after?, Statement.effect]
      | false =>
          rw [halone]
          simp [readEffect?, after?, Statement.effect]
  | create salted payable => cases salted <;> cases payable <;> rfl

/-- The lines of the body are those of the plan. -/
theorem readEffects_body {d : Deployer} {salted : Bool}
    (h : ∀ statement ∈ d.statements salted, statement.Proper) :
    readEffects? (d.deployFunction salted).body = some (d.effects salted) := by
  exact Solidity.mapM_map_eq_some fun statement hmem => readEffect?_text (h statement hmem)

/-! ## Reading functions -/

/-- The pieces that a line returns. -/
def readReturned? (line : List Char) : Option (List Segment) :=
  (after? "return ".toList line).bind fun rest => (before? [';'] rest).bind readExpression?

/-- A function that does nothing but return a bytecode. -/
def readFunction? (function : Solidity.Function) : Option (String × InitcodeSource) :=
  match function.body with
  | [line] =>
    (function.params.mapM fun param => readAddress? param.toList).bind fun params =>
      (readReturned? line.toList).map fun pieces => (function.name, ⟨params, pieces⟩)
  | _ => none

/-- The functions among the members of a library that build bytecodes, by name. -/
def readFunctions (members : List Solidity.Fragment) : Entries String InitcodeSource :=
  members.filterMap fun
    | .function function => readFunction? function
    | _ => none

/-- The names and literals of a bytecode in pieces can be written and read. -/
structure LegibleCode (code : Segmentation) : Prop where
  params : ∀ parameter ∈ code.parameters, IsName parameter.name
  pieces : ∀ piece ∈ code.segments, Legible piece

theorem readFunction?_initcodeFunction {code : Segmentation} (h : LegibleCode code)
    (name visibility : String) :
    readFunction? (initcodeFunction name visibility code) = some (name, initcodeSource code) := by
  have hparams : ((initcodeFunction name visibility code).params.mapM fun param =>
      readAddress? param.toList) = some (code.parameters.map Parameter.name) := by
    have hmap : (initcodeFunction name visibility code).params =
        (code.parameters.map Parameter.name).map addressText := by
      rw [List.map_map]
      rfl
    rw [hmap]
    refine Solidity.mapM_map_eq_self fun name hmem => ?_
    obtain ⟨parameter, hparameter, rfl⟩ := List.mem_map.mp hmem
    exact Solidity.readAddress?_addressText (h.params parameter hparameter)
  have hline : ("return " ++ initcodeExpression code.segments ++ ";").toList =
      "return ".toList ++ ((initcodeExpression code.segments).toList ++ [';']) := by
    rw [String.toList_append, String.toList_append, List.append_assoc]
    rfl
  have hreturned : readReturned? ("return " ++ initcodeExpression code.segments ++ ";").toList =
      some code.segments := by
    rw [hline, readReturned?, Solidity.after?_append, Option.bind_some, Solidity.before?_append,
      Option.bind_some, Solidity.readExpression?_initcodeExpression h.pieces]
  show ((initcodeFunction name visibility code).params.mapM fun param =>
    readAddress? param.toList).bind _ = _
  rw [hparams, Option.bind_some, hreturned]
  rfl

/-- The functions that deploy the contract have more than one line. -/
theorem readFunction?_deployFunction (d : Deployer) (salted : Bool) :
    readFunction? (d.deployFunction salted) = none := by
  have hlength : 2 ≤ (d.deployFunction salted).body.length := by
    simp only [deployFunction, statements, List.length_map, List.length_append, List.length_cons]
    omega
  unfold readFunction?
  split
  · rename_i line hbody
    rw [hbody] at hlength
    simp at hlength
  · rfl

/-- The functions among the members are those of the plan. -/
theorem readFunctions_members {d : Deployer} (hcode : LegibleCode d.code)
    (hlibraries : ∀ inlined ∈ d.libraries, LegibleCode inlined.code) :
    readFunctions d.members = d.functions := by
  have hcomment : readFunctions d.commentFragments = [] := by
    unfold commentFragments
    split <;> rfl
  have hstructs : readFunctions (d.structs.map structFragment) = [] :=
    List.filterMap_eq_nil_iff.mpr fun fragment hmem => by
      obtain ⟨definition, -, rfl⟩ := List.mem_map.mp hmem
      rfl
  have hdeploy : readFunctions [.function (d.deployFunction false),
      .function (d.deployFunction true)] = [] := by
    simp only [readFunctions, List.filterMap_cons, readFunction?_deployFunction, List.filterMap_nil]
  have hothers : readFunctions (d.libraries.map (.function ∘ libraryFunction)) =
      d.libraries.map fun inlined =>
        (initcodeName inlined.library.identifier, initcodeSource inlined.code) := by
    rw [readFunctions, List.filterMap_map, ← List.filterMap_eq_map]
    refine List.filterMap_congr fun inlined hmem => ?_
    exact readFunction?_initcodeFunction (hlibraries inlined hmem) _ _
  have hown : readFunctions [.function (initcodeFunction "initcode" "internal" d.code)] =
      [("initcode", initcodeSource d.code)] := by
    simp only [readFunctions, List.filterMap_cons, readFunction?_initcodeFunction hcode,
      List.filterMap_nil]
  have happend : ∀ members more, readFunctions (members ++ more) =
      readFunctions members ++ readFunctions more := fun members more => List.filterMap_append
  rw [members, happend, happend, happend, happend, hcomment, hstructs, hdeploy, hothers, hown]
  rfl

end SolDeployer.Deployer
