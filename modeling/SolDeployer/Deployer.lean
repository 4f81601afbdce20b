import SolDeployer.Abi.Declaration
import SolDeployer.Notice
import SolDeployer.Resolution
import SolDeployer.Solidity.DeployHelper
import SolDeployer.Solidity.Expression
import SolDeployer.Solidity.Fragment

/-!
# Deployers

The library of generated code that deploys one contract. It has two
functions that deploy the contract, without and with a salt, and one
function for the bytecode of the contract and of every library that is
deployed along with it. A library that is not deployed along becomes a
parameter: the caller gives its address.

A deployer is planned first: which structures, parameters, libraries and
statements there are. Only then is the plan written out.
-/

namespace SolDeployer

namespace Deployer

/-- The versions of the language that a deployer is written for. -/
def defaultPragma : String := ">=0.8.0"

/-- What the user may choose. The libraries are deployed along, in the
given order. -/
structure Options where
  pragma : String := defaultPragma
  libraries : List Resolved := []
  metadata : Bool := true
  helperPath : String := "./utils/" ++ Solidity.DeployHelper.fileName

/-- A library that is deployed along, and its bytecode in pieces. -/
structure Inlined where
  library : Resolved
  code : Segmentation

/-- A statement of a function that deploys the contract. -/
inductive Statement where
  /-- Deploy a library with the addresses of those it needs, and keep its
  address under its identifier. -/
  | deployLibrary (identifier : String) (arguments : List String)
  /-- Encode the parameters of the constructor. -/
  | encodeParams (names : List String)
  /-- Build the bytecode, with the encoded parameters after it or alone. -/
  | buildInitcode (arguments : List String) (encoded : Bool)
  /-- Create the contract, with a salt and with ether or without them. -/
  | create (salted payable : Bool)
  deriving Repr, DecidableEq

end Deployer

/-- The plan of a deployer. -/
structure Deployer where
  contract : String
  pragma : String
  helperPath : String
  comment : List String
  structs : Abi.Structs
  params : List Abi.Declaration
  payable : Bool
  code : Segmentation
  libraries : List Deployer.Inlined

namespace Deployer

/-! ## Addresses -/

/-- The identifiers of some libraries, by key. -/
def identifiersOf (libraries : List Resolved) : Entries String String :=
  Entries.ofList (libraries.map fun library => (library.key, library.identifier))

/-- The identifiers of the libraries that are deployed along, by key. -/
def identifiers (d : Deployer) : Entries String String :=
  identifiersOf (d.libraries.map Inlined.library)

/-- The variable with the address of a library: its identifier if it is
known as one that is deployed along, or else a parameter. -/
def variableFor (known : Entries String String) (parameter : Parameter) : String :=
  (known.get? parameter.library.key).getD parameter.name

/-- Everything that some bytecode needs the address of, in the order of
the statements. -/
def allParameters (d : Deployer) : List Parameter :=
  d.libraries.flatMap (·.code.parameters) ++ d.code.parameters

/-- The items without repetitions, each at its first place. -/
def distinct : List String → List String
  | [] => []
  | name :: rest => name :: (distinct rest).filter (· != name)

/-- The addresses that the caller has to give, in order of first use. -/
def callerAddresses (d : Deployer) : List String :=
  let known := d.identifiers
  distinct ((d.allParameters.filter fun parameter =>
    !known.contains parameter.library.key).map Parameter.name)

/-! ## Statements -/

namespace Statement

def text : Statement → String
  | .deployLibrary identifier arguments =>
    "address " ++ identifier ++ " = DeployHelper.deployLibrary(_" ++ identifier ++ "Initcode(" ++
      ", ".intercalate arguments ++ "));"
  | .encodeParams names => "bytes memory args = abi.encode(" ++ ", ".intercalate names ++ ");"
  | .buildInitcode arguments true =>
    "bytes memory initcode_ = abi.encodePacked(initcode(" ++ ", ".intercalate arguments ++
      "), args);"
  | .buildInitcode arguments false =>
    "bytes memory initcode_ = initcode(" ++ ", ".intercalate arguments ++ ");"
  | .create false true => "deployed = DeployHelper.deploy(initcode_, bytes32(0), msg.value);"
  | .create true true => "deployed = DeployHelper.deploy(initcode_, salt, msg.value);"
  | .create false false => "deployed = DeployHelper.deploy(initcode_);"
  | .create true false => "deployed = DeployHelper.deploy(initcode_, salt);"

end Statement

def deployment (known : Entries String String) (inlined : Inlined) : Statement :=
  .deployLibrary inlined.library.identifier (inlined.code.parameters.map (variableFor known))

def statements (d : Deployer) (salted : Bool) : List Statement :=
  let known := d.identifiers
  d.libraries.map (deployment known) ++
    (if d.params.isEmpty then [] else [.encodeParams (d.params.map (·.name.text))]) ++
    [.buildInitcode (d.code.parameters.map (variableFor known)) (!d.params.isEmpty),
      .create salted d.payable]

/-! ## Source code -/

def paramText (param : Abi.Declaration) : String :=
  param.type ++ (if param.memory then " memory" else "") ++ " " ++ param.name.text

def addressText (name : String) : String := "address " ++ name

def deployFunction (d : Deployer) (salted : Bool) : Solidity.Function where
  name := if salted then "deploy2" else "deploy"
  params := d.params.map paramText ++ d.callerAddresses.map addressText ++
    (if salted then ["bytes32 salt"] else [])
  visibility := "internal"
  body := (d.statements salted).map Statement.text
  mutability := ""
  returns := "address deployed"

/-- A function that builds a bytecode. -/
def initcodeFunction (name visibility : String) (code : Segmentation) : Solidity.Function where
  name := name
  params := code.parameters.map fun parameter => addressText parameter.name
  visibility := visibility
  body := ["return " ++ initcodeExpression code.segments ++ ";"]
  mutability := "pure"
  returns := "bytes memory"

def libraryFunction (inlined : Inlined) : Solidity.Function :=
  initcodeFunction ("_" ++ inlined.library.identifier ++ "Initcode") "private" inlined.code

def structFragment (definition : String × List Abi.Field) : Solidity.Fragment :=
  .struct definition.1 (definition.2.map fun field => (field.type.text, field.name.text))

/-- The comment on how the bytecode was built, if something is known. -/
def commentFragments (d : Deployer) : List Solidity.Fragment :=
  if d.comment.isEmpty then [] else [.comment "autogenerated by forge-pack" d.comment]

def members (d : Deployer) : List Solidity.Fragment :=
  d.commentFragments ++ d.structs.map structFragment ++
    [.function (d.deployFunction false), .function (d.deployFunction true)] ++
    d.libraries.map (.function ∘ libraryFunction) ++
    [.function (initcodeFunction "initcode" "internal" d.code)]

/-- The whole file. -/
def fragment (d : Deployer) : Solidity.Fragment :=
  .library (deployerOf d.contract) (.header d.pragma [("DeployHelper", d.helperPath)] "MIT")
    d.members

/-- The source code of the file. -/
def source (d : Deployer) : String := d.fragment.render 0

/-! ## Planning -/

/-- The lines on how a contract was compiled: what is known of it. -/
def commentOf (artifact : Artifact) : List String :=
  let compiler := artifact.compiler
  let unlessBlank := fun (label : String) (value : Json) =>
    if value.isBlank then [] else [label ++ value.text]
  unlessBlank "@notice Source Contract: " artifact.source ++
    unlessBlank "- solc: " compiler.version ++
    (if compiler.optimizerRuns.isNull then []
    else ["- optimizer_runs: " ++ compiler.optimizerRuns.text]) ++
    (if compiler.viaIR.isNull then []
    else ["- viaIR: " ++ String.ofList (Text.lower compiler.viaIR.text.toList)]) ++
    unlessBlank "- evm_version: " compiler.evmVersion ++
    unlessBlank "- bytecodeHash: " compiler.bytecodeHash

def mismatchNotices (artifact : Artifact) : List Notice :=
  (mismatches artifact.bytecode artifact.links).map .mismatch

/-- The bytecode of an artifact in pieces. -/
def segmentArtifact (artifact : Artifact) : Report Segmentation :=
  ⟨mismatchNotices artifact,
    (segment artifact.bytecode artifact.links).mapError .ofMisfit⟩

/-- The names that several libraries of one bytecode share. -/
def sharedNameNotices (owner : String) (parameters : List Parameter) : List Notice :=
  let names := parameters.map Parameter.name
  (distinct names).filterMap fun name =>
    if 1 < names.count name then some (.sharedName owner name (names.count name)) else none

/-- The names of the parameters and variables of every deployer. -/
def ownNames : List String := ["salt", "args", "initcode_", "deployed"]

/-- Tell of the parameters of the constructor with names that are used
otherwise. A name that is a list or an object cannot be compared. -/
def tellClashes (contract : String) (reserved : List String) :
    List Abi.Declaration → Report Unit
  | [] => .tell []
  | param :: rest =>
    match param.name with
    | .arr _ | .obj _ => .fail .unexpectedType
    | .str name =>
      (Report.tell (if reserved.contains name then [.nameClash contract name] else [])).bind
        fun _ => tellClashes contract reserved rest
    | _ => tellClashes contract reserved rest

/-- The bytecodes of some libraries in pieces. -/
def segmentLibraries : List Resolved → Report (List Inlined)
  | [] => pure []
  | library :: rest => do
    let code ← segmentArtifact library.artifact
    let others ← segmentLibraries rest
    return ⟨library, code⟩ :: others

/-- A value, or a failure because of its type. -/
def expected {α : Type} : Option α → Report α
  | some value => pure value
  | none => .fail .unexpectedType

/-- What is told of the bytecodes of the libraries that are deployed along
when the functions for them are written. -/
def libraryNotices (libraries : List Inlined) : List Notice :=
  libraries.flatMap fun inlined =>
    mismatchNotices inlined.library.artifact ++
      sharedNameNotices inlined.library.id.name inlined.code.parameters

/-- The first thing without a bytecode: the contract or a library. -/
def withoutBytecode? (artifact : Artifact) (libraries : List Resolved) : Option Failure :=
  if !artifact.hasBytecode then some (.withoutBytecode artifact.contract)
  else (libraries.find? (!·.artifact.hasBytecode)).map (.libraryWithoutBytecode ·.key)

/-- Plan the deployer of a contract. A mismatch in the bytecode of a
library is told for each of the three functions that use it. -/
def plan (artifact : Artifact) (options : Options) : Report Deployer := do
  if let some failure := withoutBytecode? artifact options.libraries then Report.fail failure
  let constructor := artifact.constructor?
  let inputs := (constructor.map Abi.Entry.inputs).getD []
  let structs ← expected (Abi.Structs.ofParams? inputs)
  let params ← expected (Abi.Declaration.ofParams? structs.names inputs)
  let code ← segmentArtifact artifact
  Report.tell (sharedNameNotices artifact.contract code.parameters)
  let libraries := if code.parameters.isEmpty then [] else options.libraries
  tellClashes artifact.contract
    (ownNames ++ (identifiersOf libraries).values ++ code.parameters.map Parameter.name) params
  let inlined ← segmentLibraries libraries
  if params.any fun param => !param.name.isText then Report.fail .unexpectedType
  Report.tell (inlined.flatMap fun inlined => mismatchNotices inlined.library.artifact)
  Report.tell (libraryNotices inlined)
  return {
    contract := artifact.contract
    pragma := options.pragma
    helperPath := options.helperPath
    comment := if options.metadata then commentOf artifact else []
    structs, params
    payable := (constructor.map Abi.Entry.isPayable).getD false
    code
    libraries := inlined }

/-- Generate the deployer of a contract. -/
def generate (artifact : Artifact) (options : Options) : Report String := do
  return (← plan artifact options).source

end Deployer

end SolDeployer
