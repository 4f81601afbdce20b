import SolDeployer.Abi
import SolDeployer.Abi.TypeText

/-!
# Declarations for parameters

How the parameters of a constructor are declared in generated code. An
interface gives each parameter its type for calls and, since some
version of the compiler, the type in the source. Of the latter the code
can use what is built in and the structures, which are declared again
beside it; a contract becomes an address, and an enumeration or a type
with a name of its own becomes what it stands for.

A type that is not a text where a text is needed is a `none`.
-/

namespace SolDeployer.Abi

open TypeText

/-! ## Types -/

def textOf? : Json → Option (List Char)
  | .str text => some text.toList
  | _ => none

namespace Param

/-- The type of a parameter whose type in the source is known. -/
def sourceType? (type : Json) (source : List Char) : Option Json :=
  if startsWith "contract " source then
    (textOf? type).map fun text => .str (String.ofList ("address".toList ++ text.drop 7))
  else if startsWith "enum " source then some type
  else if startsWith "struct " source then
    (textOf? type).map fun text =>
      .str (String.ofList (structName source ++ (after? "tuple".toList text).getD text))
  else if isElementary source then some (.str (String.ofList source))
  else some type

def solidityType? (param : Param) : Option Json :=
  if param.internalType.isBlank then some param.type
  else (textOf? param.internalType).bind (sourceType? param.type)

/-- The name of a parameter, one made from its place if it has none. -/
def nameAt (stem : String) (param : Param) (index : Nat) : Json :=
  param.name.orElse (.str (stem ++ toString index))

end Param

/-! ## Structures -/

/-- A field of a structure. -/
structure Field where
  type : Json
  name : Json
  deriving Inhabited, Repr

/-- Structures by name, each after those of its fields. -/
abbrev Structs := Entries String (List Field)

namespace Structs

/-- The fields made from components, from a place on. -/
def fieldsFrom? : (index : Nat) → List Param → Option (List Field)
  | _, [] => some []
  | index, component :: rest =>
    match component.solidityType? with
    | none => none
    | some type =>
      (fieldsFrom? (index + 1) rest).map (⟨type, component.nameAt "field" index⟩ :: ·)

mutual

/-- The structures found so far and those of a parameter. -/
def addParam? (seen : Structs) : Param → Option Structs
  | ⟨_, _, internalType, _, components⟩ =>
    match textOf? (internalType.orElse (.str "")), components with
    | none, _ => none
    | some _, none => some seen
    | some source, some components =>
      let name := String.ofList (structName source)
      if !startsWith "struct " source || seen.contains name then some seen
      else
        match addParams? seen components with
        | none => none
        | some seen => (fieldsFrom? 0 components).map fun fields => seen.insert name fields

/-- The structures found so far and those of some parameters. -/
def addParams? (seen : Structs) : List Param → Option Structs
  | [] => some seen
  | param :: rest =>
    match addParam? seen param with
    | none => none
    | some seen => addParams? seen rest

end

def ofParams? (params : List Param) : Option Structs := addParams? [] params

def names (structs : Structs) : List String := Entries.keys structs

end Structs

/-! ## Parameters -/

/-- A parameter as it is declared: `memory` if it needs a data location. -/
structure Declaration where
  type : String
  name : Json
  memory : Bool
  deriving Inhabited, Repr

namespace Declaration

/-- The declarations of some parameters, from a place on. -/
def listFrom? (structs : List String) : (index : Nat) → List Param → Option (List Declaration)
  | _, [] => some []
  | index, param :: rest =>
    match param.solidityType?.bind textOf? with
    | none => none
    | some type =>
      (listFrom? structs (index + 1) rest).map fun declarations =>
        { type := String.ofList type
          name := param.nameAt "arg" index
          memory := needsMemory type || isStruct structs type } :: declarations

def ofParams? (structs : List String) (params : List Param) : Option (List Declaration) :=
  listFrom? structs 0 params

end Declaration

end SolDeployer.Abi
