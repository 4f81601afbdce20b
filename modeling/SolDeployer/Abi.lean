import SolDeployer.Json

/-!
# Interfaces of contracts

The parameters and the entries of a contract's interface. A build tool
writes the interface as a document; names and types are kept as they are
found there, and only what makes the tree of components unreadable is
refused: a value that is not what it should be, and too many levels.
-/

namespace SolDeployer.Abi

/-! ## Parameters -/

/-- A parameter, or a component of one. `none` as components is an
elementary parameter, an empty list a structure without fields. -/
structure Param where
  name : Json
  type : Json
  internalType : Json
  indexed : Json
  components : Option (List Param)
  deriving Inhabited, Repr

/-- Why an interface cannot be read. -/
inductive ReadError where
  /-- A value has a type that its place does not allow. -/
  | unexpected
  /-- Too many parameters are inside one another. -/
  | tooDeep
  deriving Repr, DecidableEq

/-- What is in a value, one after another: items, characters or names. -/
def elements : Json → Except ReadError (List Json)
  | .arr items => .ok items
  | .str text => .ok (text.toList.map fun c => .str (String.ofList [c]))
  | .obj fields => .ok (fields.map fun (key, _) => .str key)
  | _ => .error .unexpected

namespace Param

/-- The parameter that a document describes. With its components it may take
so many levels. -/
def ofJson : (levels : Nat) → Json → Except ReadError Param
  | 0, _ => .error .tooDeep
  | levels + 1, .obj fields => do
    let components ← match Json.Fields.getD fields "components" with
      | .null => .ok none
      | value => (elements value >>= List.mapM (ofJson levels)).map some
    let name := Json.Fields.getD fields "name"
    return {
      name := name.orElse (.str "")
      type := (Entries.get? fields "type").getD (.str "")
      internalType := Json.Fields.getD fields "internalType"
      indexed := (Entries.get? fields "indexed").getD (.bool false)
      components }
  | _ + 1, _ => .error .unexpected

/-- The parameters that a value describes. -/
def listOf (levels : Nat) (value : Json) : Except ReadError (List Param) :=
  elements value >>= List.mapM (ofJson levels)

/-- About as many levels as there usually are. -/
def usualLevels : Nat := 330

/-- The parameters that some items describe, if they can be read. -/
def ofItems? (items : List Json) : Option (List Param) :=
  (items.mapM (ofJson usualLevels)).toOption

end Param

/-! ## Entries -/

/-- A constructor, a function, an event or an error. -/
structure Entry where
  type : Json
  name : Json
  inputs : List Param
  outputs : List Param
  stateMutability : Json
  deriving Inhabited, Repr

namespace Entry

/-- The entry that the fields of an object describe. Old compilers say
only whether an entry is payable. -/
def ofFields (levels : Nat) (fields : Json.Fields) : Except ReadError Entry := do
  let inputs ← Param.listOf levels ((fields.get? "inputs").getD (.arr []))
  let outputs ← Param.listOf levels ((fields.get? "outputs").getD (.arr []))
  let mutability := fields.getD "stateMutability"
  return {
    type := (fields.get? "type").getD (.str "function")
    name := fields.getD "name"
    inputs, outputs
    stateMutability :=
      if mutability.isNull && !(fields.getD "payable").isBlank then .str "payable" else mutability }

/-- Does the entry accept ether? -/
def isPayable (entry : Entry) : Bool := entry.stateMutability.is "payable"

def isConstructor (entry : Entry) : Bool := entry.type.is "constructor"

end Entry

end SolDeployer.Abi
