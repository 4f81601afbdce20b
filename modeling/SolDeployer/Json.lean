import SolDeployer.Binary64.Shortest
import SolDeployer.Entries
import SolDeployer.Text.Printable

/-!
# Documents

The values of a document: the type, how a value is looked up, when it
counts as blank, and how it is shown in a message. Build tools disagree
on the types of many fields, so what they wrote is kept as it was found
and shown as it is.
-/

namespace SolDeployer

/-- A value of a document. The fields of an object are in order of first
appearance and their names are distinct. -/
inductive Json where
  | null
  | bool (value : Bool)
  | int (value : Int)
  | float (value : Binary64)
  | str (value : String)
  | arr (items : List Json)
  | obj (fields : List (String × Json))
  deriving Inhabited, Repr

namespace Json

/-- The fields of an object. -/
abbrev Fields := Entries String Json

/-- The value of a field, null if there is none. -/
def Fields.getD (fields : Fields) (key : String) : Json := (Entries.get? fields key).getD .null

def isNull : Json → Bool
  | .null => true
  | _ => false

def isObject : Json → Bool
  | .obj _ => true
  | _ => false

def isText : Json → Bool
  | .str _ => true
  | _ => false

/-- Is the value this text? -/
def is (value : Json) (text : String) : Bool :=
  match value with
  | .str other => other == text
  | _ => false

/-- Is there nothing in the value: null, false, a zero, or an empty text,
list or object? -/
def isBlank : Json → Bool
  | .null => true
  | .bool value => !value
  | .int value => value == 0
  | .float value => value.isZero
  | .str value => value == ""
  | .arr items => items.isEmpty
  | .obj fields => fields.isEmpty

/-- The value, or another one if it is blank. -/
def orElse (value other : Json) : Json := if value.isBlank then other else value

/-! ## Text -/

mutual

/-- A value inside another one: texts are quoted. -/
def literal : Json → List Char
  | .null => ['N', 'o', 'n', 'e']
  | .bool true => ['T', 'r', 'u', 'e']
  | .bool false => ['F', 'a', 'l', 's', 'e']
  | .int value => (toString value).toList
  | .float value => value.text
  | .str value => Text.quoted value.toList
  | .arr items => '[' :: literalItems items ++ [']']
  | .obj fields => Char.ofNat 123 :: literalFields fields ++ [Char.ofNat 125]

/-- The items of a list, with a comma between two. -/
def literalItems : List Json → List Char
  | [] => []
  | item :: rest =>
    literal item ++ (if rest.isEmpty then [] else [',', ' ']) ++ literalItems rest

/-- The fields of an object, with a comma between two. -/
def literalFields : List (String × Json) → List Char
  | [] => []
  | (key, value) :: rest =>
    Text.quoted key.toList ++ [':', ' '] ++ literal value ++
      (if rest.isEmpty then [] else [',', ' ']) ++ literalFields rest

end

/-- A value on its own: a text is shown as it is. -/
def text : Json → String
  | .str value => value
  | value => String.ofList value.literal

end Json

end SolDeployer
