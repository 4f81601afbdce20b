import SolDeployer.Segmentation

/-!
# Expressions for bytecodes

The expression of generated code that builds a bytecode from its pieces:
literals for the digits and variables for the addresses.
-/

namespace SolDeployer

def hexLiteral (digits : List Char) : String := "hex\"" ++ String.ofList digits ++ "\""

/-- The text of a piece of a bytecode. -/
def Segment.expression : Segment → String
  | .hex digits => hexLiteral digits
  | .address name => name

/-- The expression that builds a bytecode: a single literal, or its pieces
packed together. -/
def initcodeExpression : List Segment → String
  | [.hex digits] => hexLiteral digits
  | segments => "abi.encodePacked(" ++ ", ".intercalate (segments.map Segment.expression) ++ ")"

end SolDeployer
