/-!
# Fragments of source code

Pieces of a file of source code: the head with its imports, comments,
structures, functions and the library that holds them. A fragment is a
list of lines; one that is part of another is indented.
-/

namespace SolDeployer.Solidity

/-- A function. Its parameters, results and statements are texts already. -/
structure Function where
  name : String
  params : List String
  visibility : String
  body : List String
  mutability : String
  returns : String
  deriving Repr, DecidableEq, Inhabited

/-- A piece of source code. -/
inductive Fragment where
  /-- The licence, the versions of the language, and the imports by symbol
  and path. -/
  | header (pragma : String) (imports : List (String × String)) (license : String)
  /-- A comment that documents the code after it. -/
  | comment (title : String) (entries : List String)
  /-- A structure with the types and names of its fields. -/
  | struct (name : String) (fields : List (String × String))
  | function (function : Function)
  /-- A library after its head. -/
  | library (name : String) (head : Fragment) (members : List Fragment)
  deriving Repr, Inhabited

/-- A line moved to the right, unless it is empty. -/
def indentLine (level : Nat) (line : String) : String :=
  if line == "" then line else String.ofList (List.replicate (4 * level) ' ') ++ line

/-- Lines moved to the right. -/
def indent (level : Nat) (lines : List String) : List String := lines.map (indentLine level)

/-- A line that opens a block, the block, and the line that closes it. -/
def block (opening : String) (body : List String) : List String :=
  [opening ++ " \x7b"] ++ body ++ ["\x7d"]

/-- The declaration of a function, up to its body. -/
def Function.signature (f : Function) : String :=
  "function " ++ f.name ++ "(" ++ ", ".intercalate f.params ++ ") " ++ f.visibility ++
    (if f.mutability == "" then "" else " " ++ f.mutability) ++
    (if f.returns == "" then "" else " returns (" ++ f.returns ++ ")")

def importLine (symbol path : String) : String :=
  "import \x7b" ++ symbol ++ "\x7d from \"" ++ path ++ "\";"

namespace Fragment

mutual

def lines : Fragment → List String
  | .header pragma imports license =>
    ["// SPDX-License-Identifier: " ++ license, "pragma solidity " ++ pragma ++ ";"] ++
      (if imports.isEmpty then []
      else "" :: imports.map fun (symbol, path) => importLine symbol path)
  | .comment title entries =>
    ["/**", " * @dev " ++ title, " *"] ++ entries.map (" * " ++ ·) ++ [" */"]
  | .struct name fields =>
    block ("struct " ++ name) (indent 1 (fields.map fun (type, name) => type ++ " " ++ name ++ ";"))
  | .function f => block f.signature (indent 1 f.body)
  | .library name head members =>
    lines head ++ [""] ++ block ("library " ++ name) (memberLines members)

/-- The lines of the members of a library, with an empty line between two
of them. -/
def memberLines : List Fragment → List String
  | [] => []
  | member :: rest =>
    indent 1 (lines member) ++ (if rest.isEmpty then [] else [""]) ++ memberLines rest

end

/-- The text of a fragment at a level of indentation. A library is a whole
file and ends with the end of its last line. -/
def render (fragment : Fragment) (level : Nat) : String :=
  let text := "\n".intercalate (indent level fragment.lines)
  match fragment with
  | .library .. => text ++ "\n"
  | _ => text

end Fragment

end SolDeployer.Solidity
