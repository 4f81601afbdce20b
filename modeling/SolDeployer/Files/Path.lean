/-!
# Paths

The text of a path as the parts between slashes. Empty parts and single
points mean nothing and are left out; two points are kept, since what
they mean depends on the disk.
-/

namespace SolDeployer.Files

-- the plain ones, whatever other instances are around
attribute [local instance(high)] List.instLE List.decidableLE

/-- The parts of a text between slashes. -/
def splitSlashes : List Char → List (List Char)
  | [] => [[]]
  | c :: rest =>
    if c = '/' then [] :: splitSlashes rest
    else
      match splitSlashes rest with
      | [] => [[c]]
      | part :: parts => (c :: part) :: parts

/-- The names in the text of a path, also the empty ones. -/
def namesOf (text : String) : List String := (splitSlashes text.toList).map String.ofList

/-- Does the text of a path begin at the root? -/
def isAbsolute (text : String) : Bool := text.toList.head? == some '/'

/-- A path. The root is empty for a path that does not begin there; two
slashes at the start of a text are a root of their own. -/
structure Path where
  root : String
  parts : List String
  deriving Repr, DecidableEq, Inhabited

namespace Path

def ofText (text : String) : Path :=
  let slashes := (text.toList.takeWhile (· = '/')).length
  { root := if slashes = 0 then "" else if slashes = 2 then "//" else "/"
    parts := (namesOf text).filter fun name => name != "" && name != "." }

def text (path : Path) : String :=
  if path.root == "" && path.parts.isEmpty then "." else path.root ++ "/".intercalate path.parts

/-- A path that goes on from another one, unless it begins at the root. -/
def join (base path : Path) : Path :=
  if path.root == "" then ⟨base.root, base.parts ++ path.parts⟩ else path

/-- The path of something in a directory. -/
def child (path : Path) (name : String) : Path := ⟨path.root, path.parts ++ [name]⟩

/-- The last part of a path, empty if there is none. -/
def name (path : Path) : String := path.parts.getLast?.getD ""

/-- The path of the directory of something. -/
def parent (path : Path) : Path := ⟨path.root, path.parts.dropLast⟩

/-- The directories around something, the nearest one first. -/
def parents (path : Path) : List Path :=
  (List.range path.parts.length).map fun count =>
    ⟨path.root, path.parts.take (path.parts.length - 1 - count)⟩

/-- May a path stand before another one, compared part by part? -/
def before (a b : Path) : Bool := decide (a.parts ≤ b.parts)

end Path

end SolDeployer.Files
