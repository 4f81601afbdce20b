import SolDeployer.Links
import SolDeployer.Sorting
import SolDeployer.Text.Integer

/-!
# Segments of a bytecode

A bytecode with slots is cut into pieces: digits that are there already,
and addresses that are still to come. The slots are taken by position;
the first one that does not fit ends the cutting. A placeholder in a slot
is compared with that of the library, which a library whose name has no
bytes does not have; that ends the cutting too.
-/

namespace SolDeployer

/-- A piece of a bytecode: digits, or the variable with the address that
belongs there. -/
inductive Segment where
  | hex (digits : List Char)
  | address (name : String)
  deriving Repr, DecidableEq, Inhabited

/-- A library whose address a bytecode needs, and the variable for it. -/
structure Parameter where
  name : String
  library : LibraryId
  deriving Repr, DecidableEq, Inhabited

/-- Why a bytecode is not cut at a slot. -/
inductive Misfit where
  /-- The slot is not in the bytecode. -/
  | outside (placement : Placement)
  /-- The slot begins in the one before it. -/
  | overlaps (placement : Placement)
  /-- The slot holds a placeholder, and there is none for its library. -/
  | nameless (placement : Placement)
  deriving Repr, DecidableEq

namespace Misfit

/-- What is wrong with the slot, if all numbers in it can be written. -/
def message? : Misfit → Option String
  | .outside placement => do
    let start ← Text.decimal? placement.slot.start
    let length ← Text.decimal? placement.slot.length
    return "Link reference of " ++ placement.library.key ++ " at byte " ++ start ++
      " (length " ++ length ++ ") is outside the bytecode"
  | .overlaps placement => do
    let start ← Text.decimal? placement.slot.start
    return "Link reference of " ++ placement.library.key ++ " at byte " ++ start ++
      " overlaps the previous one"
  | .nameless _ => none

end Misfit

/-- A slot that holds the placeholder of another library. -/
structure Mismatch where
  placement : Placement
  found : List Char
  deriving Repr, DecidableEq

namespace Mismatch

/-- What the slot holds and what it should hold. -/
def message (mismatch : Mismatch) : String :=
  "Slot at byte " ++ toString mismatch.placement.slot.start ++ " holds " ++
    String.ofList mismatch.found ++ ", expected " ++
    String.ofList mismatch.placement.library.placeholder ++ " for " ++
    mismatch.placement.library.key

end Mismatch

namespace Placement

/-- Does the slot hold a placeholder, of whatever library? -/
def holdsPlaceholder (bytecode : List Char) (placement : Placement) : Bool :=
  "__$".toList.isPrefixOf (placement.slot.read bytecode)

/-- What is wrong with a slot in a bytecode whose earlier slots end at a
character. -/
def misfit? (bytecode : List Char) (cursor : Int) (placement : Placement) : Option Misfit :=
  let slot := placement.slot
  if slot.start < 0 ∨ slot.length ≤ 0 ∨ bytecode.length < slot.endChar then
    some (.outside placement)
  else if slot.firstChar < cursor then some (.overlaps placement)
  else if placement.holdsPlaceholder bytecode && !placement.library.hasBytes then
    some (.nameless placement)
  else none

/-- The mismatch in a slot, if it holds a placeholder and not the one of
its library. -/
def mismatch? (bytecode : List Char) (placement : Placement) : Option Mismatch :=
  let found := placement.slot.read bytecode
  if placement.holdsPlaceholder bytecode && found != placement.library.placeholder then
    some ⟨placement, found⟩
  else none

end Placement

namespace LinkReferences

def byPosition (links : LinkReferences) : List Placement :=
  sortBy (fun a b => decide (a.slot.start ≤ b.slot.start)) links.placements

end LinkReferences

/-- The slots before the first that does not fit, and what is wrong with
that one. -/
def fitting (bytecode : List Char) :
    (cursor : Int) → List Placement → List Placement × Option Misfit
  | _, [] => ([], none)
  | cursor, placement :: rest =>
    match placement.misfit? bytecode cursor with
    | some misfit => ([], some misfit)
    | none =>
      let (accepted, misfit) := fitting bytecode placement.slot.endChar rest
      (placement :: accepted, misfit)

/-- The libraries in order of first use, one for each key. -/
def parametersOf : List Placement → List Parameter
  | [] => []
  | placement :: rest =>
    ⟨placement.library.identifier, placement.library⟩ ::
      (parametersOf rest).filter fun other => other.library.key != placement.library.key

def nameIn (parameters : List Parameter) (library : LibraryId) : String :=
  match parameters.find? fun parameter => parameter.library.key == library.key with
  | some parameter => parameter.name
  | none => library.identifier

/-- Some digits as a segment, none if there are no digits. -/
def digitSegment (digits : List Char) : List Segment :=
  if digits.isEmpty then [] else [.hex digits]

/-- Cut what is left of a bytecode after a character at its slots. -/
def cut (parameters : List Parameter) :
    (cursor : Int) → List Char → List Placement → List Segment
  | _, left, [] => digitSegment left
  | cursor, left, placement :: rest =>
    digitSegment (left.take (placement.slot.firstChar - cursor).toNat) ++
      .address (nameIn parameters placement.library) ::
      cut parameters placement.slot.endChar (left.drop (placement.slot.endChar - cursor).toNat) rest

/-- A bytecode in pieces, and the libraries whose addresses it needs in
order of first use. -/
structure Segmentation where
  segments : List Segment
  parameters : List Parameter
  deriving Repr, DecidableEq

/-- Cut a bytecode at its slots. Without slots it is one piece. -/
def segment (bytecode : List Char) (links : LinkReferences) : Except Misfit Segmentation :=
  match links.byPosition with
  | [] => .ok ⟨[.hex bytecode], []⟩
  | placements =>
    match fitting bytecode 0 placements with
    | (_, some misfit) => .error misfit
    | (_, none) =>
      let parameters := parametersOf placements
      .ok ⟨cut parameters 0 bytecode placements, parameters⟩

/-- The mismatches in a bytecode, up to the first slot that does not fit. -/
def mismatches (bytecode : List Char) (links : LinkReferences) : List Mismatch :=
  (fitting bytecode 0 links.byPosition).1.filterMap fun placement =>
    placement.mismatch? bytecode

end SolDeployer
