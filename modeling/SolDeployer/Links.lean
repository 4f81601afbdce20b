import SolDeployer.Entries
import SolDeployer.Library

/-!
# Link references

Where the addresses of libraries go in a bytecode. A build tool lists the
places by file and by library; the code wants them by position. Offsets
count bytes, and a byte is two characters of the bytecode. What the tool
wrote is not trusted: offsets may be negative, and places may overlap.
-/

namespace SolDeployer

/-- A place in a bytecode, in bytes. -/
structure Slot where
  start : Int
  length : Int
  deriving Repr, DecidableEq, Inhabited

namespace Slot

def firstChar (slot : Slot) : Int := 2 * slot.start

/-- The first character after the place. -/
def endChar (slot : Slot) : Int := 2 * (slot.start + slot.length)

/-- Is the character with this index in the place? -/
def covers (slot : Slot) (index : Nat) : Bool :=
  decide (slot.firstChar ≤ index) && decide ((index : Int) < slot.endChar)

def read (slot : Slot) (bytecode : List Char) : List Char :=
  (bytecode.drop slot.firstChar.toNat).take (slot.endChar - slot.firstChar).toNat

/-- The characters with zeros in the part of the place that lies within
them. -/
def mask (slot : Slot) (chars : List Char) : List Char :=
  let first := max slot.firstChar 0
  let last := min slot.endChar chars.length
  if first < last then
    chars.take first.toNat ++ List.replicate (last - first).toNat '0' ++ chars.drop last.toNat
  else chars

end Slot

/-- The slots of every library, by declaring file and library name. -/
abbrev LinkReferences := Entries String (Entries String (List Slot))

/-- A slot and the library whose address belongs there. -/
structure Placement where
  slot : Slot
  library : LibraryId
  deriving Repr, DecidableEq, Inhabited

namespace LinkReferences

/-- The libraries in the order in which they are listed. -/
def libraryIds (links : LinkReferences) : List LibraryId :=
  links.flatMap fun (file, libraries) => libraries.map fun (name, _) => ⟨file, name⟩

/-- All slots in the order in which they are listed. -/
def placements (links : LinkReferences) : List Placement :=
  links.flatMap fun (file, libraries) =>
    libraries.flatMap fun (name, slots) => slots.map fun slot => ⟨slot, ⟨file, name⟩⟩

/-- Is the character with this index in one of the slots? -/
def covers (links : LinkReferences) (index : Nat) : Bool :=
  links.placements.any fun placement => placement.slot.covers index

/-- The characters with zeros in all slots, one slot after another. -/
def mask (links : LinkReferences) (chars : List Char) : List Char :=
  links.placements.foldl (fun chars placement => placement.slot.mask chars) chars

end LinkReferences

end SolDeployer
