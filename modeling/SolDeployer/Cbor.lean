import SolDeployer.Cbor.Number
import SolDeployer.Entries

/-!
# CBOR values

The values of the binary format in which the compiler appends facts about
a build to its code. Two keys of a map are one key if they are equal as
numbers or in all their parts. A value with a mark has one form for each
meaning, so that values that mean the same are equal.
-/

namespace SolDeployer

/-- A value. The entries of a map are in order of first appearance, and
the items of a set are distinct. -/
inductive Cbor where
  | int (value : Int)
  | bytes (value : List UInt8)
  | text (value : String)
  | array (items : List Cbor)
  | map (entries : List (Cbor × Cbor))
  | set (items : List Cbor)
  | bool (value : Bool)
  | null
  | undefined
  | float (value : Binary64)
  | decimal (value : Cbor.Decimal)
  | ratio (num den : Int)
  | complex (re im : Binary64)
  | simple (code : Nat)
  | tagged (tag : Nat) (content : Cbor)
  /-- A message of the electronic mail, which is equal to no other. -/
  | message
  /-- A container that is being read, seen from inside. -/
  | enclosing
  deriving Inhabited, Repr

namespace Cbor

/-- The integer that a value is. A truth value counts as one. -/
def int? : Cbor → Option Int
  | .int value => some value
  | .bool value => some (if value then 1 else 0)
  | _ => none

/-- The number that a value is equal to. -/
def number? : Cbor → Option Number
  | .int value => some (.ofInt value)
  | .bool value => some (.ofInt (if value then 1 else 0))
  | .float value => some (.ofBinary64 value)
  | .decimal value => some (.ofDecimal value)
  | .ratio num den => some (.ofRatio num den)
  | .complex re im => if im.isZero then some (.ofBinary64 re) else none
  | _ => none

/-- Are two values equal as numbers? -/
def sameNumber (a b : Cbor) : Bool :=
  match number? b with
  | none => false
  | some n =>
    match number? a with
    | none => false
    | some m => m.same n

/-- Are two floating point numbers equal? -/
def sameFloat (a b : Binary64) : Bool := (Number.ofBinary64 a).same (.ofBinary64 b)

mutual

def sameKey : Cbor → Cbor → Bool
  | .int a, .int b => a == b
  | .bytes a, .bytes b => a == b
  | .text a, .text b => a == b
  | .array a, .array b => sameItems a b
  | .map a, .map b => a.length == b.length && entriesWithin a b
  | .set a, .set b => a.length == b.length && itemsWithin a b
  | .null, .null => true
  | .undefined, .undefined => true
  | .simple a, .simple b => a == b
  | .simple a, b => int? b == some (a : Int)
  | a, .simple b => int? a == some (b : Int)
  | .tagged s a, .tagged t b => s == t && sameKey a b
  | .complex r i, .complex s j => sameFloat r s && sameFloat i j
  | a, b => sameNumber a b

/-- Are all items of two lists the same, one by one? -/
def sameItems : List Cbor → List Cbor → Bool
  | [], [] => true
  | a :: as, b :: bs => sameKey a b && sameItems as bs
  | _, _ => false

/-- Does the second list have every item of the first? -/
def itemsWithin : List Cbor → List Cbor → Bool
  | [], _ => true
  | a :: rest, others => others.any (fun b => sameKey a b) && itemsWithin rest others

/-- Does the second map have every entry of the first? -/
def entriesWithin : List (Cbor × Cbor) → List (Cbor × Cbor) → Bool
  | [], _ => true
  | (key, value) :: rest, others =>
    others.any (fun (k, v) => sameKey key k && sameKey value v) && entriesWithin rest others

end

/-- Keys are compared as the keys of a map. -/
instance : BEq Cbor := ⟨sameKey⟩

/-- The entries of a map. -/
abbrev Map := Entries Cbor Cbor

end Cbor

end SolDeployer
