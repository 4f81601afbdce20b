/-!
# Entries in order of first appearance

A finite map whose entries keep the order in which their keys first
appeared: a later value for a known key takes the place of the earlier
one. Documents, caches and reports are all kept this way, because their
order is seen by the reader.
-/

namespace SolDeployer

/-- Pairs of a key and a value, in order of first appearance. -/
abbrev Entries (κ α : Type) := List (κ × α)

namespace Entries

variable {κ α : Type} [BEq κ]

def get? (entries : Entries κ α) (key : κ) : Option α :=
  match entries with
  | [] => none
  | (k, value) :: rest => if k == key then some value else get? rest key

def contains (entries : Entries κ α) (key : κ) : Bool := (entries.get? key).isSome

/-- Give a key a value, in place if the key is known and at the end
otherwise. -/
def insert (entries : Entries κ α) (key : κ) (value : α) : Entries κ α :=
  match entries with
  | [] => [(key, value)]
  | (k, old) :: rest => if k == key then (k, value) :: rest else (k, old) :: insert rest key value

/-- The entries of a list of pairs: the last value of a repeated key, at
the place of the first. -/
def ofList (pairs : List (κ × α)) : Entries κ α :=
  pairs.foldl (fun entries (key, value) => entries.insert key value) []

def keys (entries : Entries κ α) : List κ := entries.map Prod.fst

/-- The values in order of their keys. -/
def values (entries : Entries κ α) : List α := entries.map Prod.snd

end Entries

end SolDeployer
