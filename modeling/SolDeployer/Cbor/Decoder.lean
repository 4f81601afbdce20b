import SolDeployer.Cbor.Meaning
import SolDeployer.Text.Utf8

/-!
# Decoding CBOR

An item begins with a byte that holds its kind and its size. The decoder
takes items of a known and of an open size, and refuses what is cut off,
what is reserved, text that is not text, and nesting that is too deep.

Some marks refer to items that were read before. Strings that are long
enough to be worth it are counted within a space of names, and shared
items in the whole input, so both are part of the state. A container that
is read as a value may still change when it is referred to, so it cannot
be a key; one that is read as a key, or for the meaning of a mark, is
sealed.

Every item takes a byte at least, so the number of bytes bounds the depth
of the calls; that bound is the `fuel`.
-/

namespace SolDeployer.Cbor.Decoder

-- the plain ones, whatever other instances are around
attribute [local instance(high)] instPowNat

/-- The deepest nesting of containers and marks. -/
def maxDepth : Nat := 400

/-! ## Strings and sizes -/

/-- What a step reads, and the bytes after it. -/
abbrev Step (α : Type) := Option (α × List UInt8)

/-- The size in an item's first byte or in the bytes after it. -/
inductive Size where
  | known (n : Nat)
  | unbounded

/-- So many bytes, if there are as many. -/
def take? (n : Nat) (bytes : List UInt8) : Step (List UInt8) :=
  let taken := bytes.take n
  if taken.length = n then some (taken, bytes.drop n) else none

/-- The size of an item, from the low bits of its first byte. -/
def size? (low : Nat) (bytes : List UInt8) : Step Size :=
  if low < 24 then some (.known low, bytes)
  else if low < 28 then
    (take? (2 ^ (low - 24)) bytes).map fun (taken, rest) => (.known (natOfBytes taken), rest)
  else if low = 31 then some (.unbounded, bytes)
  else none

def knownSize? (low : Nat) (bytes : List UInt8) : Step Nat :=
  match size? low bytes with
  | some (.known n, rest) => some (n, rest)
  | _ => none

def textOf? (bytes : List UInt8) : Option String := (Text.Utf8.decode? bytes).map String.ofList

/-- The chunks of a string of open size, all of one kind. -/
def chunks? (kind : Nat) : (fuel : Nat) → List UInt8 → Step (List (List UInt8))
  | 0, _ => none
  | _, [] => none
  | fuel + 1, first :: rest =>
    if first = 0xFF then some ([], rest)
    else if first.toNat / 32 ≠ kind then none
    else
      match knownSize? (first.toNat % 32) rest with
      | none => none
      | some (n, rest) =>
        match take? n rest with
        | none => none
        | some (chunk, rest) =>
          (chunks? kind fuel rest).map fun (chunks, rest) => (chunk :: chunks, rest)

/-- A string of bytes, in chunks, and its length if that is known. -/
def strings? (kind low : Nat) (rest : List UInt8) : Step (List (List UInt8) × Option Nat) :=
  match size? low rest with
  | some (.known n, rest) => (take? n rest).map fun (chunk, rest) => (([chunk], some n), rest)
  | some (.unbounded, rest) =>
    (chunks? kind (rest.length + 1) rest).map fun (chunks, rest) => ((chunks, none), rest)
  | none => none

/-! ## Simple values -/

/-- A floating point number of so many bytes. -/
def floating? (count exponentBits fractionBits : Nat) (rest : List UInt8) : Step Cbor :=
  (take? count rest).map fun (taken, rest) =>
    (.float (.ofFields exponentBits fractionBits (natOfBytes taken)), rest)

/-- A value with a kind of its own for each code. -/
def special? (low : Nat) (rest : List UInt8) : Step Cbor :=
  match low with
  | 20 => some (.bool false, rest)
  | 21 => some (.bool true, rest)
  | 22 => some (.null, rest)
  | 23 => some (.undefined, rest)
  | 24 =>
    match rest with
    | code :: rest => if code < 32 then none else some (.simple code.toNat, rest)
    | [] => none
  | 25 => floating? 2 5 10 rest
  | 26 => floating? 4 8 23 rest
  | 27 => floating? 8 11 52 rest
  | code => if code < 20 then some (.simple code, rest) else none

/-! ## Items that are referred to -/

/-- An item that was read. One that is fixed cannot change any more, so it
may be a key. -/
structure Item where
  value : Cbor
  fixed : Bool
  deriving Inhabited

/-- A shared item. -/
inductive Shared where
  /-- A part of an item that has no value before its end. -/
  | unread
  /-- A container that its parts can refer to. -/
  | growing
  | read (item : Item)

/-- The bytes that are left, the strings that are counted if they are, and
the shared items. -/
structure State where
  rest : List UInt8
  strings : Option (Array Cbor)
  shared : Array Shared

/-- How long a string has to be so that a reference to it is shorter, if so
many are counted. -/
def leastCounted (count : Nat) : Nat :=
  if count < 24 then 3
  else if count < 2 ^ (8 : Nat) then 4
  else if count < 2 ^ (16 : Nat) then 5
  else if count < 2 ^ (32 : Nat) then 7
  else 11

/-- The state after a string. One of open size is not counted. -/
def State.count (state : State) (value : Cbor) (length : Option Nat) : State :=
  match state.strings, length with
  | some strings, some length =>
    if leastCounted strings.size ≤ length then { state with strings := some (strings.push value) }
    else state
  | _, _ => state

def State.after {α : Type} (state : State) (step : Step α) : Option (α × State) :=
  step.map fun (value, rest) => (value, { state with rest })

/-- The string with a number in the current space of names. -/
def State.string? (state : State) : Cbor → Option Item
  | .int (.ofNat index) => do return ⟨← (← state.strings)[index]?, true⟩
  | _ => none

/-- The shared item with a number. A container that is not yet read can be
referred to where it need not be fixed. -/
def State.shared? (state : State) (isSealed : Bool) : Cbor → Option Item
  | .int (.ofNat index) =>
    match state.shared[index]? with
    | some (.read item) => if isSealed && !item.fixed then none else some item
    | some .growing => if isSealed then none else some ⟨.enclosing, false⟩
    | _ => none
  | _ => none

/-- Is the next item a container that can change? -/
def State.isGrowing (state : State) (isSealed : Bool) : Bool :=
  match state.rest.head? with
  | some first => !isSealed && (first.toNat / 32 == 4 || first.toNat / 32 == 5)
  | none => false

/-! ## Items -/

/-- Are items sealed that a mark stands before? A mark without a meaning of
its own leaves its item as it is. -/
def seals (tag : Nat) (isSealed : Bool) : Bool := isSealed || isKnown tag

/-- An item with a mark before it. A set is a container like any other. -/
def marked? (tag : Nat) (isSealed : Bool) (content : Item) : Option Item := do
  if tag = 258 ∧ !content.fixed then none
  let value ← meaning? tag content.value
  return ⟨value, if tag = 258 then isSealed else content.fixed || isKnown tag⟩

/-- A string of bytes or a text, counted. -/
def stringItem? (kind low : Nat) (state : State) : Option (Item × State) := do
  let ((chunks, length), state) ← state.after (strings? kind low state.rest)
  let value ←
    if kind = 2 then some (Cbor.bytes chunks.flatten)
    else (chunks.mapM textOf?).map fun texts => .text (String.join texts)
  return (⟨value, true⟩, state.count value length)

/-- How many items are due in a container of a size, if that is known, for
a container that is not too deep. An empty one has no depth. -/
def due? (depth low : Nat) (state : State) : Option (Option Nat × State) := do
  match ← state.after (size? low state.rest) with
  | (.known 0, state) => return (some 0, state)
  | (.known n, state) => if maxDepth < depth then none else return (some n, state)
  | (.unbounded, state) => if maxDepth < depth then none else return (none, state)

/-- The state after the end of a container, if this is it. -/
def end? (due : Option Nat) (state : State) : Option State :=
  match due with
  | some 0 => some state
  | some _ => none
  | none =>
    match state.rest with
    | 0xFF :: rest => some { state with rest }
    | _ => none

mutual

/-- An item, at a depth of nesting. -/
def item? : (fuel depth : Nat) → (isSealed : Bool) → State → Option (Item × State)
  | 0, _, _, _ => none
  | fuel + 1, depth, isSealed, state =>
    match state.rest with
    | [] => none
    | first :: rest => do
      let low := first.toNat % 32
      let state := { state with rest }
      match first.toNat / 32 with
      | 0 =>
        let (n, state) ← state.after (knownSize? low state.rest)
        return (⟨.int n, true⟩, state)
      | 1 =>
        let (n, state) ← state.after (knownSize? low state.rest)
        return (⟨.int (-1 - (n : Int)), true⟩, state)
      | 2 => stringItem? 2 low state
      | 3 => stringItem? 3 low state
      | 4 =>
        let (due, state) ← due? depth low state
        let (items, state) ← items? fuel depth isSealed due [] state
        return (⟨.array (items.map Item.value), isSealed && items.all Item.fixed⟩, state)
      | 5 =>
        let (due, state) ← due? depth low state
        let (entries, state) ← entries? fuel depth isSealed due [] state
        return (⟨.map (Entries.ofList (entries.map fun (key, item) => (key, item.value))),
          isSealed && entries.all fun (_, item) => item.fixed⟩, state)
      | 6 =>
        let (tag, state) ← state.after (knownSize? low state.rest)
        if maxDepth < depth then none
        else tagged? fuel depth isSealed tag state
      | _ =>
        let (value, state) ← state.after (special? low state.rest)
        return (⟨value, true⟩, state)

/-- An item after a mark. -/
def tagged? : (fuel depth : Nat) → (isSealed : Bool) → (tag : Nat) → State → Option (Item × State)
  | 0, _, _, _, _ => none
  | fuel + 1, depth, isSealed, tag, state => do
    match tag with
    | 25 =>
      let (index, state) ← item? fuel (depth + 1) true state
      return (← state.string? index.value, state)
    | 28 =>
      let index := state.shared.size
      let entry := if state.isGrowing isSealed then Shared.growing else .unread
      let (item, state) ← item? fuel (depth + 1) isSealed
        { state with shared := state.shared.push entry }
      return (item, { state with shared := state.shared.setIfInBounds index (.read item) })
    | 29 =>
      let (index, state) ← item? fuel (depth + 1) true state
      return (← state.shared? isSealed index.value, state)
    | 256 =>
      let (item, after) ← item? fuel (depth + 1) isSealed { state with strings := some #[] }
      return (item, { after with strings := state.strings })
    | tag =>
      let (content, state) ← item? fuel (depth + 1) (seals tag isSealed) state
      return (← marked? tag isSealed content, state)

/-- The items of an array from the next one on, as many as are due or up
to the stop byte, onto those read so far in reverse. -/
def items? : (fuel depth : Nat) → (isSealed : Bool) → (due : Option Nat) → List Item → State →
    Option (List Item × State)
  | 0, _, _, _, _, _ => none
  | fuel + 1, depth, isSealed, due, done, state =>
    match end? due state with
    | some state => some (done.reverse, state)
    | none =>
      match item? fuel (depth + 1) isSealed state with
      | none => none
      | some (item, state) => items? fuel depth isSealed (due.map (· - 1)) (item :: done) state

/-- The entries of a map from the next one on, as many as are due or up to
the stop byte, onto those read so far in reverse. -/
def entries? : (fuel depth : Nat) → (isSealed : Bool) → (due : Option Nat) → List (Cbor × Item) →
    State → Option (List (Cbor × Item) × State)
  | 0, _, _, _, _, _ => none
  | fuel + 1, depth, isSealed, due, done, state =>
    match end? due state with
    | some state => some (done.reverse, state)
    | none =>
      match item? fuel (depth + 1) true state with
      | none => none
      | some (key, state) =>
        if !key.fixed then none
        else
          match item? fuel (depth + 1) isSealed state with
          | none => none
          | some (item, state) =>
            entries? fuel depth isSealed (due.map (· - 1)) ((key.value, item) :: done) state

end

end Decoder

/-- The map in some bytes, if their first item is one that stands for
itself. -/
def decodeMap? (bytes : List UInt8) : Option Map :=
  match Decoder.item? (3 * bytes.length + 2) 1 false ⟨bytes, none, #[]⟩ with
  | some (⟨.map entries, false⟩, _) => some entries
  | _ => none

end SolDeployer.Cbor
