/-!
# Keccak-256

The hash that Ethereum uses for addresses and placeholders: the sponge
over the permutation of 25 lanes of 64 bits, with a rate of 136 bytes and
the padding of the first proposal. A lane of every step is given by
its index, so that no step writes out of place.
-/

namespace SolDeployer.Keccak

/-- The 25 lanes; lane `x + 5 * y` stands in column `x` and row `y`. -/
abbrev Lanes := Vector UInt64 25

/-- How far each lane turns. -/
def turns : Vector UInt64 25 :=
  #v[0, 1, 62, 28, 27, 36, 44, 6, 55, 20, 3, 10, 43, 25, 39, 41, 45, 15, 21, 8, 18, 2, 61, 56, 14]

/-- What each round adds to the first lane. -/
def roundConstants : List UInt64 :=
  [0x0000000000000001, 0x0000000000008082, 0x800000000000808A, 0x8000000080008000,
    0x000000000000808B, 0x0000000080000001, 0x8000000080008081, 0x8000000000008009,
    0x000000000000008A, 0x0000000000000088, 0x0000000080008009, 0x000000008000000A,
    0x000000008000808B, 0x800000000000008B, 0x8000000000008089, 0x8000000000008003,
    0x8000000000008002, 0x8000000000000080, 0x000000000000800A, 0x800000008000000A,
    0x8000000080008081, 0x8000000000008080, 0x0000000080000001, 0x8000000080008008]

def turnLeft (lane n : UInt64) : UInt64 :=
  if n = 0 then lane else (lane <<< n) ||| (lane >>> (64 - n))

/-- The lane in a column and a row, both counted around. -/
def laneAt (a : Lanes) (x y : Nat) : UInt64 :=
  have : x % 5 + 5 * (y % 5) < 25 := by omega
  a[x % 5 + 5 * (y % 5)]

/-- Mix each lane with the parities of two columns. -/
def theta (a : Lanes) : Lanes :=
  let parity : Vector UInt64 5 :=
    Vector.ofFn fun x =>
      laneAt a x 0 ^^^ laneAt a x 1 ^^^ laneAt a x 2 ^^^ laneAt a x 3 ^^^ laneAt a x 4
  let effect : Vector UInt64 5 :=
    Vector.ofFn fun x =>
      have : (x.val + 4) % 5 < 5 := by omega
      have : (x.val + 1) % 5 < 5 := by omega
      parity[(x.val + 4) % 5] ^^^ turnLeft parity[(x.val + 1) % 5] 1
  Vector.ofFn fun i =>
    have : i.val % 5 < 5 := by omega
    a[i] ^^^ effect[i.val % 5]

/-- Turn the lanes and move them. -/
def rhoPi (a : Lanes) : Lanes :=
  Vector.ofFn fun i =>
    let x := i.val % 5
    let y := i.val / 5
    let source := (x + 3 * y) % 5 + 5 * x
    have : source < 25 := by omega
    turnLeft a[source] turns[source]

/-- Mix each lane with the next two of its row. -/
def chi (a : Lanes) : Lanes :=
  Vector.ofFn fun i =>
    let x := i.val % 5
    let y := i.val / 5
    laneAt a x y ^^^ (~~~ laneAt a (x + 1) y &&& laneAt a (x + 2) y)

def round (a : Lanes) (constant : UInt64) : Lanes :=
  let mixed := chi (rhoPi (theta a))
  mixed.set 0 (mixed[0] ^^^ constant)

def permute (a : Lanes) : Lanes := roundConstants.foldl round a

/-- Bytes in a block. -/
def rate : Nat := 136

/-- The number that eight bytes stand for, the lowest first. -/
def laneOf (bytes : List UInt8) : UInt64 :=
  bytes.foldr (fun b lane => (lane <<< 8) ||| b.toUInt64) 0

/-- The bytes of a lane, the lowest first. -/
def bytesOf (lane : UInt64) : List UInt8 :=
  (List.range 8).map fun i => (lane >>> (8 * i).toUInt64).toUInt8

def addBlock (a : Lanes) (block : List UInt8) : Lanes :=
  Vector.ofFn fun i => a[i] ^^^ laneOf ((block.drop (8 * i.val)).take 8)

/-- Take in the first `count` blocks of some bytes. -/
def absorb : (count : Nat) → Lanes → List UInt8 → Lanes
  | 0, a, _ => a
  | count + 1, a, bytes => absorb count (permute (addBlock a (bytes.take rate))) (bytes.drop rate)

/-- A message filled up to whole blocks: a first bit, zeros, a last bit. -/
def pad (message : List UInt8) : List UInt8 :=
  match rate - 1 - message.length % rate with
  | 0 => message ++ [0x81]
  | gap + 1 => message ++ 0x01 :: List.replicate gap 0 ++ [0x80]

/-- The hash of a message: 32 bytes. -/
def hash (message : List UInt8) : List UInt8 :=
  let lanes := absorb (message.length / rate + 1) (Vector.replicate 25 0) (pad message)
  bytesOf lanes[0] ++ bytesOf lanes[1] ++ bytesOf lanes[2] ++ bytesOf lanes[3]

end SolDeployer.Keccak
