import SolDeployer.Keccak

/-!
# The permutation on lists

The lanes of the hash are a vector, so that no step writes out of place.
The kernel is slow to compute with such vectors. Here are the same steps
on plain lists, one lemma for each (`toList_theta`, `toList_rhoPi`,
`toList_chi`), and the hash of a message by them (`hash_eq_hashByLists`):
that is how the hash of a given message is found in a proof.
-/

namespace SolDeployer.Keccak

/-! ## Lists of values by index -/

theorem toList_ofFn {n : Nat} {f : Fin n → UInt64} {g : Nat → UInt64}
    (h : ∀ i : Fin n, f i = g i.val) : (Vector.ofFn f).toList = (List.range n).map g := by
  refine List.ext_getElem (by simp) fun i hi _ => ?_
  rw [Vector.length_toList] at hi
  rw [Vector.getElem_toList, Vector.getElem_ofFn, List.getElem_map, List.getElem_range]
  exact h ⟨i, hi⟩

theorem getD_toList {n : Nat} (a : Vector UInt64 n) {i : Nat} (h : i < n) :
    a.toList.getD i 0 = a[i] := by
  rw [List.getD_eq_getElem?_getD, List.getElem?_eq_getElem (by rwa [Vector.length_toList]),
    Option.getD_some, Vector.getElem_toList]

/-! ## The steps -/

/-- The lane in a column and a row. -/
def listedAt (lanes : List UInt64) (x y : Nat) : UInt64 := lanes.getD (x % 5 + 5 * (y % 5)) 0

theorem listedAt_toList (a : Lanes) (x y : Nat) : listedAt a.toList x y = laneAt a x y :=
  getD_toList a (by omega)

/-- The parity of a column. -/
def columnParity (lanes : List UInt64) (x : Nat) : UInt64 :=
  listedAt lanes x 0 ^^^ listedAt lanes x 1 ^^^ listedAt lanes x 2 ^^^ listedAt lanes x 3 ^^^
    listedAt lanes x 4

/-- What the parities of two columns do to the lanes of one. -/
def columnEffect (lanes : List UInt64) (x : Nat) : UInt64 :=
  columnParity lanes ((x + 4) % 5) ^^^ turnLeft (columnParity lanes ((x + 1) % 5)) 1

/-- Mix each lane with the parities of two columns. -/
def listTheta (lanes : List UInt64) : List UInt64 :=
  let effect := (List.range 5).map (columnEffect lanes)
  (List.range 25).map fun i => lanes.getD i 0 ^^^ effect.getD (i % 5) 0

theorem toList_theta (a : Lanes) : (theta a).toList = listTheta a.toList := by
  unfold theta
  extract_lets parity effect
  have hparity : ∀ x (h : x < 5), parity[x] = columnParity a.toList x := by
    intro x h
    simp only [parity, Vector.getElem_ofFn, columnParity, listedAt_toList]
  have heffect : effect.toList = (List.range 5).map (columnEffect a.toList) := by
    refine toList_ofFn fun x => ?_
    have hbefore : (x.val + 4) % 5 < 5 := by omega
    have hafter : (x.val + 1) % 5 < 5 := by omega
    rw [columnEffect, ← hparity _ hbefore, ← hparity _ hafter]
  simp only [listTheta, ← heffect]
  refine toList_ofFn fun i => ?_
  have hcolumn : i.val % 5 < 5 := by omega
  rw [getD_toList a i.isLt, getD_toList effect hcolumn]
  rfl

/-- Turn the lanes and move them. -/
def listRhoPi (lanes : List UInt64) : List UInt64 :=
  (List.range 25).map fun i =>
    let source := (i % 5 + 3 * (i / 5)) % 5 + 5 * (i % 5)
    turnLeft (lanes.getD source 0) (turns.toList.getD source 0)

theorem toList_rhoPi (a : Lanes) : (rhoPi a).toList = listRhoPi a.toList := by
  refine toList_ofFn fun i => ?_
  have hsource : (i.val % 5 + 3 * (i.val / 5)) % 5 + 5 * (i.val % 5) < 25 := by omega
  simp only [getD_toList _ hsource]

/-- Mix each lane with the next two of its row. -/
def listChi (lanes : List UInt64) : List UInt64 :=
  (List.range 25).map fun i =>
    listedAt lanes (i % 5) (i / 5) ^^^
      (~~~ listedAt lanes (i % 5 + 1) (i / 5) &&& listedAt lanes (i % 5 + 2) (i / 5))

theorem toList_chi (a : Lanes) : (chi a).toList = listChi a.toList := by
  refine toList_ofFn fun i => ?_
  simp only [listedAt_toList]

/-- One round. -/
def listRound (lanes : List UInt64) (constant : UInt64) : List UInt64 :=
  let mixed := listChi (listRhoPi (listTheta lanes))
  mixed.set 0 (mixed.getD 0 0 ^^^ constant)

theorem toList_round (a : Lanes) (constant : UInt64) :
    (round a constant).toList = listRound a.toList constant := by
  simp only [round, listRound, Vector.toList_set, ← toList_theta, ← toList_rhoPi, ← toList_chi]
  rw [getD_toList _ (by omega)]

theorem toList_foldl_round (constants : List UInt64) (a : Lanes) :
    (constants.foldl round a).toList = constants.foldl listRound a.toList := by
  induction constants generalizing a with
  | nil => rfl
  | cons constant rest ih => rw [List.foldl_cons, List.foldl_cons, ih, toList_round]

/-! ## The sponge -/

/-- Add a block to the first lanes. -/
def listAddBlock (lanes : List UInt64) (block : List UInt8) : List UInt64 :=
  (List.range 25).map fun i => lanes.getD i 0 ^^^ laneOf ((block.drop (8 * i)).take 8)

theorem toList_addBlock (a : Lanes) (block : List UInt8) :
    (addBlock a block).toList = listAddBlock a.toList block := by
  refine toList_ofFn fun i => ?_
  rw [getD_toList a i.isLt]
  rfl

/-- Take in the first `count` blocks of some bytes. -/
def listAbsorb : (count : Nat) → List UInt64 → List UInt8 → List UInt64
  | 0, lanes, _ => lanes
  | count + 1, lanes, bytes =>
    listAbsorb count (roundConstants.foldl listRound (listAddBlock lanes (bytes.take rate)))
      (bytes.drop rate)

theorem toList_absorb (count : Nat) (a : Lanes) (bytes : List UInt8) :
    (absorb count a bytes).toList = listAbsorb count a.toList bytes := by
  induction count generalizing a bytes with
  | zero => rfl
  | succ count ih =>
      rw [absorb, listAbsorb, ih, permute, toList_foldl_round, toList_addBlock]

/-- The hash of a message, found with lists. -/
def hashByLists (message : List UInt8) : List UInt8 :=
  let lanes := listAbsorb (message.length / rate + 1) (List.replicate 25 0) (pad message)
  bytesOf (lanes.getD 0 0) ++ bytesOf (lanes.getD 1 0) ++ bytesOf (lanes.getD 2 0) ++
    bytesOf (lanes.getD 3 0)

theorem hash_eq_hashByLists (message : List UInt8) : hash message = hashByLists message := by
  have hlanes := toList_absorb (message.length / rate + 1) (Vector.replicate 25 0) (pad message)
  rw [Vector.toList_replicate] at hlanes
  simp only [hash, hashByLists, ← hlanes]
  rw [getD_toList _ (by omega), getD_toList _ (by omega), getD_toList _ (by omega),
    getD_toList _ (by omega)]

end SolDeployer.Keccak
