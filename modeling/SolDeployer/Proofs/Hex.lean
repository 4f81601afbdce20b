import SolDeployer.Hex
import SolDeployer.Proofs.Text

/-!
# Laws of base sixteen

Pairs of small digits are bytes, and the bytes are written with the same
digits again. A digit is one of sixteen characters, so what is said about
a single digit is checked character by character.
-/

namespace SolDeployer.Hex

/-! ## Digits -/

theorem lt_of_isLowerDigit {c : Char} (h : isLowerDigit c = true) : c.toNat < 103 := by
  simp only [isLowerDigit, Bool.or_eq_true, Bool.and_eq_true, decide_eq_true_eq] at h
  omega

theorem isLowerDigit_iff {c : Char} : isLowerDigit c = true ↔ c ∈ "0123456789abcdef".toList := by
  constructor
  · intro h
    refine Text.of_small (P := fun c => isLowerDigit c = true → c ∈ "0123456789abcdef".toList) ?_
      (lt_of_isLowerDigit h) h
    decide
  · have hall : "0123456789abcdef".toList.all isLowerDigit = true := by decide
    exact List.all_eq_true.mp hall c

/-- A small digit has a value, and the value is written with it. -/
theorem digit?_lower {c : Char} (h : isLowerDigit c = true) :
    ∃ value, value < 16 ∧ digit? c = some value ∧ Nat.digitChar value = c := by
  refine Text.of_small (P := fun c => isLowerDigit c = true →
    ∃ value, value < 16 ∧ digit? c = some value ∧ Nat.digitChar value = c) ?_
    (lt_of_isLowerDigit h) h
  decide

theorem lt_of_digit? {c : Char} (h : (digit? c).isSome = true) : c.toNat < 103 := by
  unfold digit? at h
  split at h
  · omega
  · split at h
    · omega
    · split at h
      · omega
      · cases h

theorem lowerChar_digit {c : Char} (h : (digit? c).isSome = true) :
    ∃ small, Text.lowerChar c = [small] ∧ isLowerDigit small = true := by
  refine ⟨(Text.lowerChar c).headD c, ?_⟩
  refine Text.of_small (P := fun c => (digit? c).isSome = true →
    Text.lowerChar c = [(Text.lowerChar c).headD c] ∧
      isLowerDigit ((Text.lowerChar c).headD c) = true) ?_ (lt_of_digit? h) h
  decide +kernel

/-- The small form of digits is as many small digits. -/
theorem lower_digits {digits : List Char} (h : ∀ c ∈ digits, (digit? c).isSome = true) :
    (Text.lower digits).length = digits.length ∧
      ∀ c ∈ Text.lower digits, isLowerDigit c = true := by
  have hascii : ∀ c ∈ digits, c.toNat < 128 := by
    intro c hmem
    have := lt_of_digit? (h c hmem)
    omega
  rw [Text.lower_ascii hascii]
  clear hascii
  induction digits with
  | nil => exact ⟨rfl, fun c hmem => by cases hmem⟩
  | cons first rest ih =>
      obtain ⟨small, hsmall, hlower⟩ := lowerChar_digit (h first (List.mem_cons_self ..))
      obtain ⟨hlength, hrest⟩ := ih fun c hmem => h c (List.mem_cons_of_mem _ hmem)
      rw [List.flatMap_cons, hsmall, List.singleton_append]
      refine ⟨by rw [List.length_cons, List.length_cons, hlength], ?_⟩
      intro c hmem
      rcases List.mem_cons.mp hmem with rfl | hmem
      · exact hlower
      · exact hrest c hmem

theorem isLowerDigit_digitChar {value : Nat} (h : value < 16) :
    isLowerDigit (Nat.digitChar value) = true := by
  have hall : ∀ n : Fin 16, isLowerDigit (Nat.digitChar n) = true := by decide
  exact hall ⟨value, h⟩

/-! ## Bytes -/

theorem ofByte_ofNat {high low : Nat} (hhigh : high < 16) (hlow : low < 16) :
    ofByte (UInt8.ofNat (high * 16 + low)) = [Nat.digitChar high, Nat.digitChar low] := by
  have hvalue : (UInt8.ofNat (high * 16 + low)).toNat = high * 16 + low := by
    rw [UInt8.toNat_ofNat']
    omega
  rw [ofByte, hvalue, show (high * 16 + low) / 16 = high by omega,
    show (high * 16 + low) % 16 = low by omega]

/-- Pairs of small digits are bytes that are written with these digits. -/
theorem bytes?_lower : ∀ {digits : List Char}, digits.length % 2 = 0 →
    (∀ c ∈ digits, isLowerDigit c = true) →
    ∃ bytes, bytes? digits = some bytes ∧ ofBytes bytes = digits
  | [], _, _ => ⟨[], rfl, rfl⟩
  | [_], heven, _ => by simp at heven
  | a :: b :: rest, heven, hlower => by
      have hrest : rest.length % 2 = 0 := by
        simp only [List.length_cons] at heven
        omega
      obtain ⟨bytes, hbytes, hdigits⟩ := bytes?_lower hrest fun c hmem =>
        hlower c (List.mem_cons_of_mem _ (List.mem_cons_of_mem _ hmem))
      obtain ⟨high, hhigh, ha, hahigh⟩ := digit?_lower (hlower a (by simp))
      obtain ⟨low, hlow, hb, hblow⟩ := digit?_lower (hlower b (by simp))
      refine ⟨UInt8.ofNat (high * 16 + low) :: bytes, ?_, ?_⟩
      · simp only [bytes?, ha, hb, hbytes, Option.map_some]
      · rw [ofBytes, List.flatMap_cons, ofByte_ofNat hhigh hlow, hahigh, hblow]
        exact congrArg (a :: b :: ·) hdigits

theorem bytes?_append : ∀ {digits more : List Char} {bytes others : List UInt8},
    bytes? digits = some bytes → bytes? more = some others →
    bytes? (digits ++ more) = some (bytes ++ others)
  | [], _, _, _, h, hmore => by
      obtain rfl := Option.some.inj h
      exact hmore
  | [_], _, _, _, h, _ => by cases h
  | a :: b :: rest, more, bytes, others, h, hmore => by
      simp only [bytes?] at h
      split at h
      · rename_i high low ha hb
        obtain ⟨bytes, hrest, rfl⟩ := Option.map_eq_some_iff.mp h
        simp only [List.cons_append, bytes?, ha, hb, bytes?_append hrest hmore, Option.map_some]
      · cases h

/-- Digits do not begin with a mark. -/
theorem markedBytes?_of_bytes? {digits : List Char} {bytes : List UInt8}
    (h : bytes? digits = some bytes) : markedBytes? digits = some bytes := by
  unfold markedBytes? dropMark
  split
  · simp [bytes?, show digit? 'x' = none by decide] at h
  · simp [bytes?, show digit? 'X' = none by decide] at h
  · exact h

/-- No mark stands before small digits. -/
theorem dropMark_lower {digits : List Char} (h : ∀ c ∈ digits, isLowerDigit c = true) :
    dropMark digits = digits := by
  unfold dropMark
  split
  · exact absurd (h 'x' (by simp)) (by decide)
  · exact absurd (h 'X' (by simp)) (by decide)
  · rfl

@[simp] theorem length_ofBytes (bytes : List UInt8) : (ofBytes bytes).length = 2 * bytes.length := by
  induction bytes with
  | nil => rfl
  | cons byte rest ih =>
      rw [ofBytes] at ih
      rw [ofBytes, List.flatMap_cons, List.length_append, ih, List.length_cons]
      simp only [ofByte, List.length_cons, List.length_nil]
      omega

theorem isLowerDigit_ofBytes {bytes : List UInt8} {c : Char} (h : c ∈ ofBytes bytes) :
    isLowerDigit c = true := by
  obtain ⟨byte, -, hmem⟩ := List.mem_flatMap.mp h
  have hlt := byte.toNat_lt
  rcases List.mem_cons.mp hmem with rfl | hmem
  · exact isLowerDigit_digitChar (by omega)
  · rw [List.mem_singleton.mp hmem]
    exact isLowerDigit_digitChar (by omega)

/-- What bytes are written with is read as these bytes. -/
theorem bytes?_ofBytes : ∀ bytes : List UInt8, bytes? (ofBytes bytes) = some bytes
  | [] => rfl
  | byte :: rest => by
      have hlt := byte.toNat_lt
      have hread : ∀ n : Fin 16, digit? (Nat.digitChar n) = some n.val := by decide
      have hhigh := hread ⟨byte.toNat / 16, by omega⟩
      have hlow := hread ⟨byte.toNat % 16, by omega⟩
      have hrest := bytes?_ofBytes rest
      rw [ofBytes] at hrest
      rw [ofBytes, List.flatMap_cons, ofByte, List.cons_append, List.cons_append, List.nil_append]
      simp only [bytes?, hhigh, hlow, hrest, Option.map_some]
      rw [Nat.div_add_mod', UInt8.ofNat_toNat]

/-- No blank is a digit. -/
theorem spacedBytes?_of_bytes? : ∀ {digits : List Char} {bytes : List UInt8},
    bytes? digits = some bytes → spacedBytes? digits = some bytes
  | [], _, h => h
  | [_], _, h => by cases h
  | a :: b :: rest, bytes, h => by
      simp only [bytes?] at h
      split at h
      · rename_i high low ha hb
        obtain ⟨bytes, hrest, rfl⟩ := Option.map_eq_some_iff.mp h
        have hdigit : Text.isPlainBlank a = false := by
          have hlt := lt_of_digit? (ha ▸ rfl : (digit? a).isSome = true)
          refine Text.of_small (P := fun c => (digit? c).isSome = true →
            Text.isPlainBlank c = false) ?_ hlt (ha ▸ rfl)
          decide
        rw [spacedBytes?, hdigit, if_neg Bool.false_ne_true]
        simp only [ha, hb, spacedBytes?_of_bytes? hrest, Option.map_some]
      · cases h

theorem markedBytes?_ofBytes (bytes : List UInt8) : markedBytes? (ofBytes bytes) = some bytes := by
  rw [markedBytes?, dropMark_lower fun c hmem => isLowerDigit_ofBytes hmem, bytes?_ofBytes]

theorem ofBytes_inj {bytes others : List UInt8} (h : ofBytes bytes = ofBytes others) :
    bytes = others := by
  have hread := bytes?_ofBytes bytes
  rw [h, bytes?_ofBytes] at hread
  exact (Option.some.inj hread).symm

end SolDeployer.Hex
