import SolDeployer.Proofs.Hex
import SolDeployer.Trailer

/-!
# Trailers at the end of a bytecode

A trailer is found from the end: four characters are its length in bytes, and
twice as many characters before them are its digits. Nothing in front of these is
looked at (`payload?_append`). Four small digits are read as the number that they
are written for, so what was appended to a bytecode is found again. The lenient
reader takes more for a length, also a negative number; the bytes are none then,
and no map is in them.
-/

namespace SolDeployer

/-! ## Numbers in base sixteen -/

namespace Text

theorem baseDigit?_digitChar {value : Nat} (h : value < 16) :
    baseDigit? 16 (Nat.digitChar value) = some value := by
  have hall : ∀ n : Fin 16, baseDigit? 16 (Nat.digitChar n) = some n.val := by decide +kernel
  exact hall ⟨value, h⟩

/-- Whether a character is a blank, an underscore, a sign or a mark can be seen from
the sixteen digits. -/
theorem digitChar_plain {value : Nat} (h : value < 16) :
    isMargin (Nat.digitChar value) = false ∧ Nat.digitChar value ∉ "_+-xX".toList := by
  have hall : ∀ n : Fin 16, isMargin (Nat.digitChar n) = false ∧
      Nat.digitChar n ∉ "_+-xX".toList := by decide +kernel
  exact hall ⟨value, h⟩

theorem digitRun?_digitChars : ∀ {first : Nat} {rest : List Nat}, first < 16 →
    (∀ value ∈ rest, value < 16) →
    digitRun? 16 ((first :: rest).map Nat.digitChar) = some (first :: rest)
  | first, [], hfirst, _ => by
      simp only [List.map_cons, List.map_nil, digitRun?, baseDigit?_digitChar hfirst,
        Option.map_some]
  | first, second :: rest, hfirst, hrest => by
      have hsecond := hrest second List.mem_cons_self
      have hne : Nat.digitChar second ≠ '_' := by
        intro heq
        exact (digitChar_plain hsecond).2 (by rw [heq]; decide)
      have hmore := digitRun?_digitChars hsecond fun value hmem =>
        hrest value (List.mem_cons_of_mem _ hmem)
      rw [List.map_cons] at hmore
      simp only [List.map_cons, digitRun?, baseDigit?_digitChar hfirst, if_neg hne, hmore,
        Option.map_some]

theorem trimMargins_eq {text : List Char} (h : ∀ c ∈ text, isMargin c = false) :
    trimMargins text = text := by
  have hdrop {chars : List Char} (hchars : ∀ c ∈ chars, isMargin c = false) :
      chars.dropWhile isMargin = chars := by
    cases chars with
    | nil => rfl
    | cons c rest => rw [List.dropWhile_cons_of_neg (by rw [hchars c List.mem_cons_self]; decide)]
  rw [trimMargins, hdrop h, hdrop (fun c hmem => h c (List.mem_reverse.mp hmem)),
    List.reverse_reverse]

/-- The digits of a number are read as the number. -/
theorem integer?_digitChars {first second : Nat} {rest : List Nat}
    (h : ∀ value ∈ first :: second :: rest, value < 16) :
    integer? 16 ((first :: second :: rest).map Nat.digitChar) =
      some ((ofDigits 16 (first :: second :: rest) : Nat) : Int) := by
  have hplain : ∀ c ∈ (first :: second :: rest).map Nat.digitChar,
      isMargin c = false ∧ c ∉ "_+-xX".toList := by
    intro c hmem
    obtain ⟨value, hvalue, rfl⟩ := List.mem_map.mp hmem
    exact digitChar_plain (h value hvalue)
  have hrun := digitRun?_digitChars (h first List.mem_cons_self) fun value hmem =>
    h value (List.mem_cons_of_mem _ hmem)
  have hmark : dropHexMark ((first :: second :: rest).map Nat.digitChar) =
      (first :: second :: rest).map Nat.digitChar := by
    have hsecond := (hplain (Nat.digitChar second) (by simp)).2
    simp only [List.map_cons, dropHexMark]
    rw [if_neg]
    rintro ⟨-, heq | heq⟩
    · exact hsecond (by rw [heq]; decide)
    · exact hsecond (by rw [heq]; decide)
  have hnatural : natural? 16 ((first :: second :: rest).map Nat.digitChar) =
      some (ofDigits 16 (first :: second :: rest)) := by
    rw [natural?, if_pos rfl, hmark, hrun]
    rfl
  unfold integer?
  rw [trimMargins_eq fun c hmem => (hplain c hmem).1]
  split
  · rename_i heq
    exact absurd (by decide) (hplain '+' (heq ▸ List.mem_cons_self)).2
  · rename_i heq
    exact absurd (by decide) (hplain '-' (heq ▸ List.mem_cons_self)).2
  · rw [hnatural]
    rfl

end Text

namespace Trailer

/-! ## What is in front of the length -/

theorem payload?_append (body : List Char) {length : List Char} (hfour : length.length = 4) :
    payload? (body ++ length) = (Text.integer? 16 length).bind fun count =>
      if count = 0 ∨ (body.length : Int) - 2 * count < 0 then none
      else Hex.spacedBytes? (body.drop ((body.length : Int) - 2 * count).toNat) := by
  have hsize : (body ++ length).length - 4 = body.length := by
    rw [List.length_append]
    omega
  unfold payload?
  rw [if_neg (by rw [List.length_append]; omega), hsize, List.take_left, List.drop_left]
  cases Text.integer? 16 length <;> rfl

/-- The bytes of a bytecode whose last four characters are how many there are, with
their digits before these. -/
inductive IsFramed : List Char → List UInt8 → Prop
  | intro (before : List Char) {digits length : List Char} {count : Nat} {bytes : List UInt8}
      (hfour : length.length = 4) (hcount : Text.integer? 16 length = some (count : Int))
      (hpositive : 0 < count) (hdigits : digits.length = 2 * count)
      (hbytes : Hex.spacedBytes? digits = some bytes) : IsFramed (before ++ digits ++ length) bytes

/-- The last four characters of a bytecode are a negative number. -/
def EndsNegative (bytecode : List Char) : Prop :=
  ∃ body length count, bytecode = body ++ length ∧ length.length = 4 ∧
    Text.integer? 16 length = some count ∧ count < 0

theorem payload?_of_framed {bytecode : List Char} {bytes : List UInt8}
    (h : IsFramed bytecode bytes) : payload? bytecode = some bytes := by
  obtain ⟨before, hfour, hcount, hpositive, hdigits, hbytes⟩ := h
  rename_i digits length count
  have hstart : (((before ++ digits).length : Int) - 2 * count).toNat = before.length := by
    rw [List.length_append]
    omega
  rw [payload?_append _ hfour, hcount, Option.bind_some, if_neg, hstart, List.drop_left, hbytes]
  rw [List.length_append]
  omega

theorem payload?_eq_some {bytecode : List Char} {bytes : List UInt8} :
    payload? bytecode = some bytes ↔
      IsFramed bytecode bytes ∨ (bytes = [] ∧ EndsNegative bytecode) := by
  constructor
  · intro h
    have hlength : 4 ≤ bytecode.length := by
      by_contra hshort
      rw [payload?, if_pos (by omega)] at h
      cases h
    obtain ⟨body, length, rfl, hfour⟩ : ∃ body length, bytecode = body ++ length ∧
        length.length = 4 := by
      refine ⟨_, _, (List.take_append_drop (bytecode.length - 4) bytecode).symm, ?_⟩
      rw [List.length_drop]
      omega
    rw [payload?_append body hfour] at h
    obtain ⟨count, hcount, h⟩ := Option.bind_eq_some_iff.mp h
    split at h
    · cases h
    · rename_i hfits
      rcases Int.lt_or_le count 0 with hnegative | hnatural
      · -- behind the end of the body nothing is left
        rw [List.drop_of_length_le (by omega)] at h
        exact .inr ⟨(Option.some.inj h).symm, body, length, count, rfl, hfour, hcount, hnegative⟩
      · obtain ⟨count, rfl⟩ := Int.eq_ofNat_of_zero_le hnatural
        have hbody := List.take_append_drop ((body.length : Int) - 2 * count).toNat body
        rw [← hbody]
        refine .inl (.intro _ hfour hcount (by omega) ?_ h)
        rw [List.length_drop]
        omega
  · rintro (hframed | ⟨rfl, body, length, count, rfl, hfour, hcount, hnegative⟩)
    · exact payload?_of_framed hframed
    · rw [payload?_append body hfour, hcount, Option.bind_some, if_neg (by omega),
        List.drop_of_length_le (by omega)]
      rfl

theorem decodeMap?_nil : Cbor.decodeMap? [] = none := by
  have hnone : (Cbor.decodeMap? []).isNone = true := by decide +kernel
  exact Option.isNone_iff_eq_none.mp hnone

/-! ## Trailers that were appended -/

/-- A number below the fourth power of sixteen in four digits. -/
def lengthDigits (length : Nat) : List Char :=
  [length / 4096, length / 256 % 16, length / 16 % 16, length % 16].map Nat.digitChar

theorem integer?_lengthDigits {length : Nat} (h : length < 65536) :
    Text.integer? 16 (lengthDigits length) = some (length : Int) := by
  have hvalue : Text.ofDigits 16 [length / 4096, length / 256 % 16, length / 16 % 16, length % 16] =
      length := by
    simp only [Text.ofDigits, List.foldl_cons, List.foldl_nil]
    omega
  rw [lengthDigits, Text.integer?_digitChars ?_, hvalue]
  intro value hmem
  simp only [List.mem_cons, List.not_mem_nil, or_false] at hmem
  omega

theorem framed_append (before : List Char) {payload : List UInt8} (hpositive : 1 ≤ payload.length)
    (hlength : payload.length ≤ 65535) :
    IsFramed (before ++ Hex.ofBytes payload ++ lengthDigits payload.length) payload :=
  .intro before rfl (integer?_lengthDigits (by omega)) hpositive (Hex.length_ofBytes payload)
    (Hex.spacedBytes?_of_bytes? (Hex.bytes?_ofBytes payload))

/-- A decoder finds a map in what the end of a bytecode frames. Only a negative number
at the end gives it no bytes at all. -/
theorem foundBy_eq_some {decode : List UInt8 → Option Cbor.Map} {bytecode : List Char}
    {map : Trailer} : foundBy decode bytecode = some map ↔
      (∃ bytes, IsFramed bytecode bytes ∧ decode bytes = some map) ∨
        (EndsNegative bytecode ∧ decode [] = some map) := by
  rw [foundBy, Option.bind_eq_some_iff]
  constructor
  · rintro ⟨bytes, hbytes, hmap⟩
    rcases payload?_eq_some.mp hbytes with hframed | ⟨rfl, hnegative⟩
    · exact .inl ⟨bytes, hframed, hmap⟩
    · exact .inr ⟨hnegative, hmap⟩
  · rintro (⟨bytes, hframed, hmap⟩ | ⟨hnegative, hmap⟩)
    · exact ⟨bytes, payload?_of_framed hframed, hmap⟩
    · exact ⟨[], payload?_eq_some.mpr (.inr ⟨rfl, hnegative⟩), hmap⟩

theorem foundBy_of_framed {bytecode : List Char} {bytes : List UInt8}
    (h : IsFramed bytecode bytes) (decode : List UInt8 → Option Cbor.Map) :
    foundBy decode bytecode = decode bytes := by
  rw [foundBy, payload?_of_framed h, Option.bind_some]

/-- **Trailers.** From bytes that are appended to any characters, with their length,
every decoder gets exactly these bytes. Whatever a bytecode is, the answer is the
map in the bytes that its end frames, or there is none; only if the end is a
negative number is the decoder given no bytes at all, in which it finds no map. -/
theorem trailer_framed :
    (∀ (before : List Char) (payload : List UInt8), 1 ≤ payload.length → payload.length ≤ 65535 →
      (∀ decode, foundBy decode (before ++ Hex.ofBytes payload ++ lengthDigits payload.length) =
        decode payload) ∧
      ofBytecode? (before ++ Hex.ofBytes payload ++ lengthDigits payload.length) =
        Cbor.decodeMap? payload) ∧
    (∀ decode bytecode map, foundBy decode bytecode = some map ↔
      (∃ bytes, IsFramed bytecode bytes ∧ decode bytes = some map) ∨
        (EndsNegative bytecode ∧ decode [] = some map)) ∧
    ∀ bytecode map, ofBytecode? bytecode = some map ↔
      ∃ bytes, IsFramed bytecode bytes ∧ Cbor.decodeMap? bytes = some map := by
  refine ⟨fun before payload hpositive hlength => ?_, fun decode bytecode map => foundBy_eq_some,
    fun bytecode map => ?_⟩
  · have hframed := framed_append before hpositive hlength
    exact ⟨foundBy_of_framed hframed, foundBy_of_framed hframed _⟩
  · rw [ofBytecode?, foundBy_eq_some, decodeMap?_nil]
    simp

/-- A map with the version of a compiler, behind a slot that is not filled yet. -/
theorem trailer_framed_release :
    (ofBytecode? ("60__$00$__".toList ++
        Hex.ofBytes [0xa1, 0x64, 0x73, 0x6f, 0x6c, 0x63, 0x43, 0, 8, 24] ++ lengthDigits 10)).bind
          solcVersion? = some "0.8.24" := by
  have hmap := (trailer_framed.1 "60__$00$__".toList
    [0xa1, 0x64, 0x73, 0x6f, 0x6c, 0x63, 0x43, 0, 8, 24] (by decide) (by decide)).2
  rw [show (10 : Nat) = [0xa1, 0x64, 0x73, 0x6f, 0x6c, 0x63, 0x43, 0, 8, (24 : UInt8)].length from rfl,
    hmap]
  decide +kernel

end Trailer

end SolDeployer
