import SolDeployer.Json.Reader
import SolDeployer.Proofs.Entries

/-!
# The size of what is read

A document has no more fields than its text has characters. The reader
keeps a stronger fact at every call: the fields read so far and the
characters that are left are together no more than the characters there
were (`value_size`). Every field takes a character at least, its opening
quote; what holds no fields only has to leave an end of its text.
-/

namespace SolDeployer.Json

/-! ## Counting fields -/

mutual

/-- The fields of all objects in a value. -/
def fieldCount : Json → Nat
  | .arr items => fieldCountItems items
  | .obj fields => fieldCountFields fields
  | _ => 0

def fieldCountItems : List Json → Nat
  | [] => 0
  | item :: rest => fieldCount item + fieldCountItems rest

def fieldCountFields : List (String × Json) → Nat
  | [] => 0
  | (_, value) :: rest => 1 + fieldCount value + fieldCountFields rest

end

theorem fieldCountItems_append (items others : List Json) :
    fieldCountItems (items ++ others) = fieldCountItems items + fieldCountItems others := by
  induction items with
  | nil => simp [fieldCountItems]
  | cons item rest ih => simp only [List.cons_append, fieldCountItems, ih]; omega

theorem fieldCountItems_reverse (items : List Json) :
    fieldCountItems items.reverse = fieldCountItems items := by
  induction items with
  | nil => rfl
  | cons item rest ih =>
      simp only [List.reverse_cons, fieldCountItems_append, fieldCountItems, ih]
      omega

theorem fieldCountFields_append (fields others : List (String × Json)) :
    fieldCountFields (fields ++ others) = fieldCountFields fields + fieldCountFields others := by
  induction fields with
  | nil => simp [fieldCountFields]
  | cons field rest ih => simp only [List.cons_append, fieldCountFields, ih]; omega

theorem fieldCountFields_reverse (fields : List (String × Json)) :
    fieldCountFields fields.reverse = fieldCountFields fields := by
  induction fields with
  | nil => rfl
  | cons field rest ih =>
      simp only [List.reverse_cons, fieldCountFields_append, fieldCountFields, ih]
      omega

theorem fieldCountFields_insert (fields : Fields) (key : String) (value : Json) :
    fieldCountFields (fields.insert key value) ≤ fieldCountFields fields + 1 + fieldCount value := by
  induction fields with
  | nil => simp only [Entries.insert, fieldCountFields]; omega
  | cons field rest ih =>
      obtain ⟨k, old⟩ := field
      unfold Entries.insert
      split
      · simp only [fieldCountFields]; omega
      · simp only [fieldCountFields]; omega

/-- A field that is repeated counts once. -/
theorem fieldCountFields_ofList (fields : List (String × Json)) :
    fieldCountFields (Entries.ofList fields) ≤ fieldCountFields fields := by
  induction fields using List.reverseRecOn with
  | nil => exact Nat.le_refl _
  | append_singleton rest field ih =>
      have hinsert := fieldCountFields_insert (Entries.ofList rest) field.1 field.2
      rw [Entries.ofList_concat, fieldCountFields_append]
      simp only [fieldCountFields]
      omega

theorem fieldCount_getD_le (fields : Fields) (key : String) :
    fieldCount (fields.getD key) ≤ fieldCountFields fields := by
  unfold Fields.getD
  induction fields with
  | nil => simp [Entries.get?, fieldCount]
  | cons field rest ih =>
      obtain ⟨k, value⟩ := field
      unfold Entries.get?
      split
      · simp only [Option.getD_some, fieldCountFields]; omega
      · simp only [fieldCountFields]; omega

namespace Reader

/-! ## What is left of a text -/

theorem skipSpace_suffix (text : List Char) : skipSpace text <:+ text :=
  List.dropWhile_suffix _

theorem codeUnit?_suffix {text rest : List Char} {unit : Nat}
    (h : codeUnit? text = some (unit, rest)) : rest <:+ text := by
  match text with
  | a :: b :: c :: d :: text =>
      simp only [codeUnit?, Option.bind_eq_bind, Option.bind_eq_some_iff] at h
      obtain ⟨_, -, _, -, _, -, _, -, h⟩ := h
      obtain ⟨-, rfl⟩ := Prod.mk.inj (Option.some.inj h)
      exact ⟨[a, b, c, d], rfl⟩

theorem lowHalf?_suffix {text rest : List Char} {unit : Nat}
    (h : lowHalf? text = some (unit, rest)) : rest <:+ text := by
  unfold lowHalf? at h
  split at h
  · split at h
    · have hunit := codeUnit?_suffix (Option.filter_eq_some_iff.mp h).1
      exact hunit.trans ⟨[_, 'u'], rfl⟩
    · cases h
  · cases h

theorem unitChar?_suffix {text rest : List Char} {c : Char}
    (h : unitChar? text = some (c, rest)) : rest <:+ text := by
  unfold unitChar? at h
  split at h
  · cases h
  · rename_i unit afterUnit hunit
    have hsuffix := codeUnit?_suffix hunit
    split at h
    · split at h
      · rename_i hlow
        obtain ⟨-, rfl⟩ := Prod.mk.inj (Option.some.inj h)
        exact (lowHalf?_suffix hlow).trans hsuffix
      · obtain ⟨-, rfl⟩ := Prod.mk.inj (Option.some.inj h)
        exact hsuffix
    · obtain ⟨-, rfl⟩ := Prod.mk.inj (Option.some.inj h)
      exact hsuffix

theorem escaped?_suffix {text rest : List Char} {c : Char}
    (h : escaped? text = some (c, rest)) : rest <:+ text := by
  cases text with
  | nil => cases h
  | cons mark text =>
      have hrest : rest = text ∨ unitChar? text = some (c, rest) := by
        unfold escaped? at h
        grind
      rcases hrest with rfl | hunit
      · exact List.suffix_cons ..
      · exact (unitChar?_suffix hunit).trans (List.suffix_cons ..)

theorem quotedRest_suffix {fuel : Nat} {done text rest : List Char} {value : String}
    (h : quotedRest fuel done text = .ok (value, rest)) : rest <:+ text := by
  induction fuel generalizing done text with
  | zero => cases h
  | succ fuel ih =>
      cases text with
      | nil => cases h
      | cons c text =>
          refine List.IsSuffix.trans ?_ (List.suffix_cons c text)
          unfold quotedRest at h
          split at h
          · obtain ⟨-, rfl⟩ := Prod.mk.inj (Except.ok.inj h)
            exact List.suffix_rfl
          · split at h
            · split at h
              · rename_i hescaped
                exact (ih h).trans (escaped?_suffix hescaped)
              · cases h
            · split at h
              · cases h
              · exact ih h

theorem wholePart?_suffix {text whole rest : List Char}
    (h : wholePart? text = some (whole, rest)) : rest <:+ text := by
  cases text with
  | nil => cases h
  | cons c text =>
      have hrest : rest = text ∨ rest = text.dropWhile isDigit := by
        unfold wholePart? at h
        grind
      rcases hrest with rfl | rfl
      · exact List.suffix_cons ..
      · exact (List.dropWhile_suffix _).trans (List.suffix_cons ..)

theorem fraction_suffix (text : List Char) : (fraction text).2 <:+ text := by
  unfold fraction
  split
  · split
    · exact List.suffix_rfl
    · exact (List.dropWhile_suffix _).trans (List.suffix_cons ..)
  · exact List.suffix_rfl

theorem power?_suffix {text rest : List Char} {power : Int}
    (h : power? text = some (power, rest)) : rest <:+ text := by
  cases text with
  | nil => cases h
  | cons mark text =>
      have hrest : rest = text.dropWhile isDigit ∨ rest = (text.drop 1).dropWhile isDigit := by
        unfold power? at h
        grind
      refine List.IsSuffix.trans ?_ (List.suffix_cons mark text)
      rcases hrest with rfl | rfl
      · exact List.dropWhile_suffix _
      · exact (List.dropWhile_suffix _).trans (List.drop_suffix 1 text)

theorem word?_suffix {word text rest : List Char} (h : word? word text = some rest) :
    rest <:+ text := by
  induction word generalizing text with
  | nil =>
      obtain rfl := Option.some.inj h
      exact List.suffix_rfl
  | cons c word ih =>
      cases text with
      | nil => cases h
      | cons d text =>
          unfold word? at h
          split at h
          · exact (ih h).trans (List.suffix_cons ..)
          · cases h

/-! ## Numbers and words hold no fields -/

theorem number_size {negative : Bool} {text rest : List Char} {v : Json}
    (h : number negative text = .ok (v, rest)) : v.fieldCount = 0 ∧ rest <:+ text := by
  unfold number at h
  split at h
  · cases h
  · rename_i whole afterWhole hwhole
    have hfraction := (fraction_suffix afterWhole).trans (wholePart?_suffix hwhole)
    simp only at h
    split at h
    · rename_i hpower
      obtain ⟨rfl, rfl⟩ := Prod.mk.inj (Except.ok.inj h)
      exact ⟨rfl, (power?_suffix hpower).trans hfraction⟩
    · split at h
      · obtain ⟨rfl, rfl⟩ := Prod.mk.inj (Except.ok.inj h)
        exact ⟨rfl, hfraction⟩
      · split at h
        · cases h
        · obtain ⟨rfl, rfl⟩ := Prod.mk.inj (Except.ok.inj h)
          exact ⟨rfl, hfraction⟩

theorem fieldCount_of_mem_words {word : List Char} {v : Json} (h : (word, v) ∈ words) :
    v.fieldCount = 0 := by
  simp only [words, List.mem_cons, Prod.mk.injEq, List.not_mem_nil, or_false] at h
  rcases h with ⟨-, rfl⟩ | ⟨-, rfl⟩ | ⟨-, rfl⟩ | ⟨-, rfl⟩ | ⟨-, rfl⟩ | ⟨-, rfl⟩ <;> rfl

theorem scalar_size {text rest : List Char} {v : Json} (h : scalar text = .ok (v, rest)) :
    v.fieldCount = 0 ∧ rest <:+ text := by
  unfold scalar at h
  split at h
  · rename_i found hfound
    obtain rfl := Except.ok.inj h
    obtain ⟨⟨word, value⟩, hmem, hword⟩ := List.exists_of_findSome?_eq_some hfound
    obtain ⟨after, hafter, heq⟩ := Option.map_eq_some_iff.mp hword
    obtain ⟨rfl, rfl⟩ := Prod.mk.inj heq
    exact ⟨fieldCount_of_mem_words hmem, word?_suffix hafter⟩
  · split at h
    · obtain ⟨hcount, hrest⟩ := number_size h
      exact ⟨hcount, hrest.trans (List.suffix_cons ..)⟩
    · exact number_size h

/-! ## Values -/

/-- What one call of the reader keeps, whatever the fuel and the levels:
fields and characters that are left are no more than the characters there
were and the fields that were read before. -/
structure Sized (fuel : Nat) : Prop where
  value : ∀ {levels : Nat} {text rest : List Char} {v : Json},
    value fuel levels text = .ok (v, rest) → v.fieldCount + rest.length ≤ text.length
  items : ∀ {levels : Nat} {done : List Json} {text rest : List Char} {v : Json},
    items fuel levels done text = .ok (v, rest) →
      v.fieldCount + rest.length ≤ fieldCountItems done + text.length
  fields : ∀ {levels : Nat} {done : List (String × Json)} {text rest : List Char} {v : Json},
    fields fuel levels done text = .ok (v, rest) →
      v.fieldCount + rest.length ≤ fieldCountFields done + text.length

theorem length_skipSpace (text : List Char) : (skipSpace text).length ≤ text.length :=
  (skipSpace_suffix text).length_le

theorem Sized.value_succ {fuel levels : Nat} (ih : Sized fuel) {text rest : List Char} {v : Json}
    (h : Reader.value (fuel + 1) levels text = .ok (v, rest)) :
    v.fieldCount + rest.length ≤ text.length := by
  cases text with
  | nil => cases h
  | cons c text =>
      have hspace := length_skipSpace text
      unfold Reader.value at h
      split at h
      · split at h
        · rename_i hquoted
          obtain ⟨rfl, rfl⟩ := Prod.mk.inj (Except.ok.inj h)
          have hlength := (quotedRest_suffix hquoted).length_le
          simp only [fieldCount, List.length_cons]
          omega
        · cases h
      · split at h
        · cases h
        split at h
        · split at h
          · rename_i hclose
            obtain ⟨rfl, rfl⟩ := Prod.mk.inj (Except.ok.inj h)
            simp only [hclose, fieldCount, fieldCountItems, List.length_cons] at hspace ⊢
            omega
          · have hitems := ih.items h
            simp only [fieldCountItems, List.length_cons] at hitems ⊢
            omega
        · split at h
          · split at h
            · rename_i hopen
              rw [hopen] at hspace
              split at h
              · obtain ⟨rfl, rfl⟩ := Prod.mk.inj (Except.ok.inj h)
                simp only [fieldCount, fieldCountFields, List.length_cons] at hspace ⊢
                omega
              · have hfields := ih.fields h
                simp only [fieldCountFields, List.length_cons] at hfields hspace ⊢
                omega
            · cases h
          · obtain ⟨hcount, hrest⟩ := scalar_size h
            have hlength := hrest.length_le
            omega

theorem Sized.items_succ {fuel levels : Nat} (ih : Sized fuel) {done : List Json}
    {text rest : List Char} {v : Json}
    (h : Reader.items (fuel + 1) levels done text = .ok (v, rest)) :
    v.fieldCount + rest.length ≤ fieldCountItems done + text.length := by
  unfold Reader.items at h
  split at h
  · cases h
  · rename_i item after hitem
    have hvalue := ih.value hitem
    have hspace := length_skipSpace after
    split at h
    · rename_i next hcomma
      have hrest := ih.items h
      have hnext := length_skipSpace next
      simp only [hcomma, fieldCountItems, List.length_cons] at hspace hrest
      omega
    · rename_i hclose
      obtain ⟨rfl, rfl⟩ := Prod.mk.inj (Except.ok.inj h)
      simp only [hclose, fieldCount, fieldCountItems_reverse, fieldCountItems,
        List.length_cons] at hspace ⊢
      omega
    · cases h

theorem Sized.fields_succ {fuel levels : Nat} (ih : Sized fuel) {done : List (String × Json)}
    {text rest : List Char} {v : Json}
    (h : Reader.fields (fuel + 1) levels done text = .ok (v, rest)) :
    v.fieldCount + rest.length ≤ fieldCountFields done + text.length := by
  cases text with
  | nil => cases h
  | cons c text =>
      unfold Reader.fields at h
      split at h
      · split at h
        · cases h
        · rename_i key afterKey hkey
          have hkeyLength := (quotedRest_suffix hkey).length_le
          have hspace := length_skipSpace afterKey
          split at h
          · rename_i afterColon hcolon
            split at h
            · cases h
            · rename_i item after hitem
              have hvalue := ih.value hitem
              have hcolonSpace := length_skipSpace afterColon
              have hafter := length_skipSpace after
              simp only [hcolon, List.length_cons] at hspace
              split at h
              · rename_i next hcomma
                have hrest := ih.fields h
                have hnext := length_skipSpace next
                simp only [hcomma, fieldCountFields, List.length_cons] at hafter hrest ⊢
                omega
              · rename_i hclose
                split at h
                · obtain ⟨rfl, rfl⟩ := Prod.mk.inj (Except.ok.inj h)
                  have hset := fieldCountFields_ofList ((key, item) :: done).reverse
                  rw [fieldCountFields_reverse] at hset
                  simp only [hclose, fieldCount, fieldCountFields, List.length_cons]
                    at hafter hset ⊢
                  omega
                · cases h
              · cases h
          · cases h
      · cases h

theorem sized (fuel : Nat) : Sized fuel := by
  induction fuel with
  | zero => exact ⟨nofun, nofun, nofun⟩
  | succ fuel ih => exact ⟨ih.value_succ, ih.items_succ, ih.fields_succ⟩

end Reader

/-- A document has no more fields than its text has characters. -/
theorem fieldCount_of_read {text : List Char} {levels : Nat} {v : Json}
    (h : read text levels = .ok v) : v.fieldCount ≤ text.length := by
  unfold read at h
  simp only at h
  split at h
  · cases h
  · rename_i document rest hvalue
    have hsized := (Reader.sized _).value hvalue
    have hspace := Reader.length_skipSpace text
    split at h
    · obtain rfl := Except.ok.inj h
      omega
    · cases h

end SolDeployer.Json
