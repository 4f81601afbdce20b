import SolDeployer.Proofs.Json.Size

/-!
# Documents beyond a limit

A document is refused for an integer with too many digits only if so many
digits stand in a row in its text, and as too deep only if more brackets
open in it than there are levels. Every call of the reader leaves an end of
its text or points to one of these in it (`Leaves`); what is in an end of a
text is in the text, and a bracket makes up for the level that it takes.
Whatever the limit is, some text goes beyond it (`read_replicate`).
-/

namespace SolDeployer.Json

/-- More digits in a row than an integer may have. -/
def HasLongRun (text : List Char) : Prop :=
  ∃ digits, digits <:+: text ∧ (∀ c ∈ digits, Reader.isDigit c = true) ∧
    Text.maxDecimalDigits < digits.length

theorem HasLongRun.of_suffix {rest text : List Char} (h : HasLongRun rest) (hrest : rest <:+ text) :
    HasLongRun text := by
  obtain ⟨digits, hinfix, hdigits, hlong⟩ := h
  exact ⟨digits, hinfix.trans hrest.isInfix, hdigits, hlong⟩

/-- How many lists and objects open in a text. -/
def openings (text : List Char) : Nat := text.countP Reader.opens

theorem openings_le_of_suffix {rest text : List Char} (h : rest <:+ text) :
    openings rest ≤ openings text :=
  h.sublist.countP_le

namespace Reader

variable {α : Type} {levels : Nat} {text rest : List Char}

/-! ## One call -/

/-- A call leaves an end of its text. If an integer is too long, then the
text has its digits, and if values are too deep, then more of them open than
there are levels. -/
def Leaves (levels : Nat) (text : List Char) : Step α → Prop
  | .ok (_, rest) => rest <:+ text
  | .error .integerTooLong => HasLongRun text
  | .error .tooDeep => levels < openings text
  | .error _ => True

theorem Leaves.of_suffix {step : Step α} (h : Leaves levels rest step) (hrest : rest <:+ text) :
    Leaves levels text step := by
  cases step with
  | ok read => exact List.IsSuffix.trans h hrest
  | error e =>
      cases e with
      | integerTooLong => exact HasLongRun.of_suffix h hrest
      | tooDeep => exact Nat.lt_of_lt_of_le h (openings_le_of_suffix hrest)
      | _ => trivial

/-- Behind an opening bracket there is a level less. -/
theorem Leaves.of_opened {step : Step α} {c : Char} (h : Leaves (levels - 1) rest step)
    (hrest : rest <:+ text) (hopens : opens c = true) : Leaves levels (c :: text) step := by
  have hleaves := h.of_suffix hrest
  cases step with
  | ok read => exact List.IsSuffix.trans hleaves (List.suffix_cons c text)
  | error e =>
      cases e with
      | integerTooLong => exact HasLongRun.of_suffix hleaves (List.suffix_cons c text)
      | tooDeep =>
          have hdeep : levels - 1 < openings text := hleaves
          show levels < openings (c :: text)
          rw [openings, List.countP_cons_of_pos hopens, ← openings]
          omega
      | _ => trivial

/-- What stands after a mark and the blanks before it. -/
theorem suffix_of_mark {after : List Char} {mark : Char} (h : skipSpace after = mark :: rest)
    (hafter : after <:+ text) : rest <:+ text := by
  have hspace := skipSpace_suffix after
  rw [h] at hspace
  exact ((List.suffix_cons mark rest).trans hspace).trans hafter

/-- What is not read by a call is not read by its caller. -/
theorem Leaves.error {e : ReadError} (h : Leaves levels text (.error e : Step α)) {β : Type} :
    Leaves levels text (.error e : Step β) := by
  cases e <;> exact h

theorem leaves_quotedRest (levels fuel : Nat) (done text : List Char) :
    Leaves levels text (quotedRest fuel done text) := by
  cases h : quotedRest fuel done text with
  | ok read => exact quotedRest_suffix h
  | error e =>
      have hmalformed : e = .malformed := by
        induction fuel generalizing done text with
        | zero => exact (Except.error.inj h).symm
        | succ fuel ih =>
            cases text with
            | nil => exact (Except.error.inj h).symm
            | cons c text =>
                unfold quotedRest at h
                split at h
                · cases h
                · split at h
                  · split at h
                    · exact ih _ _ h
                    · exact (Except.error.inj h).symm
                  · split at h
                    · exact (Except.error.inj h).symm
                    · exact ih _ _ h
      rw [hmalformed]
      trivial

/-- The digits of a whole part stand at the beginning of its text. -/
theorem wholePart?_digits {whole : List Char} (h : wholePart? text = some (whole, rest)) :
    whole <+: text ∧ ∀ c ∈ whole, isDigit c = true := by
  cases text with
  | nil => cases h
  | cons c text =>
      simp only [wholePart?] at h
      split at h
      · rename_i hzero
        obtain ⟨rfl, -⟩ := Prod.mk.inj (Option.some.inj h)
        refine ⟨⟨text, by rw [hzero]; rfl⟩, ?_⟩
        intro d hd
        rw [List.mem_singleton.mp hd]
        rfl
      · split at h
        · rename_i hdigit
          obtain ⟨rfl, -⟩ := Prod.mk.inj (Option.some.inj h)
          refine ⟨(List.prefix_cons_inj c).mpr (List.takeWhile_prefix _), fun d hd => ?_⟩
          rcases List.mem_cons.mp hd with rfl | hd
          · exact hdigit
          · exact List.all_eq_true.mp List.all_takeWhile d hd
        · cases h

theorem leaves_number (levels : Nat) (negative : Bool) (text : List Char) :
    Leaves levels text (number negative text) := by
  cases h : number negative text with
  | ok read => exact (number_size h).2
  | error e =>
      unfold number at h
      split at h
      · obtain rfl := Except.error.inj h
        trivial
      · rename_i whole afterWhole hwhole
        simp only at h
        split at h
        · cases h
        · split at h
          · cases h
          · split at h
            · rename_i hlong
              obtain rfl := Except.error.inj h
              obtain ⟨hbegins, hdigits⟩ := wholePart?_digits hwhole
              exact ⟨whole, hbegins.isInfix, hdigits, hlong⟩
            · cases h

theorem leaves_scalar (levels : Nat) (text : List Char) : Leaves levels text (scalar text) := by
  cases h : scalar text with
  | ok read => exact (scalar_size h).2
  | error e =>
      unfold scalar at h
      split at h
      · cases h
      · rw [← h]
        split
        · exact (leaves_number levels true _).of_suffix (List.suffix_cons ..)
        · exact leaves_number levels false _

/-! ## Values -/

/-- What one call of the reader leaves, whatever the fuel. -/
structure Located (fuel : Nat) : Prop where
  value : ∀ levels text, Leaves levels text (value fuel levels text)
  items : ∀ levels done text, Leaves levels text (items fuel levels done text)
  fields : ∀ levels done text, Leaves levels text (fields fuel levels done text)

theorem Located.value_succ {fuel : Nat} (ih : Located fuel) (levels : Nat) (text : List Char) :
    Leaves levels text (Reader.value (fuel + 1) levels text) := by
  cases text with
  | nil => trivial
  | cons c text =>
      have hcons : text <:+ c :: text := List.suffix_cons ..
      unfold Reader.value
      split
      · have hquoted := (leaves_quotedRest levels (text.length + 1) [] text).of_suffix hcons
        split
        · rename_i hread
          rw [hread] at hquoted
          exact hquoted
        · rename_i hread
          rw [hread] at hquoted
          exact hquoted.error
      · split
        · rename_i hdeep
          obtain ⟨hopens, hlevels⟩ := Bool.and_eq_true_iff.mp hdeep
          rw [beq_iff_eq.mp hlevels]
          exact List.countP_pos_iff.mpr ⟨c, List.mem_cons_self, hopens⟩
        split
        · rename_i hbracket
          split
          · rename_i hclose
            exact suffix_of_mark hclose hcons
          · exact (ih.items _ _ _).of_opened (skipSpace_suffix text) (by rw [hbracket]; rfl)
        · split
          · rename_i hbrace
            split
            · rename_i hopen
              split
              · exact suffix_of_mark hopen hcons
              · rw [← hopen]
                exact (ih.fields _ _ _).of_opened (skipSpace_suffix text) (by rw [hbrace]; rfl)
            · trivial
          · exact leaves_scalar _ _

theorem Located.items_succ {fuel : Nat} (ih : Located fuel) (levels : Nat) (done : List Json)
    (text : List Char) : Leaves levels text (Reader.items (fuel + 1) levels done text) := by
  have hitem := ih.value levels text
  unfold Reader.items
  split
  · rename_i hread
    rw [hread] at hitem
    exact hitem
  · rename_i item after hread
    rw [hread] at hitem
    split
    · rename_i next hcomma
      have hnext := (skipSpace_suffix next).trans (suffix_of_mark hcomma hitem)
      exact (ih.items _ _ _).of_suffix hnext
    · rename_i hclose
      exact suffix_of_mark hclose hitem
    · trivial

theorem Located.fields_succ {fuel : Nat} (ih : Located fuel) (levels : Nat)
    (done : List (String × Json)) (text : List Char) :
    Leaves levels text (Reader.fields (fuel + 1) levels done text) := by
  cases text with
  | nil => trivial
  | cons c text =>
      have hkey :=
        (leaves_quotedRest levels (text.length + 1) [] text).of_suffix (List.suffix_cons c text)
      unfold Reader.fields
      split
      · split
        · rename_i hread
          rw [hread] at hkey
          exact hkey.error
        · rename_i key afterKey hread
          rw [hread] at hkey
          split
          · rename_i afterColon hcolon
            have hstart := (skipSpace_suffix afterColon).trans (suffix_of_mark hcolon hkey)
            have hitem := (ih.value levels (skipSpace afterColon)).of_suffix hstart
            split
            · rename_i hread
              rw [hread] at hitem
              exact hitem
            · rename_i item after hread
              rw [hread] at hitem
              split
              · rename_i next hcomma
                have hnext := (skipSpace_suffix next).trans (suffix_of_mark hcomma hitem)
                exact (ih.fields _ _ _).of_suffix hnext
              · rename_i hclose
                split
                · exact suffix_of_mark hclose hitem
                · trivial
              · trivial
          · trivial
      · trivial

theorem located (fuel : Nat) : Located fuel := by
  induction fuel with
  | zero => exact ⟨fun _ _ => trivial, fun _ _ _ => trivial, fun _ _ _ => trivial⟩
  | succ fuel ih => exact ⟨ih.value_succ, ih.items_succ, ih.fields_succ⟩

end Reader

theorem leaves_read (text : List Char) (levels : Nat) {e : ReadError}
    (h : read text levels = .error e) : Reader.Leaves levels text (.error e : Reader.Step Json) := by
  have hspace := Reader.skipSpace_suffix text
  have hvalue := ((Reader.located (2 * (Reader.skipSpace text).length + 1)).value levels
    (Reader.skipSpace text)).of_suffix hspace
  unfold read at h
  simp only at h
  split at h
  · rename_i hread
    rw [hread, Except.error.inj h] at hvalue
    exact hvalue
  · split at h
    · cases h
    · obtain rfl := Except.error.inj h
      trivial

/-- An integer is too long only if its digits are there. -/
theorem hasLongRun_of_read {text : List Char} {levels : Nat}
    (h : read text levels = .error .integerTooLong) : HasLongRun text :=
  leaves_read text levels h

/-- A text is too deep only if more lists and objects open in it than there
are levels. -/
theorem lt_openings_of_read {text : List Char} {levels : Nat}
    (h : read text levels = .error .tooDeep) : levels < openings text :=
  leaves_read text levels h

/-- A bracket more than there are levels is too deep, whatever the limit. -/
theorem read_replicate (levels : Nat) :
    read (List.replicate (levels + 1) '[') levels = .error .tooDeep := by
  have hvalue (fuel : Nat) : Reader.value (fuel + 2 * levels + 1) levels
      (List.replicate (levels + 1) '[') = .error .tooDeep := by
    induction levels with
    | zero => rfl
    | succ levels ih =>
        have hitems : Reader.items (fuel + 2 * levels + 2) levels []
            (List.replicate (levels + 1) '[') = .error .tooDeep := by
          rw [Reader.items, ih]
        exact hitems
  have hspace : Reader.skipSpace (List.replicate (levels + 1) '[') =
      List.replicate (levels + 1) '[' := rfl
  simp only [read, hspace, List.length_replicate]
  rw [show 2 * (levels + 1) + 1 = 2 + 2 * levels + 1 by omega, hvalue 2]

end SolDeployer.Json
