import Mathlib.Data.List.Infix
import SolDeployer.Proofs.Solidity.InitcodeReader

/-!
# Reading comments

A comment ends at the first `*/` after the mark that opens it. So a
comment goes as far as its writer meant exactly if this mark stands in it
only at its end (`afterEnd?_eq_after`). Where a mark stands in a text made of
lines, it stands in one of the lines: neither the end of a line nor a blank
is part of it.
-/

namespace SolDeployer.Solidity

/-- The characters that end a comment. -/
def endMark : List Char := ['*', '/']

/-- What stands after the first mark that ends a comment. -/
def afterEnd? : List Char → Option (List Char)
  | '*' :: '/' :: rest => some rest
  | _ :: rest => afterEnd? rest
  | [] => none

/-- What stands after the comment that a text begins with. -/
def afterComment? : List Char → Option (List Char)
  | '/' :: '*' :: rest => afterEnd? rest
  | _ => none

theorem endMark_infix_cons {c : Char} {text : List Char} :
    endMark <:+: c :: text ↔ (c = '*' ∧ text.head? = some '/') ∨ endMark <:+: text := by
  rw [List.infix_cons_iff]
  refine or_congr_left ?_
  cases text with
  | nil => simp [endMark]
  | cons next rest => simp [endMark, eq_comm]

/-- A character that is not part of the mark keeps two texts apart. -/
theorem endMark_infix_append {c : Char} (hstar : c ≠ '*') (hslash : c ≠ '/')
    (before after : List Char) :
    endMark <:+: before ++ c :: after ↔ endMark <:+: before ∨ endMark <:+: after := by
  induction before with
  | nil =>
      rw [List.nil_append, endMark_infix_cons]
      simp [hstar, endMark]
  | cons first rest ih =>
      have hhead : (rest ++ c :: after).head? = some '/' ↔ rest.head? = some '/' := by
        cases rest with
        | nil => simp [hslash]
        | cons next rest => rfl
      rw [List.cons_append, endMark_infix_cons, ih, hhead, endMark_infix_cons, or_assoc]

/-- A mark in several lines stands in one of them. -/
theorem endMark_infix_lines {lines : List (List Char)} :
    endMark <:+: ['\n'].intercalate lines ↔ ∃ line ∈ lines, endMark <:+: line := by
  induction lines with
  | nil => simp [endMark]
  | cons line rest ih =>
      cases rest with
      | nil => simp
      | cons next rest =>
          rw [List.intercalate_cons_cons, List.append_assoc, List.singleton_append,
            endMark_infix_append (by decide) (by decide), ih]
          simp only [List.mem_cons, exists_eq_or_imp]

/-! ## Where a comment ends -/

theorem afterEnd?_cons (c : Char) (text : List Char) :
    afterEnd? (c :: text) =
      if c = '*' ∧ text.head? = some '/' then some text.tail else afterEnd? text := by
  by_cases hmark : c = '*' ∧ text.head? = some '/'
  · obtain ⟨rfl, hhead⟩ := hmark
    obtain ⟨rest, rfl⟩ := List.head?_eq_some_iff.mp hhead
    rfl
  · rw [if_neg hmark, afterEnd?]
    rintro rest rfl rfl
    exact hmark ⟨rfl, rfl⟩

theorem isSome_afterEnd? {text : List Char} : (afterEnd? text).isSome ↔ endMark <:+: text := by
  induction text with
  | nil => simp [afterEnd?, endMark]
  | cons c rest ih =>
      rw [afterEnd?_cons, endMark_infix_cons, ← ih]
      split
      · simp [*]
      · simp [*]

theorem afterEnd?_append {text rest : List Char} (h : afterEnd? text = some rest)
    (more : List Char) : afterEnd? (text ++ more) = some (rest ++ more) := by
  induction text with
  | nil => cases h
  | cons c text ih =>
      rw [afterEnd?_cons] at h
      rw [List.cons_append, afterEnd?_cons]
      split at h
      · rename_i hmark
        obtain ⟨tail, rfl⟩ := List.head?_eq_some_iff.mp hmark.2
        obtain rfl := Option.some.inj h
        rw [if_pos ⟨hmark.1, rfl⟩]
        rfl
      · rename_i hmark
        have hrest := ih h
        cases text with
        | nil => cases h
        | cons next tail => exact (if_neg hmark).trans hrest

/-- A comment with one mark is read to its end. -/
theorem afterEnd?_of_clean {body : List Char} (h : ¬endMark <:+: body ++ ['*'])
    (after : List Char) : afterEnd? (body ++ endMark ++ after) = some after := by
  induction body with
  | nil => rfl
  | cons c rest ih =>
      rw [List.cons_append, endMark_infix_cons, not_or] at h
      obtain ⟨hfirst, hrest⟩ := h
      rw [List.cons_append, List.cons_append, afterEnd?_cons, ih hrest, if_neg]
      rintro ⟨hstar, hslash⟩
      refine hfirst ⟨hstar, ?_⟩
      cases rest with
      | nil => cases hslash
      | cons next rest => exact hslash

/-- A comment is read to its end exactly if there is no mark before. -/
theorem afterEnd?_eq_after {body after : List Char} :
    afterEnd? (body ++ endMark ++ after) = some after ↔ ¬endMark <:+: body ++ ['*'] := by
  refine ⟨fun hread hmark => ?_, fun hclean => afterEnd?_of_clean hclean after⟩
  obtain ⟨rest, hrest⟩ := Option.isSome_iff_exists.mp (isSome_afterEnd?.mpr hmark)
  have hearly := afterEnd?_append hrest ('/' :: after)
  rw [List.append_assoc, List.singleton_append] at hearly
  rw [List.append_assoc] at hread
  have heq : rest ++ '/' :: after = after := Option.some.inj (hearly.symm.trans hread)
  have hlength := congrArg List.length heq
  simp only [List.length_append, List.length_cons] at hlength
  omega

/-- A mark at the end of a text is its only one exactly if there is none in
the text without its last character. -/
theorem endMark_only_last {text : List Char} :
    (∀ before after, text ++ ['/'] = before ++ endMark ++ after → after = []) ↔
      ¬endMark <:+: text := by
  constructor
  · rintro honly ⟨before, after, heq⟩
    have hnil := honly before (after ++ ['/']) (by rw [← List.append_assoc, heq])
    simp at hnil
  · intro hclean before after heq
    rcases List.eq_nil_or_concat after with rfl | ⟨rest, last, rfl⟩
    · rfl
    · rw [List.concat_eq_append, ← List.append_assoc] at heq
      exact absurd ⟨before, rest, (List.append_inj_left' heq rfl).symm⟩ hclean

end SolDeployer.Solidity
