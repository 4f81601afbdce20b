import Mathlib.Logic.Basic
import SolDeployer.Files.Glob

/-!
# Names that match a pattern

A pattern is gone through from its end, with the answers for all ends of the name
at once. What each answer means is a property of the end that it is for
(`Answers`), and a part of a pattern takes one such property to another. So the
answer for the whole name is that the parts can be laid along it (`Matches`).

A pattern in which no character is special has one name that matches: itself.
-/

namespace SolDeployer.Files.Glob

/-- The parts of a pattern can be laid along a name: a star over any characters,
every other part over one that it stands for. -/
inductive Matches : List Item → List Char → Prop
  | nil : Matches [] []
  | star (skipped : List Char) {items : List Item} {name : List Char}
      (hrest : Matches items name) : Matches (.star :: items) (skipped ++ name)
  | one {item : Item} {c : Char} {items : List Item} {name : List Char} (hitem : item ≠ .star)
      (hc : item.takes c = true) (hrest : Matches items name) : Matches (item :: items) (c :: name)

section

variable {items : List Item} {item : Item} {name : List Char}

theorem matches_nil : Matches [] name ↔ name = [] := by
  constructor
  · rintro ⟨⟩
    rfl
  · rintro rfl
    exact .nil

theorem matches_star : Matches (.star :: items) name ↔
    ∃ skipped rest, name = skipped ++ rest ∧ Matches items rest := by
  constructor
  · rintro (_ | ⟨skipped, hrest⟩ | ⟨hstar, -, -⟩)
    · exact ⟨skipped, _, rfl, hrest⟩
    · exact absurd rfl hstar
  · rintro ⟨skipped, rest, rfl, hrest⟩
    exact .star skipped hrest

theorem matches_one (hitem : item ≠ .star) : Matches (item :: items) name ↔
    ∃ c rest, name = c :: rest ∧ item.takes c = true ∧ Matches items rest := by
  constructor
  · rintro (_ | ⟨skipped, hrest⟩ | ⟨-, hc, hrest⟩)
    · exact absurd rfl hitem
    · exact ⟨_, _, rfl, hc, hrest⟩
  · rintro ⟨c, rest, rfl, hc, hrest⟩
    exact .one hitem hc hrest

end

/-! ## The answers for all ends -/

/-- The answers tell of each end of a text, the longest first, whether it has a
property. -/
def Answers (P : List Char → Prop) : List Char → List Bool → Prop
  | [], answers => ∃ answer, answers = [answer] ∧ (answer = true ↔ P [])
  | c :: text, answers => ∃ answer rest, answers = answer :: rest ∧ (answer = true ↔ P (c :: text)) ∧
    Answers P text rest

section

variable {P Q : List Char → Prop} {text : List Char} {answers : List Bool}

theorem Answers.head (h : Answers P text answers) : answers.headD false = true ↔ P text := by
  cases text with
  | nil =>
      obtain ⟨answer, rfl, hanswer⟩ := h
      exact hanswer
  | cons c text =>
      obtain ⟨answer, rest, rfl, hanswer, -⟩ := h
      exact hanswer

theorem Answers.congr (h : Answers P text answers) (hPQ : ∀ name, P name ↔ Q name) :
    Answers Q text answers := by
  rwa [← show P = Q from funext fun name => propext (hPQ name)]

/-- Only the empty end is empty. -/
theorem answers_empty (text : List Char) :
    Answers (· = []) text (text.map (fun _ => false) ++ [true]) := by
  induction text with
  | nil => exact ⟨true, rfl, by simp⟩
  | cons c text ih => exact ⟨false, _, rfl, by simp, ih⟩

theorem Answers.afterOne (h : Answers P text answers) (test : Char → Bool) :
    Answers (fun name => ∃ c rest, name = c :: rest ∧ test c = true ∧ P rest) text
      (Glob.afterOne test text answers) := by
  induction text generalizing answers with
  | nil =>
      obtain ⟨answer, rfl, -⟩ := h
      exact ⟨false, rfl, by simp⟩
  | cons c text ih =>
      obtain ⟨answer, rest, rfl, -, hrest⟩ := h
      refine ⟨test c && rest.headD false, _, rfl, ?_, ih hrest⟩
      rw [Bool.and_eq_true, hrest.head]
      constructor
      · rintro ⟨hc, hP⟩
        exact ⟨c, text, rfl, hc, hP⟩
      · rintro ⟨_, _, heq, hc, hP⟩
        obtain ⟨rfl, rfl⟩ := List.cons.inj heq
        exact ⟨hc, hP⟩

theorem Answers.orLater (h : Answers P text answers) :
    Answers (fun name => ∃ skipped rest, name = skipped ++ rest ∧ P rest) text
      (Glob.orLater answers) := by
  induction text generalizing answers with
  | nil =>
      obtain ⟨answer, rfl, hanswer⟩ := h
      refine ⟨answer || false, rfl, ?_⟩
      rw [Bool.or_false, hanswer]
      constructor
      · intro hP
        exact ⟨[], [], rfl, hP⟩
      · rintro ⟨skipped, rest, heq, hP⟩
        rwa [(List.append_eq_nil_iff.mp heq.symm).2] at hP
  | cons c text ih =>
      obtain ⟨answer, rest, rfl, hanswer, hrest⟩ := h
      refine ⟨answer || (Glob.orLater rest).headD false, _, rfl, ?_, ih hrest⟩
      rw [Bool.or_eq_true, hanswer, (ih hrest).head]
      constructor
      · rintro (hP | ⟨skipped, later, rfl, hP⟩)
        · exact ⟨[], c :: text, rfl, hP⟩
        · exact ⟨c :: skipped, later, rfl, hP⟩
      · rintro ⟨skipped, later, heq, hP⟩
        cases skipped with
        | nil => exact .inl (by rwa [← List.nil_append later, ← heq] at hP)
        | cons d skipped =>
            obtain ⟨rfl, rfl⟩ := List.cons.inj heq
            exact .inr ⟨skipped, later, rfl, hP⟩

end

theorem answers_matchingEnds (items : List Item) (text : List Char) :
    Answers (Matches items) text (matchingEnds items text) := by
  induction items with
  | nil => exact (answers_empty text).congr fun name => matches_nil.symm
  | cons item items ih =>
      by_cases hitem : item = .star
      · subst hitem
        exact ih.orLater.congr fun name => matches_star.symm
      · have hends : matchingEnds (item :: items) text =
            Glob.afterOne item.takes text (matchingEnds items text) := by
          cases item with
          | star => exact absurd rfl hitem
          | _ => rfl
        rw [hends]
        exact (ih.afterOne item.takes).congr fun name => (matches_one hitem).symm

theorem matchesItems_iff {items : List Item} {name : List Char} :
    matchesItems items name = true ↔ Matches items name :=
  (answers_matchingEnds items name).head

/-! ## Patterns without special characters -/

/-- No character of the text is special in a pattern. -/
def IsPlain (text : List Char) : Prop := ∀ c ∈ text, c ∉ "*?[".toList

instance (text : List Char) : Decidable (IsPlain text) := List.decidableBAll _ text

theorem itemsUpTo_plain : ∀ {fuel : Nat} {text : List Char}, IsPlain text → text.length ≤ fuel →
    itemsUpTo fuel text = text.map .char
  | 0, [], _, _ => rfl
  | 0, _ :: _, _, hfuel => nomatch hfuel
  | _ + 1, [], _, _ => rfl
  | fuel + 1, c :: rest, hplain, hfuel => by
      have hc := hplain c List.mem_cons_self
      have hspecial : c ≠ '*' ∧ c ≠ '?' ∧ c ≠ '[' := by
        refine ⟨?_, ?_, ?_⟩ <;> (rintro rfl; exact hc (by decide))
      have hrest : itemsUpTo fuel rest = rest.map .char :=
        itemsUpTo_plain (fun d hmem => hplain d (List.mem_cons_of_mem _ hmem))
          (Nat.le_of_succ_le_succ hfuel)
      rw [itemsUpTo, if_neg hspecial.1, if_neg hspecial.2.1, if_neg hspecial.2.2, hrest]
      rfl

theorem items_plain {text : List Char} (h : IsPlain text) : items text = text.map .char :=
  itemsUpTo_plain h (Nat.le_refl _)

theorem matches_chars {text name : List Char} : Matches (text.map .char) name ↔ name = text := by
  induction text generalizing name with
  | nil => exact matches_nil
  | cons c text ih =>
      rw [List.map_cons, matches_one (by simp)]
      constructor
      · rintro ⟨d, rest, rfl, hd, hrest⟩
        rw [ih.mp hrest, beq_iff_eq.mp hd]
      · rintro rfl
        exact ⟨c, text, rfl, beq_self_eq_true c, ih.mpr rfl⟩

theorem matches_plain {text name : List Char} (h : IsPlain text) :
    Matches (items text) name ↔ name = text := by
  rw [items_plain h, matches_chars]

theorem hasDoubleStar_plain {text : List Char} (h : IsPlain text) : hasDoubleStar text = false := by
  induction text using hasDoubleStar.induct with
  | case1 rest => exact absurd (by decide) (h '*' List.mem_cons_self)
  | case2 c rest hnot ih =>
      rw [hasDoubleStar]
      · exact ih fun d hmem => h d (List.mem_cons_of_mem _ hmem)
      · exact hnot
  | case3 => rfl

end SolDeployer.Files.Glob
