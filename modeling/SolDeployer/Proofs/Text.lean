import Mathlib.Data.List.Basic
import SolDeployer.Text.Integer
import SolDeployer.Text.Lowercase

/-!
# Laws of characters

What holds of all characters below a bound is checked one by one. Small
letters of a text without others are those of its characters: the final
form of a letter, which depends on the letters around it, does not occur.
Digits come off a text as far as they go. A number is written if it has few
enough digits.
-/

namespace SolDeployer.Text

theorem of_small {P : Char → Prop} {bound : Nat} (h : ∀ n : Fin bound, P (Char.ofNat n)) {c : Char}
    (hc : c.toNat < bound) : P c := by
  have hchar := h ⟨c.toNat, hc⟩
  rwa [Char.ofNat_toNat] at hchar

theorem lowerAfter_ascii : ∀ {before text : List Char}, (∀ c ∈ text, c.toNat < 128) →
    lowerAfter before text = text.flatMap lowerChar
  | _, [], _ => rfl
  | before, c :: rest, h => by
      have hc := h c (List.mem_cons_self ..)
      have hrest : lowerAfter (c :: before) rest = rest.flatMap lowerChar :=
        lowerAfter_ascii fun other hmem => h other (List.mem_cons_of_mem _ hmem)
      rw [lowerAfter, if_neg (by omega), hrest, List.flatMap_cons]

theorem lower_ascii {text : List Char} (h : ∀ c ∈ text, c.toNat < 128) :
    lower text = text.flatMap lowerChar := lowerAfter_ascii h

/-- Digits come off a text that goes on with something else. -/
theorem span_digits {digits rest : List Char} (h : ∀ c ∈ digits, isDigit c = true)
    (hrest : rest.takeWhile isDigit = []) :
    (digits ++ rest).takeWhile isDigit = digits ∧
      (digits ++ rest).dropWhile isDigit = rest := by
  have hdrop : rest.dropWhile isDigit = rest := by
    have hsplit := List.takeWhile_append_dropWhile (p := isDigit) (l := rest)
    rwa [hrest, List.nil_append] at hsplit
  refine ⟨?_, ?_⟩
  · rw [List.takeWhile_append_of_pos h, hrest, List.append_nil]
  · rw [List.dropWhile_append_of_pos h, hdrop]

/-- Has a number no more digits than can be written? -/
def IsWritable (n : Int) : Prop := n.natAbs < Nat.pow 10 maxDecimalDigits

theorem decimal?_of_isWritable {n : Int} (h : IsWritable n) : decimal? n = some (toString n) :=
  if_pos h

theorem decimal?_of_not_isWritable {n : Int} (h : ¬IsWritable n) : decimal? n = none := if_neg h

end SolDeployer.Text
