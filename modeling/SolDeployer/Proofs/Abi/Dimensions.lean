import Mathlib.Data.List.Basic
import SolDeployer.Abi.TypeText

/-!
# Dimensions of array types

The text of an array type is a base and dimensions, and there is one way only
to read it so: dimensions begin with a bracket, so none of them begins inside
of another (`IsDimensions.left`), and where the dimensions begin at the
earliest, the base before them ends in none (`base_unique`). What is taken off
a text are these dimensions, all of them (`stripDimensions_split`). The rest
of what is said about stripped types follows from the two facts.

A text may have brackets that are not closed, or brackets with something other
than digits between them, and dimensions behind these. No such text needs a
case of its own. The end of a line behind the dimensions does, since it is
left where it was, so it is excluded where it matters.
-/

namespace SolDeployer.Abi

open TypeText

/-- The dimensions of an array type, one after the other: brackets with the
digits of a size between them, or with nothing. -/
inductive IsDimensions : List Char → Prop
  | nil : IsDimensions []
  | cons {digits rest : List Char} (hdigits : ∀ c ∈ digits, Text.isDigit c = true)
      (hrest : IsDimensions rest) : IsDimensions ('[' :: (digits ++ ']' :: rest))

/-- A dimension is the last thing in the text. -/
def EndsInDimension (text : List Char) : Prop :=
  ∃ before digits, (∀ c ∈ digits, Text.isDigit c = true) ∧
    text = before ++ '[' :: (digits ++ [']'])

section

variable {text base other suffix middle digits rest : List Char}

/-! ## One way to read a text -/

theorem isDigit_open : Text.isDigit '[' = false := by decide +kernel

theorem isDigit_close : Text.isDigit ']' = false := by decide +kernel

theorem IsDimensions.append (h : IsDimensions middle) (hsuffix : IsDimensions suffix) :
    IsDimensions (middle ++ suffix) := by
  induction h with
  | nil => exact hsuffix
  | cons hdigits _ ih =>
      rw [List.cons_append, List.append_assoc, List.cons_append]
      exact .cons hdigits ih

/-- What begins inside of brackets is no text of dimensions. -/
theorem not_isDimensions_inside (hdigits : ∀ c ∈ digits, Text.isDigit c = true) :
    ¬ IsDimensions (digits ++ ']' :: rest) := by
  intro h
  generalize htext : digits ++ ']' :: rest = text at h
  cases h with
  | nil => exact List.cons_ne_nil _ _ (List.append_eq_nil_iff.mp htext).2
  | cons _ _ =>
      cases digits with
      | nil => exact absurd (List.cons.inj htext).1 (by decide)
      | cons c digits =>
          have hdigit := hdigits c List.mem_cons_self
          rw [(List.cons.inj htext).1, isDigit_open] at hdigit
          cases hdigit

/-- Dimensions without the last ones of them are dimensions. -/
theorem IsDimensions.left (h : IsDimensions (middle ++ suffix)) (hsuffix : IsDimensions suffix) :
    IsDimensions middle := by
  generalize htext : middle ++ suffix = text at h
  induction h generalizing middle with
  | nil =>
      rw [(List.append_eq_nil_iff.mp htext).1]
      exact .nil
  | @cons digits rest hdigits hrest ih =>
      cases middle with
      | nil => exact .nil
      | cons c middle =>
          obtain ⟨rfl, htail⟩ := List.cons.inj htext
          rcases List.append_eq_append_iff.mp htail with ⟨inside, rfl, rfl⟩ | ⟨after, rfl, hafter⟩
          · have hinside : ∀ c ∈ inside, Text.isDigit c = true := fun c hc =>
              hdigits c (List.mem_append_right _ hc)
            exact absurd hsuffix (not_isDimensions_inside hinside)
          · cases after with
            | nil =>
                rw [List.nil_append] at hafter
                rw [← hafter] at hsuffix
                exact absurd hsuffix (@not_isDimensions_inside [] rest nofun)
            | cons d after =>
                obtain ⟨rfl, hrest'⟩ := List.cons.inj hafter
                exact .cons hdigits (ih hrest'.symm)

theorem IsDimensions.endsInDimension (h : IsDimensions suffix) (hne : suffix ≠ [])
    (before : List Char) : EndsInDimension (before ++ suffix) := by
  induction h generalizing before with
  | nil => exact absurd rfl hne
  | @cons digits rest hdigits hrest ih =>
      by_cases hrest' : rest = []
      · exact ⟨before, digits, hdigits, by rw [hrest']⟩
      · have hends := ih hrest' (before ++ '[' :: (digits ++ [']']))
        rwa [List.append_assoc, List.cons_append, List.append_assoc] at hends

theorem EndsInDimension.getLast? (h : EndsInDimension text) : text.getLast? = some ']' := by
  obtain ⟨before, digits, -, rfl⟩ := h
  rw [← List.cons_append, ← List.append_assoc, List.getLast?_concat]

theorem not_endsInDimension_nil : ¬ EndsInDimension [] := fun h => by cases h.getLast?

theorem EndsInDimension.cases_cons {c : Char} (h : EndsInDimension (c :: rest)) :
    IsDimensions (c :: rest) ∨ EndsInDimension rest := by
  obtain ⟨before, digits, hdigits, heq⟩ := h
  cases before with
  | nil =>
      rw [heq]
      exact .inl (.cons hdigits .nil)
  | cons d before =>
      obtain ⟨-, rfl⟩ := List.cons.inj heq
      exact .inr ⟨before, digits, hdigits, rfl⟩

/-- A text is a base and dimensions in one way only. -/
theorem base_unique (hbase : ¬ EndsInDimension base) (hother : ¬ EndsInDimension other)
    (hsuffix : IsDimensions suffix) (hrest : IsDimensions rest)
    (h : base ++ suffix = other ++ rest) : base = other := by
  rcases List.append_eq_append_iff.mp h with ⟨middle, rfl, rfl⟩ | ⟨middle, rfl, rfl⟩
  · by_cases hmiddle : middle = []
    · rw [hmiddle, List.append_nil]
    · exact absurd ((hsuffix.left hrest).endsInDimension hmiddle base) hother
  · by_cases hmiddle : middle = []
    · rw [hmiddle, List.append_nil]
    · exact absurd ((hrest.left hsuffix).endsInDimension hmiddle other) hbase

/-! ## The reader of dimensions -/

theorem areDimensions_digits (h : ∀ c ∈ digits, Text.isDigit c = true) :
    areDimensions true (digits ++ rest) = areDimensions true rest := by
  induction digits with
  | nil => rfl
  | cons c digits ih =>
      have hdigit := h c List.mem_cons_self
      have hne : c ≠ ']' := by
        rintro rfl
        rw [isDigit_close] at hdigit
        cases hdigit
      rw [List.cons_append, areDimensions]
      · rw [hdigit, Bool.true_and]
        exact ih fun other hother => h other (List.mem_cons_of_mem _ hother)
      · exact hne

theorem IsDimensions.areDimensions (h : IsDimensions text) :
    TypeText.areDimensions false text = true := by
  induction h with
  | nil => rfl
  | cons hdigits _ ih =>
      change TypeText.areDimensions true (_ ++ ']' :: _) = true
      rw [areDimensions_digits hdigits]
      exact ih

theorem IsDimensions.cons_digit {c : Char} (h : IsDimensions ('[' :: rest))
    (hdigit : Text.isDigit c = true) : IsDimensions ('[' :: c :: rest) := by
  generalize htext : '[' :: rest = text at h
  cases h with
  | nil => cases htext
  | @cons digits after hdigits hafter =>
      obtain ⟨-, rfl⟩ := List.cons.inj htext
      have hmore : ∀ d ∈ c :: digits, Text.isDigit d = true :=
        List.forall_mem_cons.mpr ⟨hdigit, hdigits⟩
      exact .cons hmore hafter

theorem getLast?_tail_ne {c last : Char} (h : (c :: rest).getLast? ≠ some last) :
    rest.getLast? ≠ some last := by
  intro hrest
  rw [List.getLast?_cons, hrest] at h
  exact h rfl

/-- What the reader has passed of a dimension that is opened is its bracket,
up to digits. -/
theorem isDimensions_of_areDimensions {opened : Bool} (h : areDimensions opened text = true)
    (hline : text.getLast? ≠ some '\n') : IsDimensions (if opened then '[' :: text else text) := by
  fun_induction areDimensions opened text with
  | case1 => exact .nil
  | case2 => exact absurd rfl hline
  | case3 rest ih => exact ih h (getLast?_tail_ne hline)
  | case4 rest ih => exact @IsDimensions.cons [] rest nofun (ih h (getLast?_tail_ne hline))
  | case5 c rest hclose ih =>
      obtain ⟨hdigit, hrest⟩ := Bool.and_eq_true_iff.mp h
      exact (ih hrest (getLast?_tail_ne hline)).cons_digit hdigit
  | case6 => cases h

theorem getLast?_append_dimensions (h : IsDimensions suffix)
    (hline : text.getLast? ≠ some '\n') : (text ++ suffix).getLast? ≠ some '\n' := by
  by_cases hne : suffix = []
  · rwa [hne, List.append_nil]
  · rw [(h.endsInDimension hne text).getLast?]
    decide

theorem isDimensions_iff :
    IsDimensions text ↔ areDimensions false text = true ∧ text.getLast? ≠ some '\n' := by
  constructor
  · exact fun h => ⟨h.areDimensions, @getLast?_append_dimensions [] text h nofun⟩
  · exact fun ⟨h, hline⟩ => isDimensions_of_areDimensions h hline

instance (text : List Char) : Decidable (IsDimensions text) :=
  decidable_of_iff _ isDimensions_iff.symm

theorem startsDimensions_of_ne {c : Char} (h : c ≠ '[') (rest : List Char) :
    startsDimensions (c :: rest) = false := by
  unfold startsDimensions
  split
  · rename_i heq
    exact absurd (List.cons.inj heq).1 h
  · rfl

theorem startsDimensions_iff (hline : text.getLast? ≠ some '\n') :
    startsDimensions text = true ↔ IsDimensions text ∧ text ≠ [] := by
  unfold startsDimensions
  split
  · rw [isDimensions_iff]
    exact ⟨fun h => ⟨⟨h, hline⟩, List.cons_ne_nil _ _⟩, fun h => h.1.1⟩
  · rename_i hopen
    refine iff_of_false Bool.false_ne_true fun ⟨h, hne⟩ => ?_
    cases h with
    | nil => exact hne rfl
    | cons => exact hopen _ rfl

/-! ## Bases -/

/-- A text is its base and the dimensions that are taken off. -/
theorem stripDimensions_split (hline : text.getLast? ≠ some '\n') :
    ¬ EndsInDimension (stripDimensions text) ∧
      ∃ suffix, IsDimensions suffix ∧ text = stripDimensions text ++ suffix := by
  induction text with
  | nil => exact ⟨not_endsInDimension_nil, [], .nil, rfl⟩
  | cons c rest ih =>
      obtain ⟨hbase, suffix, hsuffix, hrest⟩ := ih (getLast?_tail_ne hline)
      by_cases hstarts : startsDimensions (c :: rest) = true
      · rw [stripDimensions, if_pos hstarts, lineEnd, if_neg hline]
        exact ⟨not_endsInDimension_nil, _, ((startsDimensions_iff hline).mp hstarts).1, rfl⟩
      · rw [stripDimensions, if_neg hstarts]
        refine ⟨fun hends => ?_, suffix, hsuffix, congrArg (c :: ·) hrest⟩
        -- dimensions that begin here would go on to the end of the text
        rcases hends.cases_cons with hdimensions | hends
        · have hwhole := hdimensions.append hsuffix
          rw [List.cons_append, ← hrest] at hwhole
          exact hstarts ((startsDimensions_iff hline).mpr ⟨hwhole, List.cons_ne_nil _ _⟩)
        · exact hbase hends

/-- What stands before dimensions is the base, unless it ends in a dimension
itself. -/
theorem stripDimensions_base (hbase : ¬ EndsInDimension base) (hsuffix : IsDimensions suffix)
    (hline : (base ++ suffix).getLast? ≠ some '\n') : stripDimensions (base ++ suffix) = base := by
  obtain ⟨hends, other, hother, heq⟩ := stripDimensions_split hline
  exact (base_unique hbase hends hsuffix hother heq).symm

theorem stripDimensions_of_notMem (h : '[' ∉ base) (hsuffix : IsDimensions suffix) :
    stripDimensions (base ++ suffix) = base := by
  induction base with
  | nil =>
      exact stripDimensions_base not_endsInDimension_nil hsuffix
        (getLast?_append_dimensions hsuffix nofun)
  | cons c rest ih =>
      obtain ⟨hne, hrest⟩ := not_or.mp (mt List.mem_cons.mpr h)
      rw [List.cons_append, stripDimensions, startsDimensions_of_ne (Ne.symm hne),
        if_neg Bool.false_ne_true, ih hrest]

theorem mem_lineEnd {c : Char} (h : c ∈ lineEnd text) : c = '\n' := by
  unfold lineEnd at h
  split at h
  · exact List.mem_singleton.mp h
  · cases h

/-- There are dimensions exactly if something is taken off. -/
theorem hasDimensions_iff : hasDimensions text = true ↔ stripDimensions text ≠ text := by
  induction text with
  | nil => exact iff_of_false Bool.false_ne_true (fun hne => hne rfl)
  | cons c rest ih =>
      rw [hasDimensions, stripDimensions, Bool.or_eq_true, ih]
      by_cases hstarts : startsDimensions (c :: rest) = true
      · rw [if_pos hstarts]
        refine iff_of_true (.inl hstarts) fun hsame => ?_
        have hfirst : c = '\n' := mem_lineEnd (hsame ▸ List.mem_cons_self)
        rw [hfirst, startsDimensions_of_ne (by decide)] at hstarts
        cases hstarts
      · rw [if_neg hstarts, or_iff_right hstarts, Ne, Ne, List.cons_inj_right]

theorem isDynamicWord_iff :
    isDynamicWord text = true ↔ text = "string".toList ∨ text = "bytes".toList := by
  rw [isDynamicWord, Bool.or_eq_true, beq_iff_eq, beq_iff_eq]

/-! ## Names of structures -/

theorem dropStruct_word (text : List Char) :
    dropStruct ("struct ".toList ++ text) = text.dropWhile Text.isBlank := by
  have hafter : after? "struct".toList ("struct ".toList ++ text) = some (' ' :: text) := rfl
  have hblank : Text.isBlank ' ' = true := by decide +kernel
  simp only [dropStruct, hafter, hblank, if_true]

/-- Blanks do not go on beyond a point. -/
theorem dropWhile_point (before after : List Char) :
    ∃ left, (before ++ '.' :: after).dropWhile Text.isBlank = left ++ '.' :: after := by
  have hpoint : Text.isBlank '.' = false := by decide +kernel
  rw [List.dropWhile_append]
  split
  · exact ⟨[], by rw [List.dropWhile_cons, hpoint, if_neg Bool.false_ne_true, List.nil_append]⟩
  · exact ⟨_, rfl⟩

theorem unqualified_append (h : '.' ∉ text) (front : List Char) :
    unqualified (front ++ text) = unqualified front ++ text := by
  have hpoint : ∀ c ∈ text.reverse, (c != '.') = true := by
    intro c hc
    exact bne_iff_ne.mpr fun heq => h (heq ▸ List.mem_reverse.mp hc)
  rw [unqualified, List.reverse_append, List.takeWhile_append_of_pos hpoint, List.reverse_append,
    List.reverse_reverse, unqualified]

theorem unqualified_of_notMem (h : '.' ∉ text) : unqualified text = text :=
  unqualified_append h []

theorem unqualified_point (front : List Char) : unqualified (front ++ ['.']) = [] := by
  rw [unqualified, List.reverse_append]
  rfl

/-- The bare name of a structure stands between the last point and the
dimensions. -/
theorem structName_struct {name : List Char} (hne : name ≠ []) (hpoint : '.' ∉ name)
    (hclose : ']' ∉ name) (hline : '\n' ∉ name) (hsuffix : IsDimensions suffix)
    (qualifier : List Char) :
    structName ("struct ".toList ++ (qualifier ++ '.' :: (name ++ suffix))) = name := by
  obtain ⟨left, hleft⟩ := dropWhile_point qualifier (name ++ suffix)
  have hsplit : left ++ '.' :: (name ++ suffix) = (left ++ ['.'] ++ name) ++ suffix := by
    rw [List.append_assoc, List.append_assoc, List.singleton_append]
  have hlast {c : Char} (hc : c ∉ name) : (left ++ ['.'] ++ name).getLast? ≠ some c := by
    intro hend
    rw [List.getLast?_append_of_ne_nil _ hne] at hend
    exact hc (List.mem_of_getLast? hend)
  have hbase : ¬ EndsInDimension (left ++ ['.'] ++ name) :=
    fun hends => hlast hclose hends.getLast?
  have hend := getLast?_append_dimensions hsuffix (hlast hline)
  rw [structName, dropStruct_word, hleft, hsplit, stripDimensions_base hbase hsuffix hend,
    unqualified_append hpoint, unqualified_point, List.nil_append]

end

/-! ## Stripped types -/

/-- **Dimensions are taken off whole.** Take any text without ends of lines,
with brackets wherever they are. More dimensions behind it change nothing of
what is left when they are stripped; what is left ends in no dimension, begins
the text, and is followed there by dimensions alone, so that stripping it again
does nothing; and the text needs a data location exactly if it is one of the
two words or something is stripped. For this reason a structure is known by its
bare name behind any qualifier and before any dimensions. Of the name only this
is asked, which every identifier has: it is not empty, without points, closing
brackets and ends of lines. -/
theorem dimensions_stripped :
    (∀ text : List Char, '\n' ∉ text →
      (∀ suffix, IsDimensions suffix →
        stripDimensions (text ++ suffix) = stripDimensions text) ∧
      ¬ EndsInDimension (stripDimensions text) ∧
      (∃ suffix, IsDimensions suffix ∧ text = stripDimensions text ++ suffix) ∧
      stripDimensions (stripDimensions text) = stripDimensions text ∧
      (needsMemory text = true ↔
        text = "string".toList ∨ text = "bytes".toList ∨ stripDimensions text ≠ text)) ∧
    ∀ qualifier name suffix : List Char,
      name ≠ [] → '.' ∉ name → ']' ∉ name → '\n' ∉ name → IsDimensions suffix →
      structName ("struct ".toList ++ (qualifier ++ '.' :: (name ++ suffix))) = name := by
  refine ⟨fun text hline => ?_, fun qualifier name suffix hne hpoint hclose hline hsuffix =>
    structName_struct hne hpoint hclose hline hsuffix qualifier⟩
  have hlast : text.getLast? ≠ some '\n' := fun hend => hline (List.mem_of_getLast? hend)
  obtain ⟨hbase, stripped, hstripped, htext⟩ := stripDimensions_split hlast
  -- both what is left and the text with more dimensions are this base and dimensions
  have hagain : ∀ suffix, IsDimensions suffix →
      stripDimensions (stripDimensions text ++ suffix) = stripDimensions text := by
    intro suffix hsuffix
    have hleft : (stripDimensions text).getLast? ≠ some '\n' := fun hend =>
      hline (htext ▸ List.mem_append_left _ (List.mem_of_getLast? hend))
    exact stripDimensions_base hbase hsuffix (getLast?_append_dimensions hsuffix hleft)
  refine ⟨fun suffix hsuffix => ?_, hbase, ⟨stripped, hstripped, htext⟩, ?_, ?_⟩
  · have hmore := hagain (stripped ++ suffix) (hstripped.append hsuffix)
    rwa [← List.append_assoc, ← htext] at hmore
  · have hnone := hagain [] .nil
    rwa [List.append_nil] at hnone
  · rw [needsMemory, Bool.or_eq_true, isDynamicWord_iff, hasDimensions_iff, or_assoc]

/-- A bracket that is not closed and brackets around a letter stay. -/
theorem dimensions_stripped_unbalanced :
    stripDimensions ("map[[x][3]".toList ++ "[][٣]".toList) = stripDimensions "map[[x][3]".toList ∧
      stripDimensions "map[[x][3]".toList = "map[[x]".toList ∧
      structName ("struct ".toList ++ ("Pool".toList ++ '.' :: ("Config".toList ++ "[2][]".toList))) =
        "Config".toList := by
  obtain ⟨hstripped, hname⟩ := dimensions_stripped
  have hline : '\n' ∉ "map[[x][3]".toList := by decide
  have hsizes : IsDimensions "[][٣]".toList := by decide +kernel
  have hconfig : IsDimensions "[2][]".toList := by decide +kernel
  refine ⟨(hstripped _ hline).1 _ hsizes, by decide +kernel, ?_⟩
  exact hname _ _ _ (by decide) (by decide) (by decide) (by decide) hconfig

end SolDeployer.Abi
