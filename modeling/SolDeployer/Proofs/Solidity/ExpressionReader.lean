import Mathlib.Data.List.Basic
import SolDeployer.Abi.TypeText
import SolDeployer.Hex
import SolDeployer.Solidity.Expression

/-!
# Reading expressions for bytecodes

A reader for the two forms of an expression: a literal, or literals and
names packed together. A comma stands in no literal and in no name, so an
expression comes apart at its commas, and a mark after `hex` tells a
literal from a name. What was written is read again
(`readExpression?_initcodeExpression`); in particular the text determines
the pieces.
-/

namespace SolDeployer.Solidity

open Abi.TypeText (after?)

/-! ## Words at the ends of a text -/

@[simp] theorem after?_append (word text : List Char) : after? word (word ++ text) = some text := by
  induction word with
  | nil => rfl
  | cons c word ih => simp [after?, ih]

/-- The text before a word at its end. -/
def before? (word text : List Char) : Option (List Char) :=
  (after? word.reverse text.reverse).map List.reverse

@[simp] theorem before?_append (word text : List Char) :
    before? word (text ++ word) = some text := by
  simp [before?]

/-! ## Lists -/

/-- The items of a list with commas and blanks between them. -/
def readList? {α : Type} (read? : List Char → Option α) (text : List Char) : Option (List α) :=
  if text.isEmpty then some []
  else ((' ' :: text).splitOn ',').mapM fun part => (after? [' '] part).bind read?

theorem mapM_map_eq_some {α β γ : Type} {read? : β → Option γ} {write : α → β} {value : α → γ}
    {items : List α} (h : ∀ item ∈ items, read? (write item) = some (value item)) :
    (items.map write).mapM read? = some (items.map value) := by
  induction items with
  | nil => rfl
  | cons item rest ih =>
      rw [List.map_cons, List.mapM_cons, h item (List.mem_cons_self ..),
        ih fun other hmem => h other (List.mem_cons_of_mem _ hmem)]
      rfl

theorem mapM_map_eq_self {α β : Type} {read? : β → Option α} {write : α → β} {items : List α}
    (h : ∀ item ∈ items, read? (write item) = some item) :
    (items.map write).mapM read? = some items :=
  (mapM_map_eq_some h).trans (congrArg some (List.map_id' items))

/-- A blank in front makes all parts alike. -/
theorem blank_intercalate {parts : List (List Char)} (hne : parts ≠ []) :
    ' ' :: [',', ' '].intercalate parts = [','].intercalate (parts.map (' ' :: ·)) := by
  induction parts with
  | nil => exact absurd rfl hne
  | cons part rest ih =>
      cases rest with
      | nil => simp
      | cons other rest =>
          have hrest := ih (List.cons_ne_nil _ _)
          rw [List.map_cons] at hrest
          rw [List.map_cons, List.map_cons, List.intercalate_cons_cons, List.intercalate_cons_cons,
            ← hrest]
          simp

/-- Items that are read from their texts are read from a list of them. -/
theorem readList?_intercalate {α : Type} {read? : List Char → Option α} {write : α → List Char}
    {items : List α}
    (h : ∀ item ∈ items, read? (write item) = some item ∧ ',' ∉ write item ∧ write item ≠ []) :
    readList? read? ([',', ' '].intercalate (items.map write)) = some items := by
  cases items with
  | nil => rfl
  | cons first rest =>
      have hempty : ([',', ' '].intercalate ((first :: rest).map write)).isEmpty = false := by
        have hfirst := (h first (List.mem_cons_self ..)).2.2
        cases rest <;> simp [hfirst]
      have hcomma : ∀ part ∈ ((first :: rest).map write).map (' ' :: ·), ',' ∉ part := by
        intro part hmem
        obtain ⟨text, htext, rfl⟩ := List.mem_map.mp hmem
        obtain ⟨item, hitem, rfl⟩ := List.mem_map.mp htext
        have := (h item hitem).2.1
        simp [this]
      rw [readList?, hempty, blank_intercalate (by simp), List.splitOn_intercalate _ hcomma (by simp),
        List.map_map]
      refine mapM_map_eq_self fun item hmem => ?_
      simp [after?, (h item hmem).1]

theorem notMem_intercalate {α : Type} {item : α} {separator : List α} {parts : List (List α)}
    (hseparator : item ∉ separator) (hparts : ∀ part ∈ parts, item ∉ part) :
    item ∉ separator.intercalate parts := by
  induction parts with
  | nil => simp
  | cons part rest ih =>
      have hrest := ih fun other hmem => hparts other (List.mem_cons_of_mem _ hmem)
      have hpart := hparts part (List.mem_cons_self ..)
      cases rest with
      | nil => simpa using hpart
      | cons other rest =>
          rw [List.intercalate_cons_cons]
          simp [hpart, hseparator, hrest]

/-! ## Pieces -/

/-- May the character stand in a name? -/
def isNameChar (c : Char) : Bool := c.isAlphanum || c == '_' || c == '$'

/-- Is the text a name, as far as its characters go? -/
def IsName (name : String) : Prop := name ≠ "" ∧ ∀ c ∈ name.toList, isNameChar c = true

instance (name : String) : Decidable (IsName name) :=
  decidable_of_iff (name ≠ "" ∧ name.toList.all isNameChar = true) (by simp [IsName])

/-- Can the piece be written? A literal is made of digits of base sixteen. -/
def Legible : Segment → Prop
  | .hex digits => ∀ c ∈ digits, (Hex.digit? c).isSome = true
  | .address name => IsName name

/-- The piece that a text stands for. -/
def readPiece? (text : List Char) : Option Segment :=
  match after? "hex\"".toList text with
  | some rest =>
    (before? ['\"'] rest).bind fun digits =>
      if digits.all fun c => (Hex.digit? c).isSome then some (.hex digits) else none
  | none => if !text.isEmpty && text.all isNameChar then some (.address (String.ofList text)) else none

/-- The pieces of an expression. -/
def readExpression? (text : List Char) : Option (List Segment) :=
  match after? "abi.encodePacked(".toList text with
  | some rest => (before? [')'] rest).bind (readList? readPiece?)
  | none => (readPiece? text).map ([·])

theorem hexLiteral_toList (digits : List Char) :
    (hexLiteral digits).toList = "hex\"".toList ++ (digits ++ ['\"']) := by
  simp [hexLiteral, String.toList_append]

theorem isNameChar_ne {c d : Char} (hc : isNameChar c = true) (hd : isNameChar d = false) :
    c ≠ d := by
  rintro rfl
  rw [hc] at hd
  cases hd

/-- A text of name characters is not a literal. -/
theorem after?_hex_eq_none {text : List Char} (h : ∀ c ∈ text, isNameChar c = true) :
    after? "hex\"".toList text = none := by
  cases hafter : after? "hex\"".toList text with
  | none => rfl
  | some rest =>
      match text, hafter with
      | a :: b :: c :: d :: text, hafter =>
          have hd : d ≠ '\"' := isNameChar_ne (h d (by simp)) (by decide)
          simp [after?, Ne.symm hd] at hafter
      | [], hafter => simp [after?] at hafter
      | [_], hafter => simp [after?] at hafter
      | [_, _], hafter => simp [after?] at hafter
      | [_, _, _], hafter => simp [after?] at hafter

theorem readPiece?_expression {piece : Segment} (h : Legible piece) :
    readPiece? piece.expression.toList = some piece := by
  cases piece with
  | hex digits =>
      have hall : digits.all (fun c => (Hex.digit? c).isSome) = true := List.all_eq_true.mpr h
      simp only [readPiece?, Segment.expression, hexLiteral_toList, after?_append, before?_append,
        Option.bind_some, hall, if_true]
  | address name =>
      obtain ⟨hne, hname⟩ := h
      have hempty : name.toList.isEmpty = false := by
        rw [List.isEmpty_eq_false_iff]
        exact fun hnil => hne (String.toList_eq_nil_iff.mp hnil)
      simp only [readPiece?, Segment.expression, after?_hex_eq_none hname, hempty,
        List.all_eq_true.mpr hname, Bool.not_false, Bool.and_self, if_true, String.ofList_toList]

theorem isNameChar_of_digit {c : Char} (h : (Hex.digit? c).isSome = true) :
    isNameChar c = true := by
  have hrange : (48 ≤ c.toNat ∧ c.toNat ≤ 57) ∨ (97 ≤ c.toNat ∧ c.toNat ≤ 102) ∨
      (65 ≤ c.toNat ∧ c.toNat ≤ 70) := by
    unfold Hex.digit? at h
    split at h
    · exact .inl ‹_›
    · split at h
      · exact .inr (.inl ‹_›)
      · split at h
        · exact .inr (.inr ‹_›)
        · cases h
  have hval : c.val.toNat = c.toNat := rfl
  unfold isNameChar
  delta Char.isAlphanum Char.isAlpha Char.isUpper Char.isLower Char.isDigit
  simp [UInt32.le_iff_toNat_le, hval]
  omega

/-- Only the marks of a literal are no name characters. -/
theorem notMem_expression {piece : Segment} (h : Legible piece) {c : Char}
    (hname : isNameChar c = false) (hmark : c ≠ '\"') : c ∉ piece.expression.toList := by
  cases piece with
  | hex digits =>
      have hword : c ∉ "hex".toList := fun hmem =>
        isNameChar_ne (List.all_eq_true.mp (by decide : "hex".toList.all isNameChar = true) c hmem)
          hname rfl
      have hdigits : c ∉ digits := fun hmem => isNameChar_ne (isNameChar_of_digit (h c hmem)) hname rfl
      simp only [Segment.expression, hexLiteral, String.toList_append, String.toList_ofList]
      simp_all
  | address name => exact fun hmem => isNameChar_ne (h.2 c hmem) hname rfl

theorem expression_ne_nil {piece : Segment} (h : Legible piece) :
    piece.expression.toList ≠ [] := by
  cases piece with
  | hex digits => simp [Segment.expression, hexLiteral_toList]
  | address name => exact fun hnil => h.1 (String.toList_eq_nil_iff.mp hnil)

/-! ## Expressions -/

/-- An expression that is not a single literal packs its pieces. -/
theorem initcodeExpression_cases (segments : List Segment) :
    (∃ digits, segments = [.hex digits] ∧ initcodeExpression segments = hexLiteral digits) ∨
      initcodeExpression segments =
        "abi.encodePacked(" ++ ", ".intercalate (segments.map Segment.expression) ++ ")" := by
  unfold initcodeExpression
  split
  · exact .inl ⟨_, rfl, rfl⟩
  · exact .inr rfl

theorem toList_pieces (segments : List Segment) :
    (", ".intercalate (segments.map Segment.expression)).toList =
      [',', ' '].intercalate (segments.map fun piece => piece.expression.toList) := by
  rw [String.toList_intercalate, List.map_map]
  rfl

/-- An expression is one line. -/
theorem notMem_initcodeExpression {segments : List Segment}
    (h : ∀ piece ∈ segments, Legible piece) : '\n' ∉ (initcodeExpression segments).toList := by
  rcases initcodeExpression_cases segments with ⟨digits, rfl, heq⟩ | heq
  · rw [heq]
    exact notMem_expression (h _ (List.mem_singleton_self _)) (by decide) (by decide)
  · have hpieces : '\n' ∉ [',', ' '].intercalate
        (segments.map fun piece => piece.expression.toList) := by
      refine notMem_intercalate (by decide) fun part hmem => ?_
      obtain ⟨piece, hpiece, rfl⟩ := List.mem_map.mp hmem
      exact notMem_expression (h piece hpiece) (by decide) (by decide)
    rw [heq, String.toList_append, String.toList_append, toList_pieces]
    simp [hpieces]

theorem readExpression?_initcodeExpression {segments : List Segment}
    (h : ∀ piece ∈ segments, Legible piece) :
    readExpression? (initcodeExpression segments).toList = some segments := by
  rcases initcodeExpression_cases segments with ⟨digits, rfl, heq⟩ | heq
  · have hpiece := readPiece?_expression (h _ (List.mem_singleton_self _))
    have hnone : after? "abi.encodePacked(".toList (hexLiteral digits).toList = none := by
      rw [hexLiteral_toList]
      rfl
    simp only [Segment.expression] at hpiece
    simp only [heq, readExpression?, hnone, hpiece, Option.map_some]
  · have hread : readList? readPiece?
        ([',', ' '].intercalate (segments.map fun piece => piece.expression.toList)) =
          some segments :=
      readList?_intercalate fun piece hmem => ⟨readPiece?_expression (h piece hmem),
        notMem_expression (h piece hmem) (by decide) (by decide), expression_ne_nil (h piece hmem)⟩
    have htext : (initcodeExpression segments).toList = "abi.encodePacked(".toList ++
        ([',', ' '].intercalate (segments.map fun piece => piece.expression.toList) ++ [')']) := by
      rw [heq, String.toList_append, String.toList_append, toList_pieces, List.append_assoc]
      rfl
    simp only [htext, readExpression?, after?_append, before?_append, Option.bind_some, hread]

theorem initcodeExpression_injective {segments others : List Segment}
    (h : ∀ piece ∈ segments, Legible piece) (hothers : ∀ piece ∈ others, Legible piece)
    (heq : initcodeExpression segments = initcodeExpression others) : segments = others := by
  have hread := readExpression?_initcodeExpression h
  rw [heq, readExpression?_initcodeExpression hothers] at hread
  exact (Option.some.inj hread).symm

end SolDeployer.Solidity
