import SolDeployer.Abi.Declaration
import SolDeployer.Proofs.Abi.Dimensions
import SolDeployer.Proofs.Library

/-!
# Types of parameters as a compiler writes them

The parameters that a compiler writes for the interface of a contract
(`Emitted`), what they are declared as, and their canonical types. All of
these texts end with the dimensions of the parameter, so only what stands
before them has to be compared: a contract is declared as an address, an
enumeration as a small number, a value type as what it stands for, and a
structure by its bare name.

One kind of name is misread, that of a value type which looks like an
elementary type and is none, `uint7` say: it is taken for an elementary type
(`IsValue.declared`). All else is said under the condition that this is not
so (`Emitted.cases`).
-/

namespace SolDeployer.Abi

open TypeText
open Solidity (IsName isNameChar after?_append)

/-! ## Elementary types -/

/-- The elementary types. Numbers have a multiple of eight bits up to 256,
and a fixed number of bytes is 32 at most; these count from zero. -/
inductive Elementary where
  | uint (size : Fin 32)
  | int (size : Fin 32)
  | ufixed (size : Fin 32) (places : Fin 81)
  | fixed (size : Fin 32) (places : Fin 81)
  | fixedBytes (size : Fin 32)
  | address
  | bool
  | string
  | bytes
  deriving Repr, DecidableEq

def decimal (n : Nat) : List Char := (toString n).toList

namespace Elementary

def bits (size : Fin 32) : List Char := decimal (8 * (size.val + 1))

def text : Elementary → List Char
  | .uint size => "uint".toList ++ bits size
  | .int size => "int".toList ++ bits size
  | .ufixed size places => "ufixed".toList ++ (bits size ++ 'x' :: decimal places.val)
  | .fixed size places => "fixed".toList ++ (bits size ++ 'x' :: decimal places.val)
  | .fixedBytes size => "bytes".toList ++ decimal (size.val + 1)
  | .address => "address".toList
  | .bool => "bool".toList
  | .string => "string".toList
  | .bytes => "bytes".toList

end Elementary

/-! ## Dimensions and names -/

/-- The dimensions of an array, from the innermost one on: a size, or none
if the array is dynamic. -/
def dimensions (sizes : List (Option Nat)) : List Char :=
  sizes.flatMap fun size => '[' :: ((size.map decimal).getD [] ++ [']'])

/-- A name after those of what it is declared in. -/
def qualified (scopes : List String) (name : String) : List Char :=
  (scopes.flatMap fun scope => scope.toList ++ ['.']) ++ name.toList

/-! ## Parameters -/

/-- The parameter is a structure with this bare name and these components,
or an array of it. -/
inductive IsStruct (name : String) (components : List Param) : Param → Prop
  | mk {label indexed : Json} {scopes : List String} (sizes : List (Option Nat))
      (hname : IsName name) (hfree : ∀ word : Elementary, word.text ≠ name.toList)
      (hscopes : ∀ scope ∈ scopes, IsName scope) :
      IsStruct name components
        { name := label
          type := .str (String.ofList ("tuple".toList ++ dimensions sizes))
          internalType := .str (String.ofList
            ("struct ".toList ++ (qualified scopes name ++ dimensions sizes)))
          indexed := indexed
          components := some components }

/-- The parameter has a value type with a name of its own, or is an array of
it, and the source calls its type by this text. -/
inductive IsValue (source : List Char) : Param → Prop
  | mk {label indexed : Json} {scopes : List String} {name : String} (word : Elementary)
      (sizes : List (Option Nat)) (hname : IsName name)
      (hfree : ∀ word : Elementary, word.text ≠ name.toList)
      (hscopes : ∀ scope ∈ scopes, IsName scope)
      (hsource : source = qualified scopes name ++ dimensions sizes) :
      IsValue source
        { name := label
          type := .str (String.ofList (word.text ++ dimensions sizes))
          internalType := .str (String.ofList source)
          indexed := indexed
          components := none }

/-- The parameters that a compiler writes. -/
inductive Emitted : Param → Prop
  | elementary {label indexed : Json} (word : Elementary) (sizes : List (Option Nat)) :
      Emitted
        { name := label
          type := .str (String.ofList (word.text ++ dimensions sizes))
          internalType := .str (String.ofList (word.text ++ dimensions sizes))
          indexed := indexed
          components := none }
  | payable {label indexed : Json} (sizes : List (Option Nat)) :
      Emitted
        { name := label
          type := .str (String.ofList ("address".toList ++ dimensions sizes))
          internalType := .str (String.ofList ("address payable".toList ++ dimensions sizes))
          indexed := indexed
          components := none }
  | contract {label indexed : Json} (name : String) (sizes : List (Option Nat)) :
      Emitted
        { name := label
          type := .str (String.ofList ("address".toList ++ dimensions sizes))
          internalType := .str (String.ofList
            ("contract ".toList ++ (name.toList ++ dimensions sizes)))
          indexed := indexed
          components := none }
  | enum {label indexed : Json} (name : String) (sizes : List (Option Nat)) :
      Emitted
        { name := label
          type := .str (String.ofList ("uint8".toList ++ dimensions sizes))
          internalType := .str (String.ofList ("enum ".toList ++ (name.toList ++ dimensions sizes)))
          indexed := indexed
          components := none }
  | value {source : List Char} {param : Param} (h : IsValue source param) : Emitted param
  | struct {name : String} {components : List Param} {param : Param}
      (h : IsStruct name components param) (hcomponents : ∀ c ∈ components, Emitted c) :
      Emitted param

/-! ## Canonical types -/

/-- The canonical type of a tuple of some canonical types. -/
def tuple (types : List (List Char)) : List Char := '(' :: ([','].intercalate types ++ [')'])

mutual

/-- The canonical type of a parameter: the type in the interface, with the
components in place of the word `tuple`. -/
def Param.canonical : Param → List Char
  | ⟨_, type, _, _, none⟩ => type.text.toList
  | ⟨_, type, _, _, some components⟩ =>
    tuple (canonicals components) ++ type.text.toList.drop 5

def Param.canonicals : List Param → List (List Char)
  | [] => []
  | component :: rest => canonical component :: canonicals rest

end

theorem canonicals_eq (components : List Param) :
    Param.canonicals components = components.map Param.canonical := by
  induction components with
  | nil => rfl
  | cons component rest ih => rw [Param.canonicals, ih, List.map_cons]

/-! ## Characters of the texts -/

section

variable {sizes : List (Option Nat)} {scopes : List String} {name : String} {base : List Char}

theorem isNameChar_decimal {n : Nat} {c : Char} (h : c ∈ decimal n) : isNameChar c = true := by
  rw [decimal, Nat.toString_eq_ofList_toDigits, String.toList_ofList] at h
  have hdigit := Nat.isDigit_of_mem_toDigits (by decide) (by decide) h
  simp [isNameChar, Char.isAlphanum, hdigit]

theorem isDigit_decimal {n : Nat} {c : Char} (h : c ∈ decimal n) : Text.isDigit c = true := by
  have hlt := toNat_lt_of_isNameChar (isNameChar_decimal h)
  rw [decimal, Nat.toString_eq_ofList_toDigits, String.toList_ofList] at h
  have hdigit := Nat.isDigit_of_mem_toDigits (by decide) (by decide) h
  exact Text.of_small (P := fun c => c.isDigit = true → Text.isDigit c = true)
    (by decide +kernel) hlt hdigit

theorem isNameChar_text (word : Elementary) : ∀ c ∈ word.text, isNameChar c = true := by
  have hfixed (word : String) (h : word.toList.all isNameChar = true) :
      ∀ c ∈ word.toList, isNameChar c = true := fun c hc => List.all_eq_true.mp h c hc
  have hplaces (size : Fin 32) (places : Nat) :
      ∀ c ∈ Elementary.bits size ++ 'x' :: decimal places, isNameChar c = true := by
    intro c hc
    rcases List.mem_append.mp hc with hc | hc
    · exact isNameChar_decimal hc
    · rcases List.mem_cons.mp hc with rfl | hc
      · decide
      · exact isNameChar_decimal hc
  intro c hc
  cases word with
  | uint size =>
      rcases List.mem_append.mp hc with hc | hc
      · exact hfixed "uint" (by decide) c hc
      · exact isNameChar_decimal hc
  | int size =>
      rcases List.mem_append.mp hc with hc | hc
      · exact hfixed "int" (by decide) c hc
      · exact isNameChar_decimal hc
  | ufixed size places =>
      rcases List.mem_append.mp hc with hc | hc
      · exact hfixed "ufixed" (by decide) c hc
      · exact hplaces size places c hc
  | fixed size places =>
      rcases List.mem_append.mp hc with hc | hc
      · exact hfixed "fixed" (by decide) c hc
      · exact hplaces size places c hc
  | fixedBytes size =>
      rcases List.mem_append.mp hc with hc | hc
      · exact hfixed "bytes" (by decide) c hc
      · exact isNameChar_decimal hc
  | address => exact hfixed "address" (by decide) c hc
  | bool => exact hfixed "bool" (by decide) c hc
  | string => exact hfixed "string" (by decide) c hc
  | bytes => exact hfixed "bytes" (by decide) c hc

theorem ne_of_isNameChar {c other : Char} (h : isNameChar c = true)
    (hother : isNameChar other = false) : c ≠ other := by
  rintro rfl
  rw [h] at hother
  cases hother

theorem notMem_text (word : Elementary) {c : Char} (h : isNameChar c = false) : c ∉ word.text :=
  fun hmem => ne_of_isNameChar (isNameChar_text word c hmem) h rfl

/-- A point is all that stands between the names of a qualified one. -/
theorem notMem_qualified (hname : IsName name) (hscopes : ∀ scope ∈ scopes, IsName scope)
    {c : Char} (h : isNameChar c = false) (hpoint : c ≠ '.') : c ∉ qualified scopes name := by
  intro hmem
  rcases List.mem_append.mp hmem with hmem | hmem
  · obtain ⟨scope, hscope, hmem⟩ := List.mem_flatMap.mp hmem
    rcases List.mem_append.mp hmem with hmem | hmem
    · exact ne_of_isNameChar ((hscopes scope hscope).2 c hmem) h rfl
    · exact hpoint (List.mem_singleton.mp hmem)
  · exact ne_of_isNameChar (hname.2 c hmem) h rfl

theorem notMem_dimensions {c : Char} (h : isNameChar c = false) (hopen : c ≠ '[')
    (hclose : c ≠ ']') : c ∉ dimensions sizes := by
  intro hmem
  obtain ⟨size, -, hmem⟩ := List.mem_flatMap.mp hmem
  rcases List.mem_cons.mp hmem with rfl | hmem
  · exact hopen rfl
  · rcases List.mem_append.mp hmem with hmem | hmem
    · cases size with
      | none => cases hmem
      | some n => exact ne_of_isNameChar (isNameChar_decimal hmem) h rfl
    · exact hclose (List.mem_singleton.mp hmem)

/-! ## Dimensions at the end of a text -/

theorem dimensions_cons (size : Option Nat) (rest : List (Option Nat)) :
    dimensions (size :: rest) =
      '[' :: ((size.map decimal).getD [] ++ ']' :: dimensions rest) := by
  rw [dimensions, List.flatMap_cons, List.cons_append, List.append_assoc]
  rfl

theorem isDimensions_dimensions (sizes : List (Option Nat)) : IsDimensions (dimensions sizes) := by
  induction sizes with
  | nil => exact .nil
  | cons size rest ih =>
      rw [dimensions_cons]
      refine .cons (fun c hc => ?_) ih
      cases size with
      | none => cases hc
      | some n => exact isDigit_decimal hc

theorem dimensions_eq_nil : dimensions sizes = [] ↔ sizes = [] := by
  cases sizes with
  | nil => exact iff_of_true rfl rfl
  | cons size rest => exact iff_of_false (List.cons_ne_nil _ _) (List.cons_ne_nil _ _)

/-- Dimensions are taken off a text without a bracket. -/
theorem stripDimensions_append (h : '[' ∉ base) (sizes : List (Option Nat)) :
    stripDimensions (base ++ dimensions sizes) = base :=
  stripDimensions_of_notMem h (isDimensions_dimensions sizes)

theorem hasDimensions_append (h : '[' ∉ base) (sizes : List (Option Nat)) :
    hasDimensions (base ++ dimensions sizes) = true ↔ sizes ≠ [] := by
  rw [hasDimensions_iff, stripDimensions_append h, Ne, List.self_eq_append_right,
    dimensions_eq_nil]

/-! ## Words at the beginning of a text -/

theorem eq_append_of_after? {word text rest : List Char} (h : after? word text = some rest) :
    text = word ++ rest := by
  induction word generalizing text with
  | nil => exact Option.some.inj h
  | cons c word ih =>
      cases text with
      | nil => cases h
      | cons d text =>
          unfold after? at h
          split at h
          · rename_i heq
            rw [heq, ih h, List.cons_append]
          · cases h

theorem startsWith_append (word : String) (text : List Char) :
    startsWith word (word.toList ++ text) = true := by
  rw [startsWith, after?_append]
  rfl

/-- A text does not begin with a word that has a character it has not. -/
theorem startsWith_of_notMem {word : String} {text : List Char} {c : Char} (hword : c ∈ word.toList)
    (htext : c ∉ text) : startsWith word text = false := by
  unfold startsWith
  cases hafter : after? word.toList text with
  | none => rfl
  | some rest =>
      rw [eq_append_of_after? hafter] at htext
      exact absurd (List.mem_append_left _ hword) htext

/-! ## Names of structures -/

theorem isBlank_of_isNameChar {c : Char} (h : isNameChar c = true) : Text.isBlank c = false :=
  Text.of_small (P := fun c => isNameChar c = true → Text.isBlank c = false) (by decide +kernel)
    (toNat_lt_of_isNameChar h) h

theorem unqualified_qualified (hname : IsName name) (scopes : List String) :
    unqualified (qualified scopes name) = name.toList := by
  have hpoint : '.' ∉ name.toList := fun hmem => ne_of_isNameChar (hname.2 _ hmem) (by decide) rfl
  rw [qualified, unqualified_append hpoint]
  rcases List.eq_nil_or_concat scopes with rfl | ⟨outer, scope, rfl⟩
  · rfl
  · rw [List.concat_eq_append, List.flatMap_append, List.flatMap_singleton, ← List.append_assoc,
      unqualified_point, List.nil_append]

theorem head_qualified (hname : IsName name) (hscopes : ∀ scope ∈ scopes, IsName scope) :
    ∃ c rest, qualified scopes name = c :: rest ∧ isNameChar c = true := by
  have hhead : ∀ {text : String}, IsName text →
      ∃ c rest, text.toList = c :: rest ∧ isNameChar c = true := by
    intro text htext
    cases hlist : text.toList with
    | nil => exact absurd (String.toList_eq_nil_iff.mp hlist) htext.1
    | cons c rest => exact ⟨c, rest, rfl, htext.2 c (hlist ▸ List.mem_cons_self)⟩
  cases scopes with
  | nil =>
      obtain ⟨c, rest, heq, hc⟩ := hhead hname
      exact ⟨c, rest, by rw [qualified, heq]; rfl, hc⟩
  | cons scope others =>
      obtain ⟨c, rest, heq, hc⟩ := hhead (hscopes scope List.mem_cons_self)
      exact ⟨c, _, by rw [qualified, List.flatMap_cons, heq]; rfl, hc⟩

theorem structName_source (hname : IsName name) (hscopes : ∀ scope ∈ scopes, IsName scope)
    (sizes : List (Option Nat)) :
    structName ("struct ".toList ++ (qualified scopes name ++ dimensions sizes)) =
      name.toList := by
  obtain ⟨c, rest, heq, hc⟩ := head_qualified hname hscopes
  have hdrop : dropStruct ("struct ".toList ++ (qualified scopes name ++ dimensions sizes)) =
      qualified scopes name ++ dimensions sizes := by
    rw [dropStruct_word, heq, List.cons_append, List.dropWhile_cons, isBlank_of_isNameChar hc,
      if_neg Bool.false_ne_true]
  rw [structName, hdrop,
    stripDimensions_append (notMem_qualified hname hscopes (by decide) (by decide)),
    unqualified_qualified hname]

/-! ## Types as they are declared -/

theorem solidityType?_eq {label indexed type : Json} {components : Option (List Param)}
    {source : List Char} (h : source ≠ []) :
    Param.solidityType? ⟨label, type, .str (String.ofList source), indexed, components⟩ =
      Param.sourceType? type source := by
  have hblank : (Json.str (String.ofList source)).isBlank = false := by
    refine beq_eq_false_iff_ne.mpr fun hempty => h ?_
    have hlist := congrArg String.toList hempty
    rwa [String.toList_ofList] at hlist
  simp only [Param.solidityType?, hblank, Bool.false_eq_true, if_false, textOf?,
    String.toList_ofList, Option.bind_some]

/-- A source type without a blank is declared as it is or as the type in the
interface. -/
theorem sourceType?_of_notMem {type : Json} {source : List Char} (h : ' ' ∉ source) :
    Param.sourceType? type source =
      if isElementary source then some (.str (String.ofList source)) else some type := by
  have hcontract : startsWith "contract " source = false :=
    startsWith_of_notMem (by decide : ' ' ∈ "contract ".toList) h
  have henum : startsWith "enum " source = false :=
    startsWith_of_notMem (by decide : ' ' ∈ "enum ".toList) h
  have hstruct : startsWith "struct " source = false :=
    startsWith_of_notMem (by decide : ' ' ∈ "struct ".toList) h
  simp only [Param.sourceType?, hcontract, henum, hstruct, Bool.false_eq_true, if_false]

/-- The word for a tuple gives way to the bare name of the structure. -/
theorem sourceType?_struct {source suffix : List Char} (h : startsWith "struct " source = true) :
    Param.sourceType? (.str (String.ofList ("tuple".toList ++ suffix))) source =
      some (.str (String.ofList (structName source ++ suffix))) := by
  obtain ⟨rest, hrest⟩ := Option.isSome_iff_exists.mp h
  obtain rfl := eq_append_of_after? hrest
  have hcontract : startsWith "contract " ("struct ".toList ++ rest) = false := rfl
  have henum : startsWith "enum " ("struct ".toList ++ rest) = false := rfl
  simp only [Param.sourceType?, hcontract, henum, h, Bool.false_eq_true, if_false, if_true, textOf?,
    Option.map_some, String.toList_ofList, after?_append, Option.getD_some]

theorem sourceType?_enum (type : Json) (rest : List Char) :
    Param.sourceType? type ("enum ".toList ++ rest) = some type := by
  have hcontract : startsWith "contract " ("enum ".toList ++ rest) = false := rfl
  simp only [Param.sourceType?, hcontract, startsWith_append, Bool.false_eq_true, if_false, if_true]

theorem takeWhile_dimensions (sizes : List (Option Nat)) :
    (dimensions sizes).takeWhile Text.isDigit = [] := by
  have hbracket : Text.isDigit '[' = false := by decide +kernel
  cases sizes with
  | nil => rfl
  | cons size rest => rw [dimensions_cons, List.takeWhile_cons, hbracket, if_neg Bool.false_ne_true]

theorem decimal_ne_nil (n : Nat) : decimal n ≠ [] := by
  rw [decimal, Nat.toString_eq_ofList_toDigits, String.toList_ofList]
  exact Nat.toDigits_ne_nil

theorem afterPlaces_text {digits places : List Char} (hdigits : ∀ c ∈ digits, Text.isDigit c = true)
    (hplaces : ∀ c ∈ places, Text.isDigit c = true) (hsome : digits ≠ []) (hsome' : places ≠ [])
    (sizes : List (Option Nat)) :
    afterPlaces (digits ++ 'x' :: (places ++ dimensions sizes)) = dimensions sizes := by
  have hx : ('x' :: (places ++ dimensions sizes)).takeWhile Text.isDigit = [] := by
    have hletter : Text.isDigit 'x' = false := by decide +kernel
    rw [List.takeWhile_cons, hletter, if_neg Bool.false_ne_true]
  obtain ⟨htake, hdrop⟩ := Text.span_digits hdigits hx
  obtain ⟨htake', hdrop'⟩ := Text.span_digits hplaces (takeWhile_dimensions sizes)
  simp only [afterPlaces, hdrop, htake, htake', hdrop', List.isEmpty_eq_false_iff.mpr hsome,
    List.isEmpty_eq_false_iff.mpr hsome', Bool.or_false, Bool.false_eq_true, if_false]

theorem isElementary_of_entry {entry : String × (List Char → List Char)}
    (hmem : entry ∈ elementaryWords) {rest : List Char}
    (h : areDimensions false (entry.2 rest) = true) :
    isElementary (entry.1.toList ++ rest) = true := by
  obtain ⟨word, skip⟩ := entry
  refine List.any_eq_true.mpr ⟨(word, skip), hmem, ?_⟩
  simp only [after?_append]
  exact h

theorem isElementary_text (word : Elementary) (sizes : List (Option Nat)) :
    isElementary (word.text ++ dimensions sizes) = true := by
  have hall := (isDimensions_dimensions sizes).areDimensions
  have hsized {n : Nat} : areDimensions false
      ((decimal n ++ dimensions sizes).dropWhile Text.isDigit) = true := by
    rw [(Text.span_digits (fun c => isDigit_decimal) (takeWhile_dimensions sizes)).2]
    exact hall
  have hplaced {size : Fin 32} {places : Fin 81} : areDimensions false (afterPlaces
      ((Elementary.bits size ++ 'x' :: decimal places.val) ++ dimensions sizes)) = true := by
    rw [Elementary.bits, List.append_assoc, List.cons_append,
      afterPlaces_text (fun c => isDigit_decimal) (fun c => isDigit_decimal) (decimal_ne_nil _)
        (decimal_ne_nil _)]
    exact hall
  cases word with
  | uint size =>
      change isElementary ("uint".toList ++ Elementary.bits size ++ dimensions sizes) = true
      rw [List.append_assoc]
      exact isElementary_of_entry (List.mem_of_getElem? (i := 0) rfl) hsized
  | int size =>
      change isElementary ("int".toList ++ Elementary.bits size ++ dimensions sizes) = true
      rw [List.append_assoc]
      exact isElementary_of_entry (List.mem_of_getElem? (i := 1) rfl) hsized
  | ufixed size places =>
      change isElementary ("ufixed".toList ++ (Elementary.bits size ++ 'x' :: decimal places.val) ++
        dimensions sizes) = true
      rw [List.append_assoc]
      exact isElementary_of_entry (List.mem_of_getElem? (i := 6) rfl) hplaced
  | fixed size places =>
      change isElementary ("fixed".toList ++ (Elementary.bits size ++ 'x' :: decimal places.val) ++
        dimensions sizes) = true
      rw [List.append_assoc]
      exact isElementary_of_entry (List.mem_of_getElem? (i := 7) rfl) hplaced
  | fixedBytes size =>
      change isElementary ("bytes".toList ++ decimal (size.val + 1) ++ dimensions sizes) = true
      rw [List.append_assoc]
      exact isElementary_of_entry (List.mem_of_getElem? (i := 5) rfl) hsized
  | address =>
      refine isElementary_of_entry (List.mem_of_getElem? (i := 2) rfl) ?_
      cases sizes with
      | nil => rfl
      | cons size rest => exact hall
  | bool => exact isElementary_of_entry (List.mem_of_getElem? (i := 3) rfl) hall
  | string => exact isElementary_of_entry (List.mem_of_getElem? (i := 4) rfl) hall
  | bytes =>
      refine isElementary_of_entry (List.mem_of_getElem? (i := 5) rfl) ?_
      have hnone : ∀ c ∈ ([] : List Char), Text.isDigit c = true := nofun
      have hdrop := (Text.span_digits hnone (takeWhile_dimensions sizes)).2
      change areDimensions false (([] ++ dimensions sizes).dropWhile Text.isDigit) = true
      rw [hdrop]
      exact hall

theorem text_ne {text : List Char} (h : isElementary text = false) (word : Elementary) :
    word.text ≠ text := by
  rintro rfl
  have helementary := isElementary_text word []
  rw [show dimensions [] = [] from rfl, List.append_nil, h] at helementary
  cases helementary

/-- A name that looks like an elementary type and is none: there are no
numbers of seven bits. -/
theorem text_ne_uint7 (word : Elementary) : word.text ≠ "uint7".toList := by
  have huint : ∀ size, (Elementary.uint size).text ≠ "uint7".toList := by decide +kernel
  intro heq
  have hfirst : word.text.head? = some 'u' := congrArg List.head? heq
  have hsecond : word.text[1]? = some 'i' := congrArg (·[1]?) heq
  cases word with
  | uint size => exact huint size heq
  | ufixed => cases hsecond
  | int | fixed | fixedBytes | address | bool | string | bytes => cases hfirst

theorem isElementary_payable (sizes : List (Option Nat)) :
    isElementary ("address payable".toList ++ dimensions sizes) = true := by
  have hentry : elementaryWords[2]? =
      some ("address", fun text => (after? " payable".toList text).getD text) := rfl
  have hrest : areDimensions false ((after? " payable".toList
      (" payable".toList ++ dimensions sizes)).getD (" payable".toList ++ dimensions sizes)) =
        true := by
    rw [after?_append]
    exact (isDimensions_dimensions sizes).areDimensions
  exact isElementary_of_entry (List.mem_of_getElem? hentry) hrest

/-! ## What parameters are declared as -/

/-- The type that the parameter is declared with. -/
def Param.DeclaredAs (param : Param) (type : List Char) : Prop :=
  param.solidityType? = some (.str (String.ofList type))

theorem Param.DeclaredAs.unique {param : Param} {type other : List Char}
    (h : param.DeclaredAs type) (hother : param.DeclaredAs other) : type = other :=
  String.ofList_injective (Json.str.inj (Option.some.inj (h.symm.trans hother)))

/-- A structure is declared by its bare name. -/
theorem IsStruct.spec {components : List Param} {param : Param}
    (h : IsStruct name components param) :
    ∃ source sizes, textOf? param.internalType = some source ∧
      startsWith "struct " source = true ∧ structName source = name.toList ∧
      param.components = some components ∧
      param.DeclaredAs (name.toList ++ dimensions sizes) ∧
      param.canonical = tuple (components.map Param.canonical) ++ dimensions sizes ∧
      param.type = .str (String.ofList ("tuple".toList ++ dimensions sizes)) := by
  obtain @⟨label, indexed, scopes, sizes, hname, hfree, hscopes⟩ := h
  have hbare := structName_source hname hscopes sizes
  have hne : "struct ".toList ++ (qualified scopes name ++ dimensions sizes) ≠ [] := by simp
  have hstruct := startsWith_append "struct " (qualified scopes name ++ dimensions sizes)
  refine ⟨_, sizes, by rw [textOf?, String.toList_ofList], hstruct, hbare, rfl, ?_, ?_, rfl⟩
  · rw [Param.DeclaredAs, solidityType?_eq hne, sourceType?_struct hstruct, hbare]
  · have htype :
        (Json.str (String.ofList ("tuple".toList ++ dimensions sizes))).text.toList.drop 5 =
          dimensions sizes := by
      change (String.ofList ("tuple".toList ++ dimensions sizes)).toList.drop 5 = _
      rw [String.toList_ofList]
      rfl
    rw [Param.canonical, canonicals_eq, htype]

/-- The name and the components of a structure are its own. -/
theorem IsStruct.unique {components others : List Param} {other : String} {param : Param}
    (h : IsStruct name components param) (hother : IsStruct other others param) :
    other = name ∧ others = components := by
  obtain ⟨source, -, hsource, -, hname, hcomponents, -⟩ := h.spec
  obtain ⟨source', -, hsource', -, hname', hcomponents', -⟩ := hother.spec
  obtain rfl := Option.some.inj (hsource.symm.trans hsource')
  refine ⟨String.toList_inj.mp (hname'.symm.trans hname), ?_⟩
  exact Option.some.inj (hcomponents'.symm.trans hcomponents)

theorem IsStruct.notMem_bracket {components : List Param} {param : Param}
    (h : IsStruct name components param) : '[' ∉ name.toList := by
  obtain @⟨label, indexed, scopes, sizes, hname, hfree, hscopes⟩ := h
  exact fun hmem => ne_of_isNameChar (hname.2 '[' hmem) (by decide) rfl

/-- A parameter that is no structure has an elementary type, and is declared
with it or, if it is an address, as one that ether may be sent to. -/
structure IsPlain (word : Elementary) (sizes : List (Option Nat)) (param : Param) : Prop where
  components : param.components = none
  canonical : param.canonical = word.text ++ dimensions sizes
  declared : param.DeclaredAs (word.text ++ dimensions sizes) ∨
    word = .address ∧ param.DeclaredAs ("address payable".toList ++ dimensions sizes)

theorem canonical_plain {label internalType indexed : Json} {type : List Char} :
    Param.canonical ⟨label, .str (String.ofList type), internalType, indexed, none⟩ = type := by
  rw [Param.canonical]
  exact String.toList_ofList ..

theorem text_ne_nil (word : Elementary) (sizes : List (Option Nat)) :
    word.text ++ dimensions sizes ≠ [] := by
  intro hnil
  have htext := (List.append_eq_nil_iff.mp hnil).1
  cases word <;> cases htext

theorem IsValue.notMem_blank {source : List Char} {param : Param} (h : IsValue source param) :
    ' ' ∉ source := by
  obtain @⟨label, indexed, scopes, name, word, sizes, hname, hfree, hscopes, rfl⟩ := h
  intro hmem
  rcases List.mem_append.mp hmem with hmem | hmem
  · exact notMem_qualified hname hscopes (by decide) (by decide) hmem
  · exact notMem_dimensions (by decide) (by decide) (by decide) hmem

theorem IsValue.internalType {source : List Char} {param : Param} (h : IsValue source param) :
    param.internalType = .str (String.ofList source) := by
  cases h
  rfl

theorem IsValue.ne_nil {source : List Char} {param : Param} (h : IsValue source param) :
    source ≠ [] := by
  obtain @⟨label, indexed, scopes, name, word, sizes, hname, hfree, hscopes, rfl⟩ := h
  obtain ⟨c, rest, heq, -⟩ := head_qualified hname hscopes
  rw [heq]
  exact List.cons_ne_nil _ _

/-- What a value type is declared as, if its name does not look like an
elementary type and if it does. -/
theorem IsValue.declared {source : List Char} {param : Param} (h : IsValue source param) :
    ∃ (word : Elementary) (sizes : List (Option Nat)), param.components = none ∧
      param.canonical = word.text ++ dimensions sizes ∧
      param.DeclaredAs (if isElementary source then source else word.text ++ dimensions sizes) := by
  have hblank := h.notMem_blank
  have hne := h.ne_nil
  obtain @⟨label, indexed, scopes, name, word, sizes, hname, hfree, hscopes, rfl⟩ := h
  refine ⟨word, sizes, rfl, canonical_plain, ?_⟩
  rw [Param.DeclaredAs, solidityType?_eq hne, sourceType?_of_notMem hblank]
  split <;> rfl

/-- A value type is not called by an elementary type in the source. -/
theorem IsValue.source_ne {source : List Char} {param : Param} (h : IsValue source param)
    (word : Elementary) (sizes : List (Option Nat)) : source ≠ word.text ++ dimensions sizes := by
  obtain @⟨label, indexed, scopes, name, other, others, hname, hfree, hscopes, rfl⟩ := h
  intro hsame
  have hword := congrArg (unqualified ∘ stripDimensions) hsame
  simp only [Function.comp] at hword
  rw [stripDimensions_append (notMem_qualified hname hscopes (by decide) (by decide)),
    stripDimensions_append (notMem_text word (by decide)), unqualified_qualified hname,
    unqualified_of_notMem (notMem_text word (by decide))] at hword
  exact hfree word hword.symm

theorem Emitted.cases {param : Param} (h : Emitted param)
    (hvalues : ∀ source, IsValue source param → isElementary source = false) :
    (∃ name components, IsStruct name components param) ∨
      ∃ word sizes, IsPlain word sizes param := by
  cases h with
  | elementary word sizes =>
      have hblank : ' ' ∉ word.text ++ dimensions sizes := by
        intro hmem
        rcases List.mem_append.mp hmem with hmem | hmem
        · exact notMem_text word (by decide) hmem
        · exact notMem_dimensions (by decide) (by decide) (by decide) hmem
      refine .inr ⟨word, sizes, rfl, canonical_plain, .inl ?_⟩
      rw [Param.DeclaredAs, solidityType?_eq (text_ne_nil word sizes),
        sourceType?_of_notMem hblank, isElementary_text, if_pos rfl]
  | payable sizes =>
      refine .inr ⟨.address, sizes, rfl, canonical_plain, .inr ⟨rfl, ?_⟩⟩
      have hne : "address payable".toList ++ dimensions sizes ≠ [] := by simp
      have helementary := isElementary_payable sizes
      have hcontract : startsWith "contract " ("address payable".toList ++ dimensions sizes) =
        false := rfl
      have henum : startsWith "enum " ("address payable".toList ++ dimensions sizes) = false := rfl
      have hstruct : startsWith "struct " ("address payable".toList ++ dimensions sizes) =
        false := rfl
      rw [Param.DeclaredAs, solidityType?_eq hne]
      simp only [Param.sourceType?, hcontract, henum, hstruct, helementary, Bool.false_eq_true,
        if_false, if_true]
  | contract name sizes =>
      refine .inr ⟨.address, sizes, rfl, canonical_plain, .inl ?_⟩
      have hne : "contract ".toList ++ (name.toList ++ dimensions sizes) ≠ [] := by simp
      have htype : ("address".toList ++ dimensions sizes).drop 7 = dimensions sizes := rfl
      rw [Param.DeclaredAs, solidityType?_eq hne]
      simp only [Param.sourceType?, startsWith_append, if_true, textOf?, Option.map_some,
        String.toList_ofList, htype]
      rfl
  | enum name sizes =>
      refine .inr ⟨.uint 0, sizes, rfl, canonical_plain, .inl ?_⟩
      have hne : "enum ".toList ++ (name.toList ++ dimensions sizes) ≠ [] := by simp
      rw [Param.DeclaredAs, solidityType?_eq hne, sourceType?_enum]
      rfl
  | @value source param h =>
      obtain ⟨word, sizes, hcomponents, hcanonical, hdeclared⟩ := h.declared
      rw [hvalues source h, if_neg Bool.false_ne_true] at hdeclared
      exact .inr ⟨word, sizes, hcomponents, hcanonical, .inl hdeclared⟩
  | struct h hcomponents => exact .inl ⟨_, _, h⟩

end

end SolDeployer.Abi
