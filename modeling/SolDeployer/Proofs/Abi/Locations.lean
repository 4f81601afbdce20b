import SolDeployer.Proofs.Abi.Collection

/-!
# Data locations

A parameter of a constructor needs a data location if it is a text, some
bytes, an array or a tuple, which the interface says (`NeedsLocation`).
Whether it gets one is decided by the type that it is declared with, and by
the names of the structures that are defined beside it. The two types end
with the same dimensions, so the question is only what stands before these
(`needsMemory_append`, `isStruct_append`).

The one thing that goes wrong is a name: a value type which looks like an
elementary type is declared by its own name, and a structure may have that
name too. The parameter is then taken for the structure (`Misread`). No other
parameter is, since the names of structures are neither words of elementary
types nor keywords.
-/

namespace SolDeployer.Abi

open TypeText
open Solidity (IsName isNameChar)

/-! ## Parameters as compilers describe them -/

/-- The parameters that a compiler writes, with or without the types in the
source. An old one gives an enumeration of more than 256 members a wider
number, and a value type stands for neither a text nor bytes of any length. -/
inductive Described : Param → Prop
  | untyped {label internalType indexed : Json} (word : Elementary) (sizes : List (Option Nat))
      (hblank : internalType.isBlank = true) :
      Described
        { name := label
          type := .str (String.ofList (word.text ++ dimensions sizes))
          internalType := internalType
          indexed := indexed
          components := none }
  | typed {param : Param} (h : Emitted param) (hnone : param.components = none)
      (hvalue : ∀ source, IsValue source param →
        param.type ≠ .str "string" ∧ param.type ≠ .str "bytes") : Described param
  | enum {label indexed : Json} (size : Fin 32) (name : String) (sizes : List (Option Nat)) :
      Described
        { name := label
          type := .str (String.ofList ((Elementary.uint size).text ++ dimensions sizes))
          internalType := .str (String.ofList ("enum ".toList ++ (name.toList ++ dimensions sizes)))
          indexed := indexed
          components := none }
  | function {label internalType indexed : Json} (sizes : List (Option Nat))
      (hsource : internalType.isBlank = true ∨ ∃ signature : List Char,
        internalType = .str (String.ofList ("function ".toList ++ signature))) :
      Described
        { name := label
          type := .str (String.ofList ("function".toList ++ dimensions sizes))
          internalType := internalType
          indexed := indexed
          components := none }
  | struct {name : String} {components : List Param} {param : Param}
      (h : IsStruct name components param) (hkeyword : name ≠ "function")
      (hcomponents : ∀ c ∈ components, Described c) : Described param

/-- The type in the interface is that of a text, of some bytes, of a tuple or
of an array. -/
def NeedsLocation (type : Json) : Prop :=
  type = .str "string" ∨ type = .str "bytes" ∨ type = .str "tuple" ∨
    ∃ (base : List Char) (sizes : List (Option Nat)), sizes ≠ [] ∧
      type = .str (String.ofList (base ++ dimensions sizes))

/-- The parameter has a value type which looks like an elementary type and
has the name of one of these structures. -/
def Misread (names : List String) (param : Param) : Prop :=
  ∃ source, IsValue source param ∧ isElementary source = true ∧
    String.ofList (stripDimensions source) ∈ names

section

variable {params components : List Param} {param : Param} {structs : Structs}
  {names : List String} {name : String} {base declared : List Char} {sizes : List (Option Nat)}

/-! ## What stands before the dimensions -/

theorem needsMemory_append (h : '[' ∉ base) (sizes : List (Option Nat)) :
    needsMemory (base ++ dimensions sizes) = true ↔ sizes ≠ [] ∨ isDynamicWord base = true := by
  rw [needsMemory, Bool.or_eq_true, hasDimensions_append h]
  cases sizes with
  | nil =>
      rw [show dimensions [] = [] from rfl, List.append_nil, or_comm]
  | cons size rest =>
      exact iff_of_true (.inr (List.cons_ne_nil _ _)) (.inl (List.cons_ne_nil _ _))

theorem isStruct_append (h : '[' ∉ base) (sizes : List (Option Nat)) :
    isStruct names (base ++ dimensions sizes) = true ↔ String.ofList base ∈ names := by
  rw [isStruct, stripDimensions_append h, List.contains_iff_mem]

theorem mem_dimensions (h : sizes ≠ []) : '[' ∈ dimensions sizes := by
  obtain ⟨size, rest, rfl⟩ := List.exists_cons_of_ne_nil h
  rw [dimensions_cons]
  exact List.mem_cons_self

theorem needsLocation_append (h : '[' ∉ base) (sizes : List (Option Nat)) :
    NeedsLocation (.str (String.ofList (base ++ dimensions sizes))) ↔
      sizes ≠ [] ∨ isDynamicWord base = true ∨ base = "tuple".toList := by
  cases sizes with
  | cons size rest =>
      have hne := List.cons_ne_nil size rest
      exact iff_of_true (.inr (.inr (.inr ⟨base, _, hne, rfl⟩))) (.inl hne)
  | nil =>
      have hword (word : String) :
          Json.str (String.ofList (base ++ dimensions [])) = .str word ↔ base = word.toList := by
        rw [show dimensions [] = [] from rfl, List.append_nil, Json.str.injEq,
          ← String.toList_inj, String.toList_ofList]
      rw [NeedsLocation, hword, hword, hword, isDynamicWord_iff, or_assoc]
      constructor
      · rintro (htext | hbytes | htuple | ⟨other, sizes, hsizes, heq⟩)
        · exact .inr (.inl htext)
        · exact .inr (.inr (.inl hbytes))
        · exact .inr (.inr (.inr htuple))
        · have hsame := String.ofList_injective (Json.str.inj heq)
          rw [show dimensions [] = [] from rfl, List.append_nil] at hsame
          exact absurd (hsame ▸ List.mem_append_right _ (mem_dimensions hsizes)) h
      · rintro (hsizes | htext | hbytes | htuple)
        · exact absurd rfl hsizes
        · exact .inl htext
        · exact .inr (.inl hbytes)
        · exact .inr (.inr (.inl htuple))

/-! ## Bases -/

/-- The words of elementary types, and that of functions. -/
inductive IsWord : List Char → Prop
  | elementary (word : Elementary) : IsWord word.text
  | function : IsWord "function".toList

/-- The base of the type in the interface, and that of the type that the
parameter is declared with. Both have these dimensions. -/
structure Param.HasBases (param : Param) (base declared : List Char)
    (sizes : List (Option Nat)) : Prop where
  type : param.type = .str (String.ofList (base ++ dimensions sizes))
  declared : param.DeclaredAs (declared ++ dimensions sizes)

theorem IsWord.notMem_bracket (h : IsWord base) : '[' ∉ base := by
  cases h with
  | elementary word => exact notMem_text word (by decide)
  | function => decide

theorem IsWord.ne_tuple (h : IsWord base) : base ≠ "tuple".toList := by
  cases h with
  | elementary word => exact text_ne (by decide +kernel) word
  | function => decide

theorem IsStruct.hasBases (h : IsStruct name components param) :
    ∃ sizes, param.HasBases "tuple".toList name.toList sizes := by
  obtain ⟨-, sizes, -, -, -, -, hdeclared, -, htype⟩ := h.spec
  exact ⟨sizes, htype, hdeclared⟩

/-- A value type that looks like an elementary type is declared by its own
name. -/
theorem IsValue.hasBases {source : List Char} (h : IsValue source param)
    (helementary : isElementary source = true) :
    ∃ (word : Elementary) (bare : List Char) (sizes : List (Option Nat)),
      source = bare ++ dimensions sizes ∧ '[' ∉ bare ∧ (∀ other : Elementary, bare ≠ other.text) ∧
        param.HasBases word.text bare sizes := by
  have hnotword := h.source_ne
  have hblank := h.notMem_blank
  have hne := h.ne_nil
  obtain @⟨label, indexed, scopes, name, word, sizes, hname, hfree, hscopes, rfl⟩ := h
  refine ⟨word, qualified scopes name, sizes, rfl,
    notMem_qualified hname hscopes (by decide) (by decide), ?_, rfl, ?_⟩
  · intro other heq
    exact hnotword other sizes (by rw [heq])
  · rw [Param.DeclaredAs, solidityType?_eq hne, sourceType?_of_notMem hblank, if_pos helementary]

/-- What is no structure and not misread is declared with the word in the
interface or, if it is an address, as one that ether may be sent to. -/
theorem Described.hasBases (h : Described param) (hnone : param.components = none)
    (hvalues : ∀ source, IsValue source param → isElementary source = false) :
    ∃ base declared sizes, IsWord base ∧ param.HasBases base declared sizes ∧
      (declared = base ∨ base = "address".toList ∧ declared = "address payable".toList) := by
  cases h with
  | untyped word sizes hblank =>
      refine ⟨_, _, sizes, .elementary word, ⟨rfl, ?_⟩, .inl rfl⟩
      rw [Param.DeclaredAs, Param.solidityType?, if_pos hblank]
  | typed h _ _ =>
      obtain ⟨text, htext⟩ := h.isTyped.type
      rcases h.cases hvalues with ⟨name, components, hstruct⟩ | ⟨word, sizes, hplain⟩
      · rw [hstruct.defines.components] at hnone
        cases hnone
      · have htype : param.type = .str (String.ofList (word.text ++ dimensions sizes)) := by
          have hcanonical := hplain.canonical
          obtain ⟨label, type, internalType, indexed, components⟩ := param
          obtain rfl : components = none := hnone
          obtain rfl : type = .str text := htext
          rw [← hcanonical, Param.canonical]
          exact congrArg Json.str String.ofList_toList.symm
        rcases hplain.declared with hdeclared | ⟨rfl, hdeclared⟩
        · exact ⟨_, _, sizes, .elementary word, ⟨htype, hdeclared⟩, .inl rfl⟩
        · exact ⟨_, _, sizes, .elementary .address, ⟨htype, hdeclared⟩, .inr ⟨rfl, rfl⟩⟩
  | enum size name sizes =>
      refine ⟨_, _, sizes, .elementary (.uint size), ⟨rfl, ?_⟩, .inl rfl⟩
      have hne : "enum ".toList ++ (name.toList ++ dimensions sizes) ≠ [] := by simp
      rw [Param.DeclaredAs, solidityType?_eq hne, sourceType?_enum]
  | function sizes hsource =>
      refine ⟨_, _, sizes, .function, ⟨rfl, ?_⟩, .inl rfl⟩
      rcases hsource with hblank | ⟨signature, rfl⟩
      · rw [Param.DeclaredAs, Param.solidityType?, if_pos hblank]
      · have hne : "function ".toList ++ signature ≠ [] := by simp
        rw [Param.DeclaredAs, solidityType?_eq hne]
        rfl
  | struct h hkeyword hcomponents =>
      rw [h.defines.components] at hnone
      cases hnone

/-! ## Names of structures -/

/-- Only structures have components. -/
theorem Described.isStruct (h : Described param) (hcomponents : param.components = some components) :
    ∃ name, IsStruct name components param ∧ name ≠ "function" ∧ ∀ c ∈ components, Described c := by
  cases h with
  | untyped | enum | function => cases hcomponents
  | typed _ hnone _ =>
      rw [hnone] at hcomponents
      cases hcomponents
  | struct h hkeyword hall =>
      obtain rfl := Option.some.inj (h.defines.components.symm.trans hcomponents)
      exact ⟨_, h, hkeyword, hall⟩

theorem Occurs.described (h : Occurs params param) (hparams : ∀ p ∈ params, Described p) :
    Described param := by
  induction h with
  | root h => exact hparams _ h
  | component _ hcomponents hmem ih =>
      obtain ⟨-, -, -, hall⟩ := ih.isStruct hcomponents
      exact hall _ hmem

theorem Described.isTyped (h : Described param) : param.IsTyped := by
  cases h with
  | untyped word sizes hblank => exact ⟨⟨_, rfl⟩, .inl hblank⟩
  | typed h _ _ => exact h.isTyped
  | enum => exact ⟨⟨_, rfl⟩, .inr ⟨_, rfl⟩⟩
  | function sizes hsource =>
      refine ⟨⟨_, rfl⟩, hsource.imp_right ?_⟩
      rintro ⟨signature, rfl⟩
      exact ⟨_, rfl⟩
  | struct h => exact h.isTyped

theorem Recorded.isStruct (h : Recorded params structs) (hparams : ∀ p ∈ params, Described p)
    (hname : name ∈ structs.names) :
    ∃ components q, IsStruct name components q ∧ name ≠ "function" := by
  obtain ⟨fields, hget⟩ := Entries.exists_get?_of_mem_keys hname
  obtain ⟨q, components, hoccurs, hdefines, -, -⟩ := h.origin name fields hget
  obtain ⟨other, hstruct, hkeyword, -⟩ :=
    (hoccurs.described hparams).isStruct hdefines.components
  obtain rfl := Option.some.inj (hstruct.defines.name.symm.trans hdefines.name)
  exact ⟨components, q, hstruct, hkeyword⟩

/-- No structure has the name that another kind of parameter is declared
with. -/
theorem Recorded.notMem_word (h : Recorded params structs) (hparams : ∀ p ∈ params, Described p)
    (hbase : IsWord base)
    (hdeclared : declared = base ∨ base = "address".toList ∧ declared = "address payable".toList) :
    String.ofList declared ∉ structs.names := by
  intro hmem
  obtain ⟨components, q, hstruct, hkeyword⟩ := h.isStruct hparams hmem
  obtain @⟨label, indexed, scopes, sizes, hname, hfree, hscopes⟩ := hstruct
  rcases hdeclared with rfl | ⟨-, rfl⟩
  · cases hbase with
    | elementary word => exact hfree word (String.toList_ofList ..).symm
    | function => exact hkeyword rfl
  · have hblank := hname.2 ' ' (by decide)
    cases hblank

/-! ## Declarations -/

/-- A type is given a data location, since it needs one or is one of these
structures. -/
def HasLocation (names : List String) (type : List Char) : Prop :=
  (needsMemory type || TypeText.isStruct names type) = true

/-- A type with dimensions gets a data location by these, or by what stands
before them. -/
theorem hasLocation_append (h : '[' ∉ declared) (sizes : List (Option Nat)) :
    HasLocation names (declared ++ dimensions sizes) ↔
      sizes ≠ [] ∨ isDynamicWord declared = true ∨ String.ofList declared ∈ names := by
  rw [HasLocation, Bool.or_eq_true, needsMemory_append h, isStruct_append h, or_assoc]

theorem IsStruct.location (h : IsStruct name components param) (hname : name ∈ names)
    {type : List Char} (htype : param.DeclaredAs type) :
    HasLocation names type ∧ NeedsLocation param.type := by
  obtain ⟨sizes, hbases⟩ := h.hasBases
  obtain rfl := htype.unique hbases.declared
  have hfound : String.ofList name.toList ∈ names := by rwa [String.ofList_toList]
  refine ⟨(hasLocation_append h.notMem_bracket sizes).mpr (.inr (.inr hfound)), ?_⟩
  rw [hbases.type]
  exact (needsLocation_append (by decide) sizes).mpr (.inr (.inr rfl))

/-- A word is declared as it is, up to the addresses that ether may be sent
to, so the two types need a data location for the same reason. -/
theorem IsWord.location_iff (h : IsWord base)
    (hdeclared : declared = base ∨ base = "address".toList ∧ declared = "address payable".toList)
    (hfree : String.ofList declared ∉ names) (sizes : List (Option Nat)) :
    HasLocation names (declared ++ dimensions sizes) ↔
      NeedsLocation (.str (String.ofList (base ++ dimensions sizes))) := by
  have hbracket : '[' ∉ declared := by
    rcases hdeclared with rfl | ⟨-, rfl⟩
    · exact h.notMem_bracket
    · decide
  have hdynamic : isDynamicWord declared = isDynamicWord base := by
    rcases hdeclared with rfl | ⟨rfl, rfl⟩
    · rfl
    · decide
  rw [hasLocation_append hbracket, needsLocation_append h.notMem_bracket, hdynamic,
    or_iff_left hfree, or_iff_left h.ne_tuple]

/-- A value type that is declared by its own name gets a data location as an
array, or because a structure has that name. -/
theorem IsValue.location_iff {source : List Char} (h : IsValue source param)
    (helementary : isElementary source = true)
    (hplain : param.type ≠ .str "string" ∧ param.type ≠ .str "bytes") {type : List Char}
    (htype : param.DeclaredAs type) :
    HasLocation names type ↔ NeedsLocation param.type ∨ Misread names param := by
  obtain ⟨word, bare, sizes, rfl, hbracket, hfree, hbases⟩ := h.hasBases helementary
  obtain rfl := htype.unique hbases.declared
  have hdynamic : isDynamicWord bare = false := by
    rw [Bool.eq_false_iff, ne_eq, isDynamicWord_iff]
    exact fun hword => hword.elim (hfree .string) (hfree .bytes)
  have hmisread : Misread names param ↔ String.ofList bare ∈ names := by
    constructor
    · rintro ⟨source, hvalue, -, hmem⟩
      have hsame := hvalue.internalType.symm.trans h.internalType
      rw [String.ofList_injective (Json.str.inj hsame), stripDimensions_append hbracket] at hmem
      exact hmem
    · intro hmem
      exact ⟨_, h, helementary, by rwa [stripDimensions_append hbracket]⟩
  have hneeds : NeedsLocation param.type ↔ sizes ≠ [] := by
    have hword := IsWord.elementary word
    rw [hbases.type, needsLocation_append hword.notMem_bracket, or_iff_left hword.ne_tuple]
    refine ⟨fun hneeds => hneeds.elim id ?_, .inl⟩
    -- a value type stands for neither of the two words that need a location
    rintro hdynamic rfl
    rcases isDynamicWord_iff.mp hdynamic with htext | hbytes
    · exact hplain.1 (by rw [hbases.type, htext]; rfl)
    · exact hplain.2 (by rw [hbases.type, hbytes]; rfl)
  rw [hasLocation_append hbracket, hdynamic, hmisread, hneeds, Bool.false_eq_true, false_or]

theorem Described.plain (h : Described param) {source : List Char} (hvalue : IsValue source param) :
    param.type ≠ .str "string" ∧ param.type ≠ .str "bytes" := by
  have htype := hvalue.internalType
  have hsource : param.internalType.isBlank = false := by
    rw [htype]
    exact beq_eq_false_iff_ne.mpr (mt String.ofList_eq_empty_iff.mp hvalue.ne_nil)
  cases h with
  | untyped word sizes hblank =>
      rw [hblank] at hsource
      cases hsource
  | typed _ _ hplain => exact hplain source hvalue
  | enum size name sizes =>
      obtain rfl := String.ofList_injective (Json.str.inj htype)
      exact absurd (List.mem_append_left _ (by decide)) hvalue.notMem_blank
  | function sizes hfunction =>
      rcases hfunction with hblank | ⟨signature, rfl⟩
      · rw [hblank] at hsource
        cases hsource
      · obtain rfl := String.ofList_injective (Json.str.inj htype)
        exact absurd (List.mem_append_left _ (by decide)) hvalue.notMem_blank
  | struct h _ _ =>
      obtain ⟨-, -, hnone, -⟩ := hvalue.declared
      rw [h.defines.components] at hnone
      cases hnone

/-- The data location of a declaration. -/
theorem Described.location_iff (h : Described param) (hparams : ∀ p ∈ params, Described p)
    (hrecorded : Recorded params structs)
    (hknown : ∀ name components, param.Defines name components → name ∈ structs.names)
    {type : List Char} (htype : param.DeclaredAs type) :
    HasLocation structs.names type ↔ NeedsLocation param.type ∨ Misread structs.names param := by
  cases hcomponents : param.components with
  | some components =>
      obtain ⟨name, hstruct, -, -⟩ := h.isStruct hcomponents
      obtain ⟨hlocation, hneeds⟩ := hstruct.location (hknown _ _ hstruct.defines) htype
      exact iff_of_true hlocation (.inl hneeds)
  | none =>
      by_cases hvalue : ∃ source, IsValue source param ∧ isElementary source = true
      · obtain ⟨source, hvalue, helementary⟩ := hvalue
        exact hvalue.location_iff helementary (h.plain hvalue) htype
      · obtain ⟨base, declared, sizes, hbase, hbases, hdeclared⟩ :=
          h.hasBases hcomponents fun source hsource =>
            Bool.eq_false_iff.mpr fun helementary => hvalue ⟨source, hsource, helementary⟩
        have hread : ¬Misread structs.names param := fun ⟨source, hsource, helementary, _⟩ =>
          hvalue ⟨source, hsource, helementary⟩
        obtain rfl := htype.unique hbases.declared
        have hfree := hrecorded.notMem_word hparams hbase hdeclared
        rw [hbase.location_iff hdeclared hfree sizes, ← hbases.type, or_iff_left hread]

end

/-- **A declaration has a data location exactly if the type in the interface
needs one**, but for the value types that are taken for structures. Whatever
a compiler writes is declared, beside the structures that are found in it. -/
theorem memory_iff {params : List Param} (hparams : ∀ p ∈ params, Described p) :
    ∃ structs declarations, Structs.ofParams? params = some structs ∧
      Declaration.ofParams? structs.names params = some declarations ∧
      List.Forall₂ (fun p d => d.memory = true ↔ NeedsLocation p.type ∨ Misread structs.names p)
        params declarations := by
  obtain ⟨structs, declarations, hstructs, hdeclarations⟩ :=
    ofParams?_typed fun p hp => (hp.described hparams).isTyped
  obtain ⟨hrecorded, hfound⟩ := recorded_of_ofParams? hstructs
  refine ⟨structs, declarations, hstructs, hdeclarations, ?_⟩
  refine (listFrom?_members hdeclarations).imp fun p d ⟨hp, position, hd⟩ => ?_
  have htype : p.DeclaredAs d.type.toList := by
    rw [Param.DeclaredAs, String.ofList_toList, hd.type]
  rw [hd.memory]
  exact (hparams p hp).location_iff hparams hrecorded (hfound p hp) htype

/-! ### Parameters of a pool -/

namespace Pool

def fee : Param := .ofTexts "fee" "uint256" "uint256" none

def config : Param := .ofTexts "config" "tuple" "struct Pool.Config" (some [fee])

def note : Param := .ofTexts "note" "bytes" "" none

def hook : Param := .ofTexts "hook" "function" "function (uint256) external" none

def rates : Param := .ofTexts "rates" "uint256[2]" "Vault.Rate[2]" none

def kind : Param := .ofTexts "kind" "uint16" "enum Pool.Kind" none

theorem described : ∀ p ∈ [config, note, hook, rates, kind], Described p := by
  have hconfig : IsStruct "Config" [fee] config :=
    @IsStruct.mk _ _ _ _ ["Pool"] [] (by decide +kernel) (text_ne (by decide +kernel))
      (by decide +kernel)
  have hrates : IsValue "Vault.Rate[2]".toList rates :=
    @IsValue.mk _ _ _ ["Vault"] "Rate" (.uint 31) [some 2] (by decide +kernel)
      (text_ne (by decide +kernel)) (by decide +kernel) rfl
  simp only [List.forall_mem_cons, List.not_mem_nil, false_imp_iff, implies_true, and_true]
  refine ⟨.struct hconfig (by decide) ?_, .untyped .bytes [] rfl,
    .function [] (.inr ⟨"(uint256) external".toList, rfl⟩), ?_, .enum 1 "Pool.Kind" []⟩
  · refine List.forall_mem_singleton.mpr (.typed (.elementary (.uint 31) []) rfl fun _ _ => ?_)
    simp [fee, Param.ofTexts]
  · refine .typed (.value hrates) rfl fun _ _ => ?_
    simp [rates, Param.ofTexts]

theorem memory_iff_pool :
    (∀ p ∈ [config, note, hook, rates, kind], Described p) ∧ ∃ structs declarations,
      Structs.ofParams? [config, note, hook, rates, kind] = some structs ∧
      Declaration.ofParams? structs.names [config, note, hook, rates, kind] = some declarations ∧
      declarations.map Declaration.memory = [true, true, false, true, false] ∧
      List.Forall₂ (fun p d => d.memory = true ↔ NeedsLocation p.type ∨ Misread structs.names p)
        [config, note, hook, rates, kind] declarations := by
  obtain ⟨structs, declarations, hstructs, hdeclarations, hall⟩ := memory_iff described
  obtain rfl := Option.some.inj hstructs
  obtain rfl := Option.some.inj hdeclarations
  exact ⟨described, _, _, rfl, rfl, by decide +kernel, hall⟩

end Pool

/-! ### A location that is not needed -/

def openness : Param := .ofTexts "open" "bool" "bool" none

/-- A structure whose name looks like that of a number. -/
def rounds : Param := .ofTexts "rounds" "tuple" "struct Pool.uint7" (some [openness])

/-- A value type of that name. -/
def price : Param := .ofTexts "price" "uint8" "uint7" none

/-- The number gets the data location of the structure. -/
theorem memory_misplaced :
    (∀ p ∈ [rounds, price], Described p) ∧ ∃ structs round number,
      Structs.ofParams? [rounds, price] = some structs ∧
      Declaration.ofParams? structs.names [rounds, price] = some [round, number] ∧
      number.memory = true ∧ ¬NeedsLocation price.type := by
  have hrounds : IsStruct "uint7" [openness] rounds :=
    @IsStruct.mk _ _ _ _ ["Pool"] [] (by decide +kernel) text_ne_uint7 (by decide +kernel)
  have hprice : IsValue "uint7".toList price :=
    @IsValue.mk _ _ _ [] "uint7" (.uint 0) [] (by decide +kernel) text_ne_uint7 nofun rfl
  refine ⟨List.forall_mem_cons.mpr ⟨?_, List.forall_mem_singleton.mpr ?_⟩, _, _, _, rfl, rfl,
    by decide +kernel, ?_⟩
  · refine .struct hrounds (by decide) (List.forall_mem_singleton.mpr ?_)
    exact .typed (.elementary .bool []) rfl fun _ _ => by simp [openness, Param.ofTexts]
  · exact .typed (.value hprice) rfl fun _ _ => by simp [price, Param.ofTexts]
  · change ¬NeedsLocation (.str (String.ofList ("uint8".toList ++ dimensions [])))
    rw [needsLocation_append (by decide)]
    decide +kernel

end SolDeployer.Abi
