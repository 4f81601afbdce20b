import SolDeployer.Proofs.Abi.Collection
import SolDeployer.Proofs.Deployer.Planning

/-!
# Types of a constructor

A constructor takes its arguments by the canonical types of its parameters.
The generated code declares other types, with structures under their bare
names, so what it encodes is right only if each declared type stands for the
canonical one (`Expands`). Structures that share a bare name share one
declaration, so it all depends on one condition, that structures of one bare
name have the same canonical components (`Coherent`).

The structure that is recorded under a name need not be the one at hand. So
the unfolding goes by the canonical type, which is the same for both and
becomes shorter, and not by the parameter (`expands_of_collected`).
-/

namespace SolDeployer.Abi

open TypeText
open Solidity (IsName isNameChar)

/-! ## Unfolding types -/

/-- What stands before the dimensions of a type. -/
def baseOf (text : List Char) : List Char := text.takeWhile (· != '[')

def sizesOf (text : List Char) : List Char := text.dropWhile (· != '[')

/-- The canonical type of a declared type without structures. -/
def plainType (text : List Char) : List Char :=
  (if baseOf text = "address payable".toList then "address".toList else baseOf text) ++
    sizesOf text

/-- The canonical type that a declared type stands for, if its structures
can be unfolded in so many steps. -/
def expand? (structs : Structs) : (depth : Nat) → List Char → Option (List Char)
  | 0, text =>
    match structs.get? (String.ofList (baseOf text)) with
    | none => some (plainType text)
    | some _ => none
  | depth + 1, text =>
    match structs.get? (String.ofList (baseOf text)) with
    | none => some (plainType text)
    | some fields =>
      (fields.mapM fun field => expand? structs depth field.type.text.toList).map fun types =>
        tuple types ++ sizesOf text

/-- A declared type stands for a canonical one. -/
def Expands (structs : Structs) (type : String) (canonical : List Char) : Prop :=
  ∃ depth, expand? structs depth type.toList = some canonical

section

variable {structs : Structs} {base : List Char} {sizes : List (Option Nat)} {name : String}
  {params components : List Param} {param : Param}

theorem split_dimensions (h : '[' ∉ base) (sizes : List (Option Nat)) :
    baseOf (base ++ dimensions sizes) = base ∧
      sizesOf (base ++ dimensions sizes) = dimensions sizes := by
  have hbase : ∀ c ∈ base, (c != '[') = true := fun c hc =>
    bne_iff_ne.mpr fun heq => h (heq ▸ hc)
  rw [baseOf, sizesOf, List.takeWhile_append_of_pos hbase, List.dropWhile_append_of_pos hbase]
  cases sizes with
  | nil => exact ⟨List.append_nil _, rfl⟩
  | cons size rest =>
      rw [dimensions_cons]
      exact ⟨List.append_nil _, rfl⟩

theorem expand?_plain {text : List Char} (hget : structs.get? (String.ofList (baseOf text)) = none)
    (depth : Nat) : expand? structs depth text = some (plainType text) := by
  cases depth with
  | zero => simp only [expand?, hget]
  | succ depth => simp only [expand?, hget]

theorem expand?_base (h : '[' ∉ base) (hget : structs.get? (String.ofList base) = none)
    (depth : Nat) :
    expand? structs depth (base ++ dimensions sizes) =
      some ((if base = "address payable".toList then "address".toList else base) ++
        dimensions sizes) := by
  obtain ⟨hbase, hsizes⟩ := split_dimensions h sizes
  rw [expand?_plain (by rwa [hbase]), plainType, hbase, hsizes]

theorem expand?_struct {text : List Char} {fields : List Field}
    (hget : structs.get? (String.ofList (baseOf text)) = some fields) (depth : Nat) :
    expand? structs (depth + 1) text =
      (fields.mapM fun field => expand? structs depth field.type.text.toList).map fun types =>
        tuple types ++ sizesOf text := by
  simp only [expand?, hget]

theorem mapM_mono {α β : Type} {f g : α → Option β} (h : ∀ a b, f a = some b → g a = some b) :
    ∀ {items : List α} {values : List β}, items.mapM f = some values → items.mapM g = some values
  | [], _, hitems => hitems
  | item :: rest, values, hitems => by
      rw [List.mapM_cons, Option.bind_eq_bind, Option.bind_eq_some_iff] at hitems ⊢
      obtain ⟨value, hvalue, hitems⟩ := hitems
      rw [Option.bind_eq_bind, Option.bind_eq_some_iff] at hitems
      obtain ⟨others, hothers, hvalues⟩ := hitems
      refine ⟨value, h item value hvalue, ?_⟩
      rw [Option.bind_eq_bind, Option.bind_eq_some_iff]
      exact ⟨others, mapM_mono h hothers, hvalues⟩

theorem expand?_mono {depth more : Nat} (hle : depth ≤ more) {text canonical : List Char}
    (h : expand? structs depth text = some canonical) :
    expand? structs more text = some canonical := by
  induction depth generalizing more text canonical with
  | zero =>
      cases hget : structs.get? (String.ofList (baseOf text)) with
      | none =>
          rw [expand?_plain hget] at h ⊢
          exact h
      | some fields =>
          simp only [expand?, hget] at h
          cases h
  | succ depth ih =>
      cases hget : structs.get? (String.ofList (baseOf text)) with
      | none =>
          rw [expand?_plain hget] at h ⊢
          exact h
      | some fields =>
          obtain ⟨more, rfl⟩ : ∃ m, more = m + 1 := ⟨more - 1, by omega⟩
          rw [expand?_struct hget, Option.map_eq_some_iff] at h ⊢
          obtain ⟨types, htypes, htype⟩ := h
          exact ⟨types, mapM_mono (fun field type hfield => ih (by omega) hfield) htypes, htype⟩

/-- A declared type stands for one canonical type at most. -/
theorem Expands.unique {type : String} {canonical other : List Char}
    (h : Expands structs type canonical) (hother : Expands structs type other) :
    canonical = other := by
  obtain ⟨depth, hdepth⟩ := h
  obtain ⟨more, hmore⟩ := hother
  rcases Nat.le_total depth more with hle | hle
  · exact Option.some.inj ((expand?_mono hle hdepth).symm.trans hmore)
  · exact Option.some.inj (hdepth.symm.trans (expand?_mono hle hmore))

/-! ## Conditions -/

/-- Structures of one bare name have the same canonical components. -/
def Coherent (params : List Param) : Prop :=
  ∀ {p q name components others}, Occurs params p → Occurs params q →
    IsStruct name components p → IsStruct name others q →
    tuple (components.map Param.canonical) = tuple (others.map Param.canonical)

/-- No value type looks like an elementary type. -/
def Readable (params : List Param) : Prop :=
  ∀ {p source}, Occurs params p → IsValue source p → isElementary source = false

/-! ## Unfolding what is collected -/

theorem get?_plain (hcollected : Collected params structs) (word : Elementary) :
    structs.get? (String.ofList word.text) = none := by
  cases hget : structs.get? (String.ofList word.text) with
  | none => rfl
  | some fields =>
      obtain ⟨p, components, -, hstruct, -⟩ := hcollected.found _ fields hget
      obtain @⟨label, indexed, scopes, sizes, hname, hfree, hscopes⟩ := hstruct
      exact absurd (String.toList_ofList ..).symm (hfree word)

theorem get?_payable (hcollected : Collected params structs) :
    structs.get? (String.ofList "address payable".toList) = none := by
  cases hget : structs.get? (String.ofList "address payable".toList) with
  | none => rfl
  | some fields =>
      obtain ⟨p, components, -, hstruct, -⟩ := hcollected.found _ fields hget
      obtain @⟨label, indexed, scopes, sizes, hname, hfree, hscopes⟩ := hstruct
      have hblank : isNameChar ' ' = true := by
        refine hname.2 ' ' ?_
        rw [String.toList_ofList]
        decide
      exact absurd hblank (by decide)

/-- A parameter that is no structure is declared with its canonical type, as
far as addresses are alike. -/
theorem IsPlain.expands (hcollected : Collected params structs) {word : Elementary}
    (h : IsPlain word sizes param) {type : List Char} (htype : param.DeclaredAs type)
    (depth : Nat) : expand? structs depth type = some param.canonical := by
  rw [h.canonical]
  rcases h.declared with hword | ⟨rfl, hpayable⟩
  · obtain rfl := htype.unique hword
    have hblank : ' ' ∉ word.text := notMem_text word (by decide)
    have hne : word.text ≠ "address payable".toList := by
      intro heq
      rw [heq] at hblank
      exact hblank (by decide)
    rw [expand?_base (notMem_text word (by decide)) (get?_plain hcollected word), if_neg hne]
  · obtain rfl := htype.unique hpayable
    rw [expand?_base (by decide) (get?_payable hcollected), if_pos rfl]
    rfl

theorem length_le_intercalate {types : List (List Char)} {type : List Char} (h : type ∈ types) :
    type.length ≤ ([','].intercalate types).length := by
  induction types with
  | nil => cases h
  | cons first rest ih =>
      cases rest with
      | nil =>
          rw [List.mem_singleton.mp h]
          exact Nat.le_of_eq (congrArg List.length List.intercalate_singleton.symm)
      | cons second others =>
          rw [List.intercalate_cons_cons, List.length_append, List.length_append]
          rcases List.mem_cons.mp h with rfl | h
          · omega
          · have hrest := ih h
            omega

theorem length_lt_tuple {types : List (List Char)} {type : List Char} (h : type ∈ types) :
    type.length < (tuple types).length := by
  have hle := length_le_intercalate h
  rw [tuple, List.length_cons, List.length_append]
  omega

/-- Fields are unfolded if the components that they are made from are. -/
theorem mapM_fields {fields : List Field} {depth : Nat}
    (hfields : List.Forall₂ (fun c field => c.solidityType? = some field.type) components fields)
    (h : ∀ c ∈ components, ∃ type, c.DeclaredAs type ∧
      expand? structs depth type = some c.canonical) :
    (fields.mapM fun field => expand? structs depth field.type.text.toList) =
      some (components.map Param.canonical) := by
  induction hfields with
  | nil => rfl
  | @cons c field rest others hfield _ ih =>
      obtain ⟨type, htype, hexpand⟩ := h c List.mem_cons_self
      have htext : field.type.text.toList = type := by
        have hjson := Option.some.inj (hfield.symm.trans htype)
        rw [hjson]
        exact String.toList_ofList ..
      have hrest := ih fun other hother => h other (List.mem_cons_of_mem _ hother)
      rw [List.mapM_cons, htext, hexpand, hrest]
      rfl

/-- What occurs is unfolded to its canonical type, in as many steps as that
type has characters. -/
theorem expands_of_collected (hparams : ∀ p ∈ params, Emitted p) (hcoherent : Coherent params)
    (hreadable : Readable params) (hcollected : Collected params structs) {depth : Nat}
    {type : List Char} (hoccurs : Occurs params param) (hknown : Known structs param)
    (htype : param.DeclaredAs type) (hdepth : param.canonical.length ≤ depth) :
    expand? structs depth type = some param.canonical := by
  induction depth generalizing param type with
  | zero =>
      rcases (hoccurs.emitted hparams).cases (fun _ => hreadable hoccurs) with
        ⟨name, components, hstruct⟩ | ⟨word, sizes, hplain⟩
      · obtain ⟨source, sizes, -, -, -, -, -, hcanonical, -⟩ := hstruct.spec
        rw [hcanonical, tuple, List.cons_append, List.length_cons] at hdepth
        exact absurd hdepth (Nat.not_succ_le_zero _)
      · exact hplain.expands hcollected htype 0
  | succ depth ih =>
      rcases (hoccurs.emitted hparams).cases (fun _ => hreadable hoccurs) with
        ⟨name, components, hstruct⟩ | ⟨word, sizes, hplain⟩
      · obtain ⟨source, sizes, -, -, -, -, hdeclared, hcanonical, -⟩ := hstruct.spec
        obtain rfl := htype.unique hdeclared
        obtain ⟨fields, hget⟩ := Option.isSome_iff_exists.mp (hknown name components hstruct)
        -- the recorded structure may be another one, with the same canonical components
        obtain ⟨recorded, parts, hrecorded, hparts, hfields, hall⟩ :=
          hcollected.found name fields hget
        have hsame := hcoherent hrecorded hoccurs hparts hstruct
        obtain ⟨-, -, -, -, -, hsome, -⟩ := hparts.spec
        have hbelow : ∀ c ∈ parts, ∃ type, c.DeclaredAs type ∧
            expand? structs depth type = some c.canonical := by
          intro c hc
          have hpart := hrecorded.component hsome hc
          obtain ⟨type, htype⟩ := (hpart.emitted hparams).declared
          refine ⟨type, htype, ih hpart (hall c hc) htype ?_⟩
          have hshort := length_lt_tuple (List.mem_map_of_mem (f := Param.canonical) hc)
          rw [hsame] at hshort
          rw [hcanonical, List.length_append] at hdepth
          omega
        obtain ⟨hbase, hsizes⟩ := split_dimensions hstruct.notMem_bracket sizes
        have hfound : structs.get? (String.ofList (baseOf (name.toList ++ dimensions sizes))) =
            some fields := by rw [hbase, String.ofList_toList, hget]
        rw [expand?_struct hfound, mapM_fields (fieldsFrom?_types hfields) hbelow, Option.map_some,
          hsame, hsizes, hcanonical]
      · exact hplain.expands hcollected htype (depth + 1)

/-! ## Declarations -/

theorem listFrom?_declared (names : List String) (h : ∀ p ∈ params, ∃ type, p.DeclaredAs type)
    (index : Nat) :
    ∃ declarations, Declaration.listFrom? names index params = some declarations ∧
      List.Forall₂ (fun p d => p.DeclaredAs d.type.toList) params declarations := by
  obtain ⟨declarations, hdeclarations⟩ :=
    listFrom?_isSome names (fun p hp => (h p hp).imp' String.ofList fun _ htype => htype) index
  refine ⟨declarations, hdeclarations, ?_⟩
  refine (listFrom?_members hdeclarations).imp fun p declaration ⟨_, position, hof⟩ => ?_
  rw [Param.DeclaredAs, String.ofList_toList, hof.type]

/-- Dimensions are kept in unfolding. -/
theorem expand?_dimensions (h : '[' ∉ base) {fields : List Field}
    (hget : structs.get? (String.ofList base) = some fields) (depth : Nat) :
    expand? structs depth (base ++ dimensions sizes) =
      (expand? structs depth base).map (· ++ dimensions sizes) := by
  obtain ⟨hbase, hsizes⟩ := split_dimensions h sizes
  obtain ⟨hbase', hsizes'⟩ := split_dimensions h []
  change baseOf (base ++ []) = base at hbase'
  change sizesOf (base ++ []) = [] at hsizes'
  rw [List.append_nil] at hbase' hsizes'
  cases depth with
  | zero => simp only [expand?, hbase, hbase', hget, Option.map_none]
  | succ depth =>
      rw [expand?_struct (by rw [hbase, hget]), expand?_struct (by rw [hbase', hget]), hsizes,
        hsizes', Option.map_map]
      congr 1
      funext types
      exact congrArg (· ++ dimensions sizes) (List.append_nil _).symm

/-- A structure that is declared with the right type has the components of
the one that is recorded. -/
theorem IsStruct.expands_bare (h : IsStruct name components param) (hknown : Known structs param)
    {declaration : Declaration} (htype : param.DeclaredAs declaration.type.toList)
    (hexpands : Expands structs declaration.type param.canonical) :
    Expands structs name (tuple (components.map Param.canonical)) := by
  obtain ⟨source, sizes, -, -, -, -, hdeclared, hcanonical, -⟩ := h.spec
  obtain ⟨fields, hget⟩ := Option.isSome_iff_exists.mp (hknown name components h)
  obtain ⟨depth, hdepth⟩ := hexpands
  rw [htype.unique hdeclared, hcanonical,
    expand?_dimensions h.notMem_bracket (by rw [String.ofList_toList, hget]),
    Option.map_eq_some_iff] at hdepth
  obtain ⟨type, hdepth, hsame⟩ := hdepth
  exact ⟨depth, List.append_cancel_right hsame ▸ hdepth⟩

end

/-! ## Constructors -/

/-- The type that a parameter is declared with stands for its canonical type. -/
def IsFaithful (structs : Structs) (param : Param) (declaration : Declaration) : Prop :=
  Expands structs declaration.type param.canonical

theorem exists_of_forall₂ {first second : Param → Declaration → Prop}
    {params : List Param} {declarations : List Declaration} {param : Param}
    (hfirst : List.Forall₂ first params declarations)
    (hsecond : List.Forall₂ second params declarations) (h : param ∈ params) :
    ∃ declaration, first param declaration ∧ second param declaration := by
  obtain ⟨⟨i, hi⟩, rfl⟩ := List.get_of_mem h
  have hj : i < declarations.length := hfirst.length_eq ▸ hi
  exact ⟨declarations.get ⟨i, hj⟩, hfirst.get hi hj, hsecond.get hi hj⟩

/-- **The types of a constructor are right if its structures of one bare name
agree.** Whatever a compiler writes is declared, each bare name once, and a
deployer has just these structures and parameters. All types stand for the
canonical ones if structures of one bare name have the same canonical
components and no value type looks like an elementary type. Not all of them
do if two parameters are structures of one bare name whose canonical
components differ. -/
theorem constructor_types_faithful {params : List Param} (hparams : ∀ p ∈ params, Emitted p) :
    ∃ structs declarations, Structs.ofParams? params = some structs ∧
      Declaration.ofParams? structs.names params = some declarations ∧ structs.names.Nodup ∧
      (Coherent params → Readable params →
        List.Forall₂ (IsFaithful structs) params declarations) ∧
      (List.Forall₂ (IsFaithful structs) params declarations →
        ∀ p ∈ params, ∀ q ∈ params, ∀ name components others, IsStruct name components p →
          IsStruct name others q →
          tuple (components.map Param.canonical) = tuple (others.map Param.canonical)) ∧
      ∀ artifact options d, Deployer.inputsOf artifact = params →
        (Deployer.plan artifact options).result = .ok d →
        d.structs = structs ∧ d.params = declarations := by
  obtain ⟨structs, hstructs, hcollected, hknown⟩ := ofParams?_collected hparams
  obtain ⟨declarations, hdeclarations, htypes⟩ :=
    listFrom?_declared structs.names (fun p hp => (hparams p hp).declared) 0
  refine ⟨structs, declarations, hstructs, hdeclarations, hcollected.nodup, ?_, ?_, ?_⟩
  · intro hcoherent hreadable
    have hall := (List.forall₂_and_left params declarations).mpr ⟨fun p hp => hp, htypes⟩
    refine hall.imp fun p d hd => ?_
    exact ⟨_, expands_of_collected hparams hcoherent hreadable hcollected (.root hd.1)
      (hknown p hd.1) hd.2 (Nat.le_refl _)⟩
  · intro hfaithful p hp q hq name components others hstruct hother
    obtain ⟨d, htype, hd⟩ := exists_of_forall₂ htypes hfaithful hp
    obtain ⟨e, htype', he⟩ := exists_of_forall₂ htypes hfaithful hq
    exact (hstruct.expands_bare (hknown p hp) htype hd).unique
      (hother.expands_bare (hknown q hq) htype' he)
  · intro artifact options d hinputs hplan
    have hd := Deployer.planned hplan
    have hsame : some d.structs = some structs := by
      rw [← hd.structs, hinputs, hstructs]
    obtain rfl := Option.some.inj hsame
    have hparams := hd.params
    rw [hinputs] at hparams
    exact ⟨rfl, Option.some.inj (hparams.symm.trans hdeclarations)⟩

/-! ### Two configurations -/

namespace Configs

def fee : Param := .ofTexts "fee" "uint256" "uint256" none

def owner : Param := .ofTexts "owner" "address" "address payable" none

def rate : Param := .ofTexts "rate" "uint256" "Vault.Rate" none

def keeper : Param := .ofTexts "keeper" "address" "contract IKeeper" none

def pool : Param := .ofTexts "pool" "tuple" "struct Pool.Config" (some [fee, owner])

def vaults : Param := .ofTexts "vaults" "tuple[2]" "struct Vault.Config[2]" (some [rate, keeper])

theorem emitted : ∀ p ∈ [pool, vaults], Emitted p := by
  have hconfig : IsName "Config" := by decide +kernel
  have hfree : ∀ word : Elementary, word.text ≠ "Config".toList := text_ne (by decide +kernel)
  have hrate : IsValue "Vault.Rate".toList rate :=
    @IsValue.mk _ _ _ ["Vault"] "Rate" (.uint 31) [] (by decide +kernel)
      (text_ne (by decide +kernel)) (by decide +kernel) rfl
  refine List.forall_mem_cons.mpr ⟨?_, List.forall_mem_singleton.mpr ?_⟩
  · exact .struct (@IsStruct.mk "Config" _ _ _ ["Pool"] [] hconfig hfree (by decide +kernel))
      (List.forall_mem_cons.mpr ⟨.elementary (.uint 31) [],
        List.forall_mem_singleton.mpr (.payable [])⟩)
  · exact .struct (@IsStruct.mk "Config" _ _ _ ["Vault"] [some 2] hconfig hfree (by decide +kernel))
      (List.forall_mem_cons.mpr ⟨.value hrate,
        List.forall_mem_singleton.mpr (.contract "IKeeper" [])⟩)

theorem mem_of_occurs {param : Param} (h : Occurs [pool, vaults] param) :
    param ∈ [pool, vaults, fee, owner, rate, keeper] := by
  refine h.mem_of_closed (by simp) ?_
  intro p hp components hcomponents
  simp only [List.mem_cons, List.not_mem_nil, or_false] at hp
  rcases hp with rfl | rfl | rfl | rfl | rfl | rfl <;> cases hcomponents <;> simp

theorem coherent : Coherent [pool, vaults] := by
  have hcanonical {param : Param} {name : String} {components : List Param}
      (h : Occurs [pool, vaults] param) (hstruct : IsStruct name components param) :
      tuple (components.map Param.canonical) = "(uint256,address)".toList := by
    obtain ⟨-, -, -, -, -, hcomponents, -⟩ := hstruct.spec
    have hmem := mem_of_occurs h
    simp only [List.mem_cons, List.not_mem_nil, or_false] at hmem
    rcases hmem with rfl | rfl | rfl | rfl | rfl | rfl <;> cases hcomponents <;> decide +kernel
  intro p q name components others hp hq hstruct hother
  rw [hcanonical hp hstruct, hcanonical hq hother]

theorem readable : Readable [pool, vaults] := by
  intro p source hp hvalue
  have hsource := hvalue.internalType
  have hmem := mem_of_occurs hp
  simp only [List.mem_cons, List.not_mem_nil, or_false] at hmem
  rcases hmem with rfl | rfl | rfl | rfl | rfl | rfl
  all_goals
    obtain rfl := (congrArg String.toList (Json.str.inj hsource)).trans (String.toList_ofList ..)
  · exact absurd (by decide) hvalue.notMem_blank
  · exact absurd (by decide) hvalue.notMem_blank
  · exact absurd (by decide +kernel) (hvalue.source_ne (.uint 31) [])
  · exact absurd (by decide) hvalue.notMem_blank
  · decide +kernel
  · exact absurd (by decide) hvalue.notMem_blank

/-- A contract that is given both configurations. -/
def registry : Artifact :=
  { contract := "Registry"
    abi := [⟨.str "constructor", .null, [pool, vaults], [], .null⟩]
    bytecode := "6001".toList
    links := []
    source := .null
    compiler := ⟨"", .null, .null, .null, .null, .null⟩ }

theorem constructor_types_faithful_configs :
    (∀ p ∈ [pool, vaults], Emitted p) ∧ Coherent [pool, vaults] ∧ Readable [pool, vaults] ∧
      ∃ d, (Deployer.plan registry {}).result = .ok d ∧
        d.params.map Declaration.type = ["Config", "Config[2]"] ∧
        List.Forall₂ (IsFaithful d.structs) [pool, vaults] d.params := by
  have hplanned : (Deployer.plan registry {}).result.toOption.map (·.params.map Declaration.type) =
      some ["Config", "Config[2]"] := by decide +kernel
  obtain ⟨structs, declarations, -, -, -, hfaithful, -, hplans⟩ :=
    constructor_types_faithful emitted
  cases hplan : (Deployer.plan registry {}).result with
  | error failure =>
      rw [hplan] at hplanned
      cases hplanned
  | ok d =>
      rw [hplan] at hplanned
      obtain ⟨rfl, rfl⟩ := hplans registry {} d rfl hplan
      exact ⟨emitted, coherent, readable, d, rfl, Option.some.inj hplanned,
        hfaithful coherent readable⟩

end Configs

/-! ### Types that are not right -/

/-- Two structures of one bare name whose components differ. -/
def namesakes : List Param :=
  [.ofTexts "a" "tuple" "struct A.Config" (some [.ofTexts "fee" "uint256" "uint256" none]),
    .ofTexts "b" "tuple" "struct B.Config" (some [.ofTexts "owner" "address" "address" none,
      .ofTexts "open" "bool" "bool" none])]

/-- A value type that looks like a number of seven bits. -/
def narrow : Param := .ofTexts "price" "uint8" "uint7" none

/-- The second structure is declared as the first one, and the value type as
a type that does not exist. -/
theorem namesakes_unfaithful :
    ((∀ p ∈ namesakes, Emitted p) ∧ ∃ structs declarations,
      Structs.ofParams? namesakes = some structs ∧
      Declaration.ofParams? structs.names namesakes = some declarations ∧
      ¬List.Forall₂ (IsFaithful structs) namesakes declarations) ∧
    Emitted narrow ∧ ∃ structs declarations, Structs.ofParams? [narrow] = some structs ∧
      Declaration.ofParams? structs.names [narrow] = some declarations ∧
      ¬List.Forall₂ (IsFaithful structs) [narrow] declarations := by
  have hconfig : IsName "Config" := by decide +kernel
  have hfree : ∀ word : Elementary, word.text ≠ "Config".toList := text_ne (by decide +kernel)
  have hprice : IsValue "uint7".toList narrow :=
    @IsValue.mk _ _ _ [] "uint7" (.uint 0) [] (by decide +kernel) text_ne_uint7 nofun rfl
  refine ⟨⟨List.forall_mem_cons.mpr ⟨?_, List.forall_mem_singleton.mpr ?_⟩, _, _, rfl, rfl, ?_⟩,
    .value hprice, _, _, rfl, rfl, ?_⟩
  · exact .struct (@IsStruct.mk "Config" _ _ _ ["A"] [] hconfig hfree (by decide +kernel))
      (List.forall_mem_singleton.mpr (.elementary (.uint 31) []))
  · exact .struct (@IsStruct.mk "Config" _ _ _ ["B"] [] hconfig hfree (by decide +kernel))
      (List.forall_mem_cons.mpr ⟨.elementary .address [],
        List.forall_mem_singleton.mpr (.elementary .bool [])⟩)
  · intro hall
    obtain ⟨-, hrest⟩ := List.forall₂_cons.mp hall
    have hfirst : Expands [("Config", [⟨.str "uint256", .str "fee"⟩])] "Config"
        "(uint256)".toList := ⟨1, by decide +kernel⟩
    have hsame := hfirst.unique (List.forall₂_cons.mp hrest).1
    revert hsame
    decide +kernel
  · intro hall
    have hfirst : Expands [] "uint7" "uint7".toList := ⟨0, by decide +kernel⟩
    have hsame := hfirst.unique (List.forall₂_cons.mp hall).1
    revert hsame
    decide +kernel

end SolDeployer.Abi
