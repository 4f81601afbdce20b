import SolDeployer.Proofs.Abi.Rendering
import SolDeployer.Proofs.Abi.Walk

/-!
# The order of definitions

Each structure that a constructor takes is defined once, and after the
structures of its fields. Two things are needed of the parameters, and both
are about structures only: they show their components (`Param.IsStructured`),
and none has another one of its own bare name below it (`Unnested`). Without
the second a definition would take the place of the inner one, before those
of its own fields.

A walk appends definitions one at a time, so the order is an induction on
the list from its end (`InOrder`). That a name is still new when the
components have been walked over is where `Unnested` comes in
(`Walk.inOrder`).
-/

namespace SolDeployer.Abi

open TypeText

/-! ## Structures and arrays of them -/

/-- The type has this name, or is an array of what has it. -/
def IsArrayOf (base : String) (type : Json) : Prop :=
  ∃ suffix, IsDimensions suffix ∧ type = .str (String.ofList (base.toList ++ suffix))

/-- If the parameter has the type of a structure, it is a tuple or an array
of tuples, and its components are given. -/
def Param.IsStructured (param : Param) : Prop :=
  ∀ name, param.structName? = some name →
    IsArrayOf "tuple" param.type ∧ param.components.isSome = true

/-- No structure has one of its own bare name below it. -/
def Unnested (params : List Param) : Prop :=
  ∀ {p q name components}, Occurs params p → p.Defines name components → Occurs components q →
    q.structName? ≠ some name

section

variable {params components : List Param} {param : Param} {name : String} {structs : Structs}
  {fields : List Field}

theorem isBlank_of_startsWith {value : Json} {source : List Char}
    (hsource : textOf? value = some source) (hstruct : startsWith "struct " source = true) :
    value.isBlank = false := by
  cases value with
  | str text =>
      obtain rfl := Option.some.inj hsource
      refine beq_eq_false_iff_ne.mpr ?_
      rintro rfl
      cases hstruct
  | _ => cases hsource

theorem Param.IsStructured.defines (h : param.IsStructured) (hname : param.structName? = some name) :
    ∃ components, param.Defines name components := by
  obtain ⟨components, hcomponents⟩ := Option.isSome_iff_exists.mp (h name hname).2
  exact ⟨components, hname, hcomponents⟩

/-- A structure is declared by its bare name. -/
theorem Param.IsStructured.declared (h : param.IsStructured)
    (hname : param.structName? = some name) {type : Json}
    (htype : param.solidityType? = some type) : IsArrayOf name type := by
  obtain ⟨suffix, hsuffix, htuple⟩ := (h name hname).1
  obtain ⟨source, hsource, hnamed⟩ := Option.bind_eq_some_iff.mp hname
  split at hnamed
  · rename_i hstruct
    have hbare : structName source = name.toList := by
      rw [← Option.some.inj hnamed, String.toList_ofList]
    have hblank : param.internalType.isBlank = false := isBlank_of_startsWith hsource hstruct
    rw [solidityType?, hblank, if_neg Bool.false_ne_true, hsource, Option.bind_some, htuple,
      sourceType?_struct hstruct, hbare] at htype
    exact ⟨suffix, hsuffix, (Option.some.inj htype).symm⟩
  · cases hnamed

/-! ## Definitions in order -/

/-- Each structure is defined once, and after those that its components
define. -/
inductive InOrder (params : List Param) : Structs → Prop
  | nil : InOrder params []
  | concat {structs : Structs} {param : Param} {name : String} {components : List Param}
      {fields : List Field} (h : InOrder params structs) (hnew : name ∉ structs.names)
      (hoccurs : Occurs params param) (hdefines : param.Defines name components)
      (hfields : Structs.fieldsFrom? 0 components = some fields)
      (hfound : Found structs components) : InOrder params (structs ++ [(name, fields)])

theorem InOrder.nodup (h : InOrder params structs) : structs.names.Nodup := by
  induction h with
  | nil => exact List.nodup_nil
  | concat _ hnew _ _ _ _ ih =>
      rw [Structs.names, Entries.keys, List.map_append, List.map_singleton]
      exact List.nodup_append'.mpr ⟨ih, List.nodup_singleton _, List.disjoint_singleton.mpr hnew⟩

/-- What a definition is made from, and what stands before it. -/
theorem InOrder.before (h : InOrder params structs) :
    ∀ {before after : Structs}, structs = before ++ (name, fields) :: after →
      ∃ param components, Occurs params param ∧ param.Defines name components ∧
        Structs.fieldsFrom? 0 components = some fields ∧ Found before components := by
  induction h with
  | nil =>
      intro before after hsplit
      simp at hsplit
  | @concat structs param other components others _ _ hoccurs hdefines hfields hfound ih =>
      intro before after hsplit
      rcases List.eq_nil_or_concat after with rfl | ⟨front, last, rfl⟩
      · obtain ⟨rfl, hlast⟩ := List.append_inj' hsplit rfl
        obtain ⟨rfl, rfl⟩ := Prod.mk.inj (List.singleton_inj.mp hlast)
        exact ⟨param, components, hoccurs, hdefines, hfields, hfound⟩
      · have hfront : structs ++ [(other, others)] =
            (before ++ (name, fields) :: front) ++ [last] := by simpa using hsplit
        exact ih (List.append_inj' hfront rfl).1

theorem Walk.inOrder {all : List Param} {seen after : Structs} (h : Walk seen params after)
    (hunnested : Unnested all) (hparams : ∀ p ∈ params, Occurs all p) (hseen : InOrder all seen) :
    InOrder all after := by
  induction h with
  | nil => exact hseen
  | pass _ _ ih => exact ih (List.forall_mem_cons.mp hparams).2 hseen
  | record hdefines hnew hcomponents hfields _ ihcomponents ihrest =>
      obtain ⟨hparam, hrest⟩ := List.forall_mem_cons.mp hparams
      have hbelow : ∀ c ∈ _, Occurs all c := fun c hc => hparam.component hdefines.components hc
      have hbetween := ihcomponents hbelow hseen
      -- the components define other names only
      have hlast := fun hname => (hcomponents.defined _ hname).elim hnew
        fun ⟨_, _, hoccurs, hother⟩ => hunnested hparam hdefines hoccurs hother.name
      refine ihrest hrest ?_
      rw [Entries.insert_of_notMem _ hlast]
      exact hbetween.concat hlast hparam hdefines hfields hcomponents.known

/-- The field has the type that the component is declared with, and if that
is a structure or an array of one, it is the structure of a name among
these. -/
structure Field.Refers (defined : List String) (component : Param) (field : Field) : Prop where
  type : component.solidityType? = some field.type
  struct : ∀ name, component.structName? = some name →
    IsArrayOf name field.type ∧ name ∈ defined

theorem refers_of_found (hstructured : ∀ c ∈ components, c.IsStructured)
    (hfields : Structs.fieldsFrom? 0 components = some fields) (hfound : Found structs components) :
    List.Forall₂ (Field.Refers structs.names) components fields := by
  have htypes := (List.forall₂_and_left components fields).mpr
    ⟨fun c hc => hc, fieldsFrom?_types hfields⟩
  refine htypes.imp fun c field ⟨hc, htype⟩ => ⟨htype, fun name hname => ?_⟩
  obtain ⟨parts, hdefines⟩ := (hstructured c hc).defines hname
  exact ⟨(hstructured c hc).declared hname htype, hfound c hc name parts hdefines⟩

end

/-- **Structures are defined in order.** Let all structures among the
parameters and their components, at any depth, be tuples or arrays of tuples
with components, and none have one of its own bare name below it. If all
types are texts, the parameters can be declared. The definitions have
different names. Each is made from the components of a structure that has
the name, field by field, and a field whose component is a structure has the
type of a structure that is defined before it. A declared parameter that is
a structure has the type of one that is defined. -/
theorem structs_defined_in_order {params : List Param}
    (hstructured : ∀ p, Occurs params p → p.IsStructured) (hunnested : Unnested params) :
    ((∀ p, Occurs params p → p.IsTyped) → ∃ structs declarations,
      Structs.ofParams? params = some structs ∧
      Declaration.ofParams? structs.names params = some declarations) ∧
    ∀ structs, Structs.ofParams? params = some structs → structs.names.Nodup ∧
      (∀ before name fields after, structs = before ++ (name, fields) :: after →
        ∃ param components, Occurs params param ∧ param.Defines name components ∧
          List.Forall₂ (Field.Refers (Structs.names before)) components fields) ∧
      ∀ names declarations, Declaration.ofParams? names params = some declarations →
        List.Forall₂ (fun p d => ∀ name, p.structName? = some name →
          IsArrayOf name (.str d.type) ∧ name ∈ structs.names) params declarations := by
  refine ⟨ofParams?_typed, fun structs hstructs => ?_⟩
  have hwalk := walk_of_addParams? params hstructs
  have horder := hwalk.inOrder hunnested (fun p hp => .root hp) .nil
  refine ⟨horder.nodup, ?_, ?_⟩
  · intro before name fields after hsplit
    obtain ⟨param, components, hoccurs, hdefines, hfields, hfound⟩ := horder.before hsplit
    refine ⟨param, components, hoccurs, hdefines, refers_of_found (fun c hc => ?_) hfields hfound⟩
    exact hstructured c (hoccurs.component hdefines.components hc)
  · intro names declarations hdeclarations
    refine (listFrom?_members hdeclarations).imp fun p d ⟨hp, position, hd⟩ name hname => ?_
    have hstructure := hstructured p (.root hp)
    obtain ⟨components, hdefines⟩ := hstructure.defines hname
    exact ⟨hstructure.declared hname hd.type, hwalk.known p hp name components hdefines⟩

/-! ### A market -/

namespace Market

def rate : Param := .ofTexts "rate" "uint24" "uint24" none

def keeper : Param := .ofTexts "keeper" "address" "contract IKeeper" none

def fee : Param := .ofTexts "fee" "tuple" "struct Fees.Fee" (some [rate])

def tiers : Param := .ofTexts "tiers" "tuple[2][]" "struct Fees.Fee[2][]" (some [rate])

def config : Param := .ofTexts "config" "tuple" "struct Market.Config" (some [keeper, tiers, fee])

theorem mem_of_occurs {param : Param} (h : Occurs [config, tiers] param) :
    param ∈ [config, tiers, fee, keeper, rate] := by
  refine h.mem_of_closed (by simp) ?_
  intro p hp components hcomponents
  simp only [List.mem_cons, List.not_mem_nil, or_false] at hp
  rcases hp with rfl | rfl | rfl | rfl | rfl <;> cases hcomponents <;> simp

theorem structured {param : Param} (h : Occurs [config, tiers] param) : param.IsStructured := by
  have hplain (p : Param) (hnone : p.structName? = none) : p.IsStructured := by
    intro name hname
    rw [hnone] at hname
    cases hname
  have hmem := mem_of_occurs h
  simp only [List.mem_cons, List.not_mem_nil, or_false] at hmem
  rcases hmem with rfl | rfl | rfl | rfl | rfl
  · exact fun name _ => ⟨⟨[], .nil, rfl⟩, rfl⟩
  · have hsuffix : IsDimensions "[2][]".toList := by decide +kernel
    exact fun name _ => ⟨⟨_, hsuffix, rfl⟩, rfl⟩
  · exact fun name _ => ⟨⟨[], .nil, rfl⟩, rfl⟩
  · exact hplain keeper (by decide +kernel)
  · exact hplain rate (by decide +kernel)

/-- Below a configuration there is none, and below a fee no structure. -/
theorem unnested : Unnested [config, tiers] := by
  have hbare {q : Param} (h : Occurs [rate] q) : q.structName? = none := by
    have hmem : q ∈ [rate] := h.mem_of_closed (List.Subset.refl _) (by
      intro p hp components hcomponents
      rw [List.mem_singleton.mp hp] at hcomponents
      cases hcomponents)
    rw [List.mem_singleton.mp hmem]
    decide +kernel
  have hfees {q : Param} (h : Occurs [keeper, tiers, fee] q) : q.structName? ≠ some "Config" := by
    have hmem : q ∈ [keeper, tiers, fee, rate] := h.mem_of_closed (by simp) (by
      intro p hp components hcomponents
      simp only [List.mem_cons, List.not_mem_nil, or_false] at hp
      rcases hp with rfl | rfl | rfl | rfl <;> cases hcomponents <;> simp)
    simp only [List.mem_cons, List.not_mem_nil, or_false] at hmem
    rcases hmem with rfl | rfl | rfl | rfl <;> decide +kernel
  intro p q name components hp hdefines hq
  have hmem := mem_of_occurs hp
  simp only [List.mem_cons, List.not_mem_nil, or_false] at hmem
  obtain ⟨hname, hcomponents⟩ := hdefines
  rcases hmem with rfl | rfl | rfl | rfl | rfl <;> cases hcomponents
  · have hconfig : config.structName? = some "Config" := by decide +kernel
    rw [← hname, hconfig]
    exact hfees hq
  · rw [hbare hq]
    nofun
  · rw [hbare hq]
    nofun

theorem structs_defined_in_order_market :
    (∀ p, Occurs [config, tiers] p → p.IsStructured) ∧ Unnested [config, tiers] ∧
      ∃ structs fields, Structs.ofParams? [config, tiers] = some structs ∧
        structs = [("Fee", [⟨.str "uint24", .str "rate"⟩]), ("Config", fields)] ∧
        fields.map Field.type = [.str "address", .str "Fee[2][]", .str "Fee"] ∧
        structs.names.Nodup ∧
        ∃ param components, Occurs [config, tiers] param ∧ param.Defines "Config" components ∧
          List.Forall₂ (Field.Refers ["Fee"]) components fields := by
  have hall := structs_defined_in_order (fun p => structured) unnested
  obtain ⟨hnames, hbefore, -⟩ := hall.2 _ rfl
  exact ⟨fun p => structured, unnested, _, _, rfl, rfl, rfl, hnames,
    hbefore [("Fee", [⟨.str "uint24", .str "rate"⟩])] "Config" _ [] rfl⟩

end Market

end SolDeployer.Abi
