import Mathlib.Data.List.Forall2
import SolDeployer.Abi.Declaration

/-!
# Fields and declarations by position

The fields of a structure and the declarations of a constructor are made
from parameters one by one, each from the parameter at its position and from
nothing else but the position (`fieldsFrom?_eq_some`, `listFrom?_eq_some`).
They can be made whenever all types are texts (`Param.IsTyped`).
-/

namespace SolDeployer.Abi

open TypeText

/-- A parameter that is described by these texts. -/
def Param.ofTexts (name type internalType : String) (components : Option (List Param)) : Param where
  name := .str name
  type := .str type
  internalType := .str internalType
  indexed := .bool false
  components := components

section

variable {params components : List Param} {param : Param} {index : Nat}

/-! ## Types that are texts -/

/-- The types of the parameter are texts, and the one in the source may be
missing. -/
structure Param.IsTyped (param : Param) : Prop where
  type : ∃ text, param.type = .str text
  internalType : param.internalType.isBlank = true ∨
    ∃ source, textOf? param.internalType = some source

theorem Param.IsTyped.declared (h : param.IsTyped) :
    ∃ text, param.solidityType? = some (.str text) := by
  obtain ⟨type, htype⟩ := h.type
  rw [solidityType?]
  split
  · exact ⟨type, by rw [htype]⟩
  · rename_i hblank
    obtain ⟨source, hsource⟩ := h.internalType.resolve_left hblank
    rw [hsource, Option.bind_some, sourceType?, htype]
    simp only [textOf?, Option.map_some]
    split
    · exact ⟨_, rfl⟩
    · split
      · exact ⟨_, rfl⟩
      · split
        · exact ⟨_, rfl⟩
        · split <;> exact ⟨_, rfl⟩

theorem Param.IsTyped.source (h : param.IsTyped) :
    ∃ source, textOf? (param.internalType.orElse (.str "")) = some source := by
  rw [Json.orElse]
  split
  · exact ⟨_, rfl⟩
  · rename_i hblank
    exact h.internalType.resolve_left hblank

/-! ## Fields -/

theorem fieldsFrom?_typed (h : ∀ c ∈ components, c.IsTyped) (index : Nat) :
    ∃ fields, Structs.fieldsFrom? index components = some fields := by
  induction components generalizing index with
  | nil => exact ⟨[], rfl⟩
  | cons component rest ih =>
      obtain ⟨hcomponent, hrest⟩ := List.forall_mem_cons.mp h
      obtain ⟨text, htext⟩ := hcomponent.declared
      obtain ⟨fields, hfields⟩ := ih hrest (index + 1)
      simp only [Structs.fieldsFrom?, htext, hfields, Option.map_some]
      exact ⟨_, rfl⟩

/-- A component and its position are behind the field. -/
structure Field.IsOf (component : Param × Nat) (field : Field) : Prop where
  type : component.1.solidityType? = some field.type
  name : field.name = component.1.nameAt "field" component.2

theorem fieldsFrom?_eq_some {fields : List Field}
    (h : Structs.fieldsFrom? index components = some fields) :
    List.Forall₂ Field.IsOf (components.zipIdx index) fields := by
  induction components generalizing index fields with
  | nil =>
      obtain rfl := Option.some.inj h
      exact .nil
  | cons component rest ih =>
      unfold Structs.fieldsFrom? at h
      cases htype : component.solidityType? with
      | none =>
          rw [htype] at h
          cases h
      | some type =>
          simp only [htype, Option.map_eq_some_iff] at h
          obtain ⟨others, hothers, rfl⟩ := h
          exact .cons ⟨htype, rfl⟩ (ih hothers)

/-- The types of fields are those that the components are declared with. -/
theorem fieldsFrom?_types {fields : List Field}
    (h : Structs.fieldsFrom? index components = some fields) :
    List.Forall₂ (fun c field => c.solidityType? = some field.type) components fields := by
  rw [← List.zipIdx_map_fst index components, List.forall₂_map_left_iff]
  exact (fieldsFrom?_eq_some h).imp fun _ _ hfield => hfield.type

/-! ## Declarations -/

/-- A parameter and its position are behind the declaration, which has a
data location if the type needs one or is one of these structures. -/
structure Declaration.IsOf (structs : List String) (param : Param × Nat)
    (declaration : Declaration) : Prop where
  type : param.1.solidityType? = some (.str declaration.type)
  name : declaration.name = param.1.nameAt "arg" param.2
  memory : declaration.memory =
    (needsMemory declaration.type.toList || isStruct structs declaration.type.toList)

theorem listFrom?_isSome (structs : List String)
    (h : ∀ p ∈ params, ∃ text, p.solidityType? = some (.str text)) (index : Nat) :
    ∃ declarations, Declaration.listFrom? structs index params = some declarations := by
  induction params generalizing index with
  | nil => exact ⟨[], rfl⟩
  | cons param rest ih =>
      obtain ⟨⟨text, htext⟩, hrest⟩ := List.forall_mem_cons.mp h
      obtain ⟨declarations, hdeclarations⟩ := ih hrest (index + 1)
      simp only [Declaration.listFrom?, htext, Option.bind_some, textOf?, hdeclarations,
        Option.map_some]
      exact ⟨_, rfl⟩

theorem listFrom?_eq_some {structs : List String} {declarations : List Declaration}
    (h : Declaration.listFrom? structs index params = some declarations) :
    List.Forall₂ (Declaration.IsOf structs) (params.zipIdx index) declarations := by
  induction params generalizing index declarations with
  | nil =>
      obtain rfl := Option.some.inj h
      exact .nil
  | cons param rest ih =>
      unfold Declaration.listFrom? at h
      cases htype : param.solidityType?.bind textOf? with
      | none =>
          rw [htype] at h
          cases h
      | some type =>
          simp only [htype, Option.map_eq_some_iff] at h
          obtain ⟨others, hothers, rfl⟩ := h
          refine .cons ⟨?_, rfl, ?_⟩ (ih hothers)
          · obtain ⟨value, hvalue, htext⟩ := Option.bind_eq_some_iff.mp htype
            rw [hvalue]
            cases value with
            | str text =>
                obtain rfl := Option.some.inj htext
                rw [String.ofList_toList]
            | _ => cases htext
          · rw [String.toList_ofList]

/-- The parameters behind declarations are those of the list. -/
theorem listFrom?_members {structs : List String} {declarations : List Declaration}
    (h : Declaration.listFrom? structs index params = some declarations) :
    List.Forall₂ (fun p d => p ∈ params ∧ ∃ position, Declaration.IsOf structs (p, position) d)
      params declarations := by
  refine (List.forall₂_and_left params declarations).mpr ⟨fun p hp => hp, ?_⟩
  rw [← List.zipIdx_map_fst index params, List.forall₂_map_left_iff]
  exact (listFrom?_eq_some h).imp fun entry d hof => ⟨entry.2, hof⟩

end

end SolDeployer.Abi
