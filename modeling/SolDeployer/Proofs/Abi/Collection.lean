import SolDeployer.Proofs.Abi.Rendering
import SolDeployer.Proofs.Abi.Walk

/-!
# Collection of structures

The structures of a constructor are recorded by their bare names, each after
those of its components. Structures may share a bare name, and only one of
them is recorded. So it is not said which structure is found under a name,
but what unfolding a type needs: the fields are those of some structure of
that name which occurs, and the structures of these fields are recorded too
(`Collected`).

All of it is what a walk records (`Recorded`), since of the parameters that
a compiler writes just the structures have components, and the walk finds
each by its own name (`IsStruct.defines`, `Emitted.isStruct`).
-/

namespace SolDeployer.Abi

open TypeText

section

variable {seen : Structs} {name : String} {params components : List Param} {param : Param}

/-! ## Parameters and their components -/

theorem Emitted.of_component (h : Emitted param)
    (hcomponents : param.components = some components) : ∀ c ∈ components, Emitted c := by
  cases h with
  | elementary | payable | contract | enum => cases hcomponents
  | value h =>
      obtain ⟨word, sizes, hnone, -⟩ := h.declared
      rw [hnone] at hcomponents
      cases hcomponents
  | struct h hall =>
      obtain ⟨-, -, -, -, -, hsome, -⟩ := h.spec
      obtain rfl := Option.some.inj (hsome.symm.trans hcomponents)
      exact hall

theorem Occurs.emitted (h : Occurs params param) (hparams : ∀ p ∈ params, Emitted p) :
    Emitted param := by
  induction h with
  | root h => exact hparams _ h
  | component _ hcomponents hmem ih => exact ih.of_component hcomponents _ hmem

theorem IsStruct.isTyped (h : IsStruct name components param) : param.IsTyped := by
  cases h
  exact ⟨⟨_, rfl⟩, .inr ⟨_, rfl⟩⟩

/-- All texts that a compiler writes are there. -/
theorem Emitted.isTyped (h : Emitted param) : param.IsTyped := by
  cases h with
  | elementary | payable | contract | enum => exact ⟨⟨_, rfl⟩, .inr ⟨_, rfl⟩⟩
  | value h =>
      cases h
      exact ⟨⟨_, rfl⟩, .inr ⟨_, rfl⟩⟩
  | struct h => exact h.isTyped

/-- Whatever a compiler writes is declared with some type. -/
theorem Emitted.declared (h : Emitted param) : ∃ type, param.DeclaredAs type := by
  obtain ⟨text, htext⟩ := h.isTyped.declared
  exact ⟨text.toList, by rw [Param.DeclaredAs, htext, String.ofList_toList]⟩

/-- A structure is defined under its bare name. -/
theorem IsStruct.defines (h : IsStruct name components param) : param.Defines name components := by
  obtain ⟨source, -, hsource, hstruct, hname, hcomponents, -⟩ := h.spec
  refine ⟨?_, hcomponents⟩
  rw [Param.structName?, hsource, Option.bind_some, if_pos hstruct, hname, String.ofList_toList]

theorem Emitted.isStruct (h : Emitted param) (hdefines : param.Defines name components) :
    IsStruct name components param := by
  have hsome := hdefines.components
  cases h with
  | elementary | payable | contract | enum => cases hsome
  | value h =>
      obtain ⟨word, sizes, hnone, -⟩ := h.declared
      rw [hnone] at hsome
      cases hsome
  | @struct other others _ h =>
      obtain rfl := Option.some.inj (h.defines.name.symm.trans hdefines.name)
      obtain rfl := Option.some.inj (h.defines.components.symm.trans hsome)
      exact h

/-! ## Collection -/

/-- If the parameter is a structure, its bare name is recorded. -/
def Known (seen : Structs) (param : Param) : Prop :=
  ∀ name components, IsStruct name components param → seen.contains name = true

/-- Each recorded structure has the fields of one that occurs, and the
structures of its components are recorded too. -/
structure Collected (params : List Param) (seen : Structs) : Prop where
  nodup : seen.names.Nodup
  found : ∀ name fields, seen.get? name = some fields → ∃ param components,
    Occurs params param ∧ IsStruct name components param ∧
      Structs.fieldsFrom? 0 components = some fields ∧ ∀ c ∈ components, Known seen c

theorem Found.known (h : Found seen params) : ∀ p ∈ params, Known seen p :=
  fun p hp name components hstruct => mem_names_iff.mp (h p hp name components hstruct.defines)

theorem Recorded.collected (h : Recorded params seen) (hparams : ∀ p ∈ params, Emitted p) :
    Collected params seen := by
  refine ⟨h.nodup, fun name fields hget => ?_⟩
  obtain ⟨param, components, hoccurs, hdefines, hfields, hfound⟩ := h.origin name fields hget
  exact ⟨param, components, hoccurs, (hoccurs.emitted hparams).isStruct hdefines, hfields,
    hfound.known⟩

theorem ofParams?_collected (hparams : ∀ p ∈ params, Emitted p) :
    ∃ structs, Structs.ofParams? params = some structs ∧ Collected params structs ∧
      ∀ p ∈ params, Known structs p := by
  obtain ⟨structs, hstructs⟩ :=
    addParams?_typed params [] fun p hp => (hp.emitted hparams).isTyped
  obtain ⟨hrecorded, hfound⟩ := recorded_of_ofParams? hstructs
  exact ⟨structs, hstructs, hrecorded.collected hparams, hfound.known⟩

end

end SolDeployer.Abi
