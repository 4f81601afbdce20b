import SolDeployer.Proofs.Abi.Walk
import SolDeployer.Proofs.Resolution.Names

/-!
# Names by position

A parameter without a name is called by its position, and so is a component
that becomes a field. Two such names differ as their positions do. But a name
that is given may be the one that another position makes, and nobody looks:
where the given names differ, the names are all different exactly if this
does not happen (`IsTaken`).
-/

namespace SolDeployer.Abi

/-- The names of those parameters that have one. -/
def givenNames (params : List Param) : List Json :=
  (params.map Param.name).filter fun name => !name.isBlank

/-- A parameter without a name stands where the name that its position makes
is given to another one. -/
def IsTaken (stem : String) (params : List Param) : Prop :=
  ∃ (index : Nat) (param : Param), params[index]? = some param ∧ param.name.isBlank = true ∧
    .str (stem ++ toString index) ∈ givenNames params

/-- The names of parameters, each with its position. -/
def placedNames (stem : String) (params : List Param) : List Json :=
  params.zipIdx.map fun entry => entry.1.nameAt stem entry.2

section

variable {params components : List Param} {param : Param} {stem : String}

theorem nameAt_given (h : param.name.isBlank = false) (stem : String) (index : Nat) :
    param.nameAt stem index = param.name := by
  rw [Param.nameAt, Json.orElse, h, if_neg Bool.false_ne_true]

theorem nameAt_blank (h : param.name.isBlank = true) (stem : String) (index : Nat) :
    param.nameAt stem index = .str (stem ++ toString index) := by
  rw [Param.nameAt, Json.orElse, h, if_pos rfl]

theorem mem_givenNames {name : Json} :
    name ∈ givenNames params ↔ ∃ p ∈ params, p.name = name ∧ p.name.isBlank = false := by
  rw [givenNames, List.mem_filter, List.mem_map]
  constructor
  · rintro ⟨⟨p, hp, rfl⟩, hgiven⟩
    exact ⟨p, hp, rfl, by simpa using hgiven⟩
  · rintro ⟨p, hp, rfl, hgiven⟩
    exact ⟨⟨p, hp, rfl⟩, by simpa using hgiven⟩

/-- Positions that differ make names that differ. -/
theorem pairwise_positions (params : List Param) :
    params.zipIdx.Pairwise fun a b => a.2 ≠ b.2 := by
  have hnodup : (params.zipIdx.map Prod.snd).Nodup := by
    rw [List.zipIdx_map_snd]
    exact List.nodup_range'
  exact List.pairwise_map.mp hnodup

theorem pairwise_given (h : (givenNames params).Nodup) :
    params.zipIdx.Pairwise fun a b =>
      a.1.name.isBlank = false → b.1.name.isBlank = false → a.1.name ≠ b.1.name := by
  rw [givenNames, List.Nodup, List.pairwise_filter, List.pairwise_map] at h
  rw [← List.zipIdx_map_fst 0 params, List.pairwise_map] at h
  exact h.imp fun hne ha hb => hne (by rw [ha, Bool.not_false]) (by rw [hb, Bool.not_false])

/-- A name that a position makes is no name that is given. -/
theorem ne_of_not_taken (h : ¬IsTaken stem params) {a b : Param × Nat} (ha : a ∈ params.zipIdx)
    (hb : b ∈ params.zipIdx) (hblank : a.1.name.isBlank = true)
    (hgiven : b.1.name.isBlank = false) : a.1.nameAt stem a.2 ≠ b.1.nameAt stem b.2 := by
  intro heq
  rw [nameAt_blank hblank, nameAt_given hgiven] at heq
  refine h ⟨a.2, a.1, List.mem_zipIdx_iff_getElem?.mp ha, hblank, ?_⟩
  exact mem_givenNames.mpr ⟨b.1, List.fst_mem_of_mem_zipIdx hb, heq.symm, hgiven⟩

theorem placedNames_nodup_iff (hgiven : (givenNames params).Nodup) (stem : String) :
    (placedNames stem params).Nodup ↔ ¬IsTaken stem params := by
  constructor
  · rintro hnodup ⟨index, p, hp, hblank, htaken⟩
    obtain ⟨q, hq, hname, hsome⟩ := mem_givenNames.mp htaken
    obtain ⟨other, hother⟩ := List.getElem?_of_mem hq
    have hsame : p.nameAt stem index = q.nameAt stem other := by
      rw [nameAt_blank hblank, nameAt_given hsome, hname]
    have hentry : (p, index) = (q, other) :=
      List.inj_on_of_nodup_map hnodup (List.mem_zipIdx_iff_getElem?.mpr hp)
        (List.mem_zipIdx_iff_getElem?.mpr hother) hsame
    obtain rfl := (Prod.mk.inj hentry).1
    rw [hblank] at hsome
    cases hsome
  · intro hfree
    rw [placedNames, List.Nodup, List.pairwise_map]
    refine ((pairwise_positions params).and (pairwise_given hgiven)).imp_of_mem ?_
    rintro a b ha hb ⟨hposition, hnames⟩
    cases hblank : a.1.name.isBlank with
    | true =>
        cases hblank' : b.1.name.isBlank with
        | true =>
            rw [nameAt_blank hblank, nameAt_blank hblank']
            intro heq
            have htext := (String.append_right_inj stem).mp (Json.str.inj heq)
            exact hposition (Naming.toString_injective htext)
        | false => exact ne_of_not_taken hfree ha hb hblank hblank'
    | false =>
        cases hblank' : b.1.name.isBlank with
        | true => exact (ne_of_not_taken hfree hb ha hblank' hblank).symm
        | false =>
            rw [nameAt_given hblank, nameAt_given hblank']
            exact hnames hblank hblank'

theorem names_of_declarations {names : List String} {declarations : List Declaration}
    (h : Declaration.ofParams? names params = some declarations) :
    declarations.map Declaration.name = placedNames "arg" params := by
  rw [placedNames, ← List.forall₂_eq_eq_eq, List.forall₂_map_left_iff, List.forall₂_map_right_iff]
  exact ((listFrom?_eq_some h).imp fun _ _ hof => hof.name).flip

theorem names_of_fields {fields : List Field}
    (h : Structs.fieldsFrom? 0 components = some fields) :
    fields.map Field.name = placedNames "field" components := by
  rw [placedNames, ← List.forall₂_eq_eq_eq, List.forall₂_map_left_iff, List.forall₂_map_right_iff]
  exact ((fieldsFrom?_eq_some h).imp fun _ _ hof => hof.name).flip

end

/-- **Names are different unless a position makes one that is given.** All
parameters whose types are texts are declared. Where the given names of the
parameters differ, the names that they are declared with are all different
exactly if no position without a name makes a name that is given. A recorded
structure has the fields of one that occurs, made from its components one by
one, and where the given names of these differ the same holds of the names
of the fields. -/
theorem position_names_nodup {params : List Param} :
    ((∀ p, Occurs params p → p.IsTyped) → ∃ structs declarations,
      Structs.ofParams? params = some structs ∧
      Declaration.ofParams? structs.names params = some declarations) ∧
    (∀ names declarations, Declaration.ofParams? names params = some declarations →
      (givenNames params).Nodup →
      ((declarations.map Declaration.name).Nodup ↔ ¬IsTaken "arg" params)) ∧
    ∀ structs, Structs.ofParams? params = some structs → ∀ name fields, (name, fields) ∈ structs →
      ∃ param components, Occurs params param ∧ param.Defines name components ∧
        List.Forall₂ Field.IsOf components.zipIdx fields ∧
        ((givenNames components).Nodup →
          ((fields.map Field.name).Nodup ↔ ¬IsTaken "field" components)) := by
  refine ⟨ofParams?_typed, ?_, ?_⟩
  · intro names declarations hdeclarations hgiven
    rw [names_of_declarations hdeclarations]
    exact placedNames_nodup_iff hgiven "arg"
  · intro structs hstructs name fields hmem
    have hrecorded := (recorded_of_ofParams? hstructs).1
    obtain ⟨param, components, hoccurs, hdefines, hfields, -⟩ :=
      hrecorded.origin name fields (Entries.get?_of_nodup hrecorded.nodup hmem)
    refine ⟨param, components, hoccurs, hdefines, fieldsFrom?_eq_some hfields, fun hgiven => ?_⟩
    rw [names_of_fields hfields]
    exact placedNames_nodup_iff hgiven "field"

/-! ### Reserves -/

namespace Reserves

def base : Param := .ofTexts "" "uint112" "uint112" none

def quote : Param := .ofTexts "arg0" "uint112" "uint112" none

def reserves : Param := .ofTexts "reserves" "tuple" "struct Pool.Reserves" (some [base, quote])

/-- A name like those of the other kind is in nobody's way, nor is the name
that another position would make. -/
theorem position_names_nodup_reserves :
    (givenNames [quote, base, reserves]).Nodup ∧ (givenNames [base, quote]).Nodup ∧
      ∃ declarations fields,
        Declaration.ofParams? ["Reserves"] [quote, base, reserves] = some declarations ∧
        (declarations.map Declaration.name).Nodup ∧
        Structs.ofParams? [quote, base, reserves] = some [("Reserves", fields)] ∧
        (fields.map Field.name).Nodup := by
  have hparams : (givenNames [quote, base, reserves]).Nodup := by
    change [Json.str "arg0", .str "reserves"].Nodup
    simp
  have hcomponents : (givenNames [base, quote]).Nodup := by
    change [Json.str "arg0"].Nodup
    simp
  obtain ⟨-, hnames, hfields⟩ := @position_names_nodup [quote, base, reserves]
  refine ⟨hparams, hcomponents, _, _, rfl, ?_, rfl, ?_⟩
  · refine (hnames ["Reserves"] _ rfl hparams).mpr ?_
    rintro ⟨index, param, hget, hblank, hmem⟩
    rcases index with _ | _ | _ | index <;> cases hget
    · cases hblank
    · change Json.str "arg1" ∈ [.str "arg0", .str "reserves"] at hmem
      simp at hmem
    · cases hblank
  · obtain ⟨param, components, hoccurs, hdefines, -, hall⟩ :=
      hfields _ rfl "Reserves" _ List.mem_cons_self
    have hmem : param ∈ [quote, base, reserves] := by
      refine hoccurs.mem_of_closed (List.Subset.refl _) ?_
      intro p hp components hcomponents
      simp only [List.mem_cons, List.not_mem_nil, or_false] at hp
      rcases hp with rfl | rfl | rfl <;> cases hcomponents
      simp
    simp only [List.mem_cons, List.not_mem_nil, or_false] at hmem
    have hsome := hdefines.components
    rcases hmem with rfl | rfl | rfl <;> cases hsome
    refine (hall hcomponents).mpr ?_
    rintro ⟨index, param, hget, hblank, hmem⟩
    rcases index with _ | _ | index <;> cases hget
    · change Json.str "field0" ∈ [.str "arg0"] at hmem
      simp at hmem
    · cases hblank

end Reserves

/-! ### Names that are not different -/

/-- A position that makes the name before it. -/
def unnamed (taken : String) : List Param :=
  [.ofTexts taken "uint256" "uint256" none, .ofTexts "" "uint256" "uint256" none]

/-- Two parameters have one name, and so do two fields. -/
theorem position_names_shared :
    ((givenNames (unnamed "arg1")).Nodup ∧
      ∃ declarations, Declaration.ofParams? [] (unnamed "arg1") = some declarations ∧
        ¬(declarations.map Declaration.name).Nodup) ∧
    (givenNames (unnamed "field1")).Nodup ∧
      ∃ name fields, Structs.ofParams? [.ofTexts "config" "tuple" "struct Pool.Config"
          (some (unnamed "field1"))] = some [(name, fields)] ∧
        ¬(fields.map Field.name).Nodup := by
  have harg : (givenNames (unnamed "arg1")).Nodup := by
    change [Json.str "arg1"].Nodup
    simp
  have hfield : (givenNames (unnamed "field1")).Nodup := by
    change [Json.str "field1"].Nodup
    simp
  refine ⟨⟨harg, _, rfl, ?_⟩, hfield, _, _, rfl, ?_⟩
  · exact fun h => (List.nodup_cons.mp h).1 List.mem_cons_self
  · exact fun h => (List.nodup_cons.mp h).1 List.mem_cons_self

end SolDeployer.Abi
