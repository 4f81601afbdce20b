import SolDeployer.Proofs.Abi.Positions
import SolDeployer.Proofs.Entries

/-!
# The walk over parameters

Structures are found by a walk over the parameters and their components. At
each parameter it does one of two things: it goes on, or it finds a
structure whose name is new, walks over the components, and then records the
structure (`Walk`). What holds of all that a walk records is shown by
induction on the walk, and the functions are opened once, for the inversion
of a single turn (`addParam?_some`).

Nothing is assumed of the parameters. A structure may contain another one of
its own name; the inner one is then recorded first and the outer one takes
its place, and so the name is there once all the same (`Recorded`).
-/

namespace SolDeployer.Abi

open TypeText

section

variable {params components : List Param} {param : Param} {name : String} {seen after : Structs}

/-! ## Parameters and their components -/

/-- The parameter is one of these, or a component of one at any depth. -/
inductive Occurs (params : List Param) : Param → Prop
  | root {param : Param} (h : param ∈ params) : Occurs params param
  | component {param component : Param} {components : List Param} (h : Occurs params param)
      (hcomponents : param.components = some components) (hmem : component ∈ components) :
      Occurs params component

theorem Occurs.of_members (h : Occurs components param)
    (hall : ∀ c ∈ components, Occurs params c) : Occurs params param := by
  induction h with
  | root h => exact hall _ h
  | component _ hcomponents hmem ih => exact ih.component hcomponents hmem

theorem Occurs.mem_of_closed {all : List Param} (h : Occurs params param) (hroots : params ⊆ all)
    (hclosed : ∀ p ∈ all, ∀ components, p.components = some components → components ⊆ all) :
    param ∈ all := by
  induction h with
  | root h => exact hroots h
  | component _ hcomponents hmem ih => exact hclosed _ ih _ hcomponents hmem

/-- The bare name of a parameter that has the type of a structure. -/
def Param.structName? (param : Param) : Option String :=
  (textOf? param.internalType).bind fun source =>
    if startsWith "struct " source then some (String.ofList (structName source)) else none

/-- The parameter has the type of a structure, and its components are given. -/
structure Param.Defines (param : Param) (name : String) (components : List Param) : Prop where
  name : param.structName? = some name
  components : param.components = some components

/-- A missing type in the source is as good as an empty one. -/
theorem Param.structName?_of_source {source : List Char}
    (h : textOf? (param.internalType.orElse (.str "")) = some source) :
    param.structName? =
      if startsWith "struct " source then some (String.ofList (structName source)) else none := by
  cases hblank : param.internalType.isBlank with
  | false =>
      rw [Json.orElse, hblank, if_neg Bool.false_ne_true] at h
      rw [structName?, h, Option.bind_some]
  | true =>
      rw [Json.orElse, hblank, if_pos rfl] at h
      obtain rfl := Option.some.inj h
      cases htype : param.internalType with
      | str text =>
          rw [htype] at hblank
          obtain rfl : text = "" := beq_iff_eq.mp hblank
          rw [structName?, htype]
          rfl
      | _ =>
          rw [structName?, htype]
          rfl

/-! ## One turn -/

theorem mem_names_iff : name ∈ seen.names ↔ seen.contains name = true := by
  constructor
  · intro h
    obtain ⟨fields, hget⟩ := Entries.exists_get?_of_mem_keys h
    rw [Entries.contains, hget]
    rfl
  · intro h
    obtain ⟨fields, hget⟩ := Option.isSome_iff_exists.mp h
    exact List.mem_map_of_mem (Entries.mem_of_get? hget)

theorem mem_names_insert (seen : Structs) (fields : List Field) {other : String} :
    other ∈ Structs.names (seen.insert name fields) ↔ other = name ∨ other ∈ seen.names := by
  rw [Structs.names, Entries.keys_insert, ← Structs.names]
  split
  · rename_i hname
    exact ⟨.inr, fun h => h.elim (fun heq => heq ▸ hname) id⟩
  · rw [List.mem_append, List.mem_singleton, or_comm]

/-- A parameter adds nothing, or the structure that it defines after those
of its components. -/
theorem addParam?_some (h : Structs.addParam? seen param = some after) :
    (after = seen ∧ ∀ name components, param.Defines name components → name ∈ seen.names) ∨
      ∃ name components between fields, param.Defines name components ∧ name ∉ seen.names ∧
        Structs.addParams? seen components = some between ∧
        Structs.fieldsFrom? 0 components = some fields ∧ after = between.insert name fields := by
  obtain ⟨label, type, internalType, indexed, components⟩ := param
  unfold Structs.addParam? at h
  cases hsource : textOf? (internalType.orElse (.str "")) with
  | none => simp only [hsource, reduceCtorEq] at h
  | some source =>
      have hname :=
        @Param.structName?_of_source ⟨label, type, internalType, indexed, components⟩ _ hsource
      cases components with
      | none =>
          simp only [hsource, Option.some.injEq] at h
          exact .inl ⟨h.symm, fun name components hdefines => nomatch hdefines.components⟩
      | some components =>
          simp only [hsource] at h
          split at h
          · rename_i hpass
            refine .inl ⟨(Option.some.inj h).symm, fun name others hdefines => ?_⟩
            have hdefined := hdefines.name
            rw [hname] at hdefined
            split at hdefined
            · rename_i hstruct
              rw [hstruct, Bool.not_true, Bool.false_or] at hpass
              rw [← Option.some.inj hdefined]
              exact mem_names_iff.mpr hpass
            · cases hdefined
          · rename_i hrecord
            rw [Bool.or_eq_true, not_or, Bool.not_eq_true', Bool.not_eq_false] at hrecord
            rw [if_pos hrecord.1] at hname
            split at h
            · cases h
            · rename_i between hbetween
              obtain ⟨fields, hfields, hafter⟩ := Option.map_eq_some_iff.mp h
              exact .inr ⟨_, components, between, fields, ⟨hname, rfl⟩,
                fun hmem => hrecord.2 (mem_names_iff.mp hmem), hbetween, hfields, hafter.symm⟩

/-! ## A whole walk -/

/-- A walk over parameters, from the structures found before to those found
after it. -/
inductive Walk : Structs → List Param → Structs → Prop
  | nil (seen : Structs) : Walk seen [] seen
  | pass {seen after : Structs} {param : Param} {rest : List Param}
      (hknown : ∀ name components, param.Defines name components → name ∈ seen.names)
      (hrest : Walk seen rest after) : Walk seen (param :: rest) after
  | record {seen between after : Structs} {param : Param} {rest components : List Param}
      {name : String} {fields : List Field} (hdefines : param.Defines name components)
      (hnew : name ∉ seen.names) (hcomponents : Walk seen components between)
      (hfields : Structs.fieldsFrom? 0 components = some fields)
      (hrest : Walk (between.insert name fields) rest after) : Walk seen (param :: rest) after

theorem sizeOf_components_lt (h : param.components = some components) :
    sizeOf components < sizeOf param := by
  obtain ⟨label, type, internalType, indexed, parts⟩ := param
  obtain rfl : parts = some components := h
  simp only [Param.mk.sizeOf_spec, Option.some.sizeOf_spec]
  omega

mutual

theorem walk_cons (param : Param) {seen next after : Structs} {rest : List Param}
    (h : Structs.addParam? seen param = some next) (hrest : Walk next rest after) :
    Walk seen (param :: rest) after := by
  rcases addParam?_some h with ⟨rfl, hknown⟩ |
    ⟨name, components, between, fields, hdefines, hnew, hbetween, hfields, rfl⟩
  · exact .pass hknown hrest
  · have hless := sizeOf_components_lt hdefines.components
    exact .record hdefines hnew (walk_of_addParams? components hbetween) hfields hrest
termination_by sizeOf param

theorem walk_of_addParams? (params : List Param) {seen after : Structs}
    (h : Structs.addParams? seen params = some after) : Walk seen params after := by
  cases params with
  | nil =>
      obtain rfl := Option.some.inj h
      exact .nil _
  | cons param rest =>
      cases hnext : Structs.addParam? seen param with
      | none => simp only [Structs.addParams?, hnext, reduceCtorEq] at h
      | some next =>
          simp only [Structs.addParams?, hnext] at h
          exact walk_cons param hnext (walk_of_addParams? rest h)
termination_by sizeOf params

end

/-- Nothing that is found is forgotten. -/
theorem Walk.kept (h : Walk seen params after) : seen.names ⊆ after.names := by
  induction h with
  | nil => exact List.Subset.refl _
  | pass _ _ ih => exact ih
  | record _ _ _ _ _ ihcomponents ihrest =>
      intro name hname
      exact ihrest ((mem_names_insert _ _).mpr (.inr (ihcomponents hname)))

/-- What the parameters define is found. -/
theorem Walk.known (h : Walk seen params after) :
    ∀ p ∈ params, ∀ name components, p.Defines name components → name ∈ after.names := by
  induction h with
  | nil => exact nofun
  | pass hknown hrest ih =>
      refine List.forall_mem_cons.mpr ⟨?_, ih⟩
      exact fun name components hdefines => hrest.kept (hknown name components hdefines)
  | record hdefines _ _ _ hrest _ ih =>
      refine List.forall_mem_cons.mpr ⟨?_, ih⟩
      intro name components hother
      obtain rfl := Option.some.inj (hdefines.name.symm.trans hother.name)
      exact hrest.kept ((mem_names_insert _ _).mpr (.inl rfl))

/-- What is found and was not there is defined somewhere in the parameters. -/
theorem Walk.defined (h : Walk seen params after) : ∀ name ∈ after.names,
    name ∈ seen.names ∨ ∃ p components, Occurs params p ∧ p.Defines name components := by
  induction h with
  | nil => exact fun name hname => .inl hname
  | pass _ _ ih =>
      intro name hname
      refine (ih name hname).imp_right ?_
      rintro ⟨p, components, hoccurs, hdefines⟩
      exact ⟨p, components, hoccurs.of_members fun c hc => .root (List.mem_cons_of_mem _ hc),
        hdefines⟩
  | record hdefines _ _ _ _ ihcomponents ihrest =>
      intro name hname
      rcases ihrest name hname with hname | ⟨p, components, hoccurs, hother⟩
      · rcases (mem_names_insert _ _).mp hname with rfl | hname
        · exact .inr ⟨_, _, .root List.mem_cons_self, hdefines⟩
        · refine (ihcomponents name hname).imp_right ?_
          rintro ⟨p, components, hoccurs, hother⟩
          exact ⟨p, components, hoccurs.of_members fun c hc =>
            .component (.root List.mem_cons_self) hdefines.components hc, hother⟩
      · exact .inr ⟨p, components,
          hoccurs.of_members fun c hc => .root (List.mem_cons_of_mem _ hc), hother⟩

/-! ## What is recorded -/

/-- The structures that these parameters define are found. -/
def Found (structs : Structs) (params : List Param) : Prop :=
  ∀ p ∈ params, ∀ name components, p.Defines name components → name ∈ structs.names

/-- Each name is recorded once, with the fields of a structure that occurs,
and what the components of that one define is found too. -/
structure Recorded (params : List Param) (structs : Structs) : Prop where
  nodup : structs.names.Nodup
  origin : ∀ name fields, structs.get? name = some fields → ∃ param components,
    Occurs params param ∧ param.Defines name components ∧
      Structs.fieldsFrom? 0 components = some fields ∧ Found structs components

theorem Found.mono {structs more : Structs} (h : Found structs params)
    (hkept : structs.names ⊆ more.names) : Found more params :=
  fun p hp name components hdefines => hkept (h p hp name components hdefines)

theorem Recorded.nil (params : List Param) : Recorded params [] :=
  ⟨List.nodup_nil, fun _ _ hget => nomatch hget⟩

/-- A structure is recorded after those of its components. -/
theorem Recorded.insert (h : Recorded params seen) (hoccurs : Occurs params param)
    (hdefines : param.Defines name components) {fields : List Field}
    (hfields : Structs.fieldsFrom? 0 components = some fields) (hfound : Found seen components) :
    Recorded params (seen.insert name fields) := by
  have hkept : seen.names ⊆ Structs.names (seen.insert name fields) :=
    fun other hother => (mem_names_insert seen fields).mpr (.inr hother)
  refine ⟨?_, ?_⟩
  · have hnodup := h.nodup
    rw [Structs.names] at hnodup ⊢
    rw [Entries.keys_insert]
    split
    · exact hnodup
    · rename_i hnew
      exact List.nodup_append'.mpr ⟨hnodup, List.nodup_singleton _,
        List.disjoint_singleton.mpr hnew⟩
  · intro other found hget
    by_cases heq : other = name
    · subst heq
      rw [Entries.get?_insert_self, Option.some.injEq] at hget
      subst hget
      exact ⟨param, components, hoccurs, hdefines, hfields, hfound.mono hkept⟩
    · rw [Entries.get?_insert_of_ne _ _ heq] at hget
      obtain ⟨p, parts, hp, hparts, hsame, hall⟩ := h.origin other found hget
      exact ⟨p, parts, hp, hparts, hsame, hall.mono hkept⟩

theorem Walk.recorded {all : List Param} (h : Walk seen params after)
    (hparams : ∀ p ∈ params, Occurs all p) (hseen : Recorded all seen) : Recorded all after := by
  induction h with
  | nil => exact hseen
  | pass _ _ ih => exact ih (List.forall_mem_cons.mp hparams).2 hseen
  | record hdefines _ hcomponents hfields _ ihcomponents ihrest =>
      obtain ⟨hparam, hrest⟩ := List.forall_mem_cons.mp hparams
      have hbelow : ∀ c ∈ _, Occurs all c := fun c hc => hparam.component hdefines.components hc
      exact ihrest hrest
        ((ihcomponents hbelow hseen).insert hparam hdefines hfields hcomponents.known)

theorem recorded_of_ofParams? {structs : Structs} (h : Structs.ofParams? params = some structs) :
    Recorded params structs ∧ Found structs params := by
  have hwalk := walk_of_addParams? params h
  exact ⟨hwalk.recorded (fun p hp => .root hp) (.nil params), hwalk.known⟩

/-! ## Walks that end -/

/-- A turn ends if the walk over the components does. -/
theorem addParam?_ends (h : param.IsTyped) (seen : Structs)
    (hbelow : ∀ components, param.components = some components →
      (∃ between, Structs.addParams? seen components = some between) ∧
        ∃ fields, Structs.fieldsFrom? 0 components = some fields) :
    ∃ after, Structs.addParam? seen param = some after := by
  obtain ⟨source, hsource⟩ := h.source
  obtain ⟨label, type, internalType, indexed, components⟩ := param
  unfold Structs.addParam?
  cases components with
  | none => exact ⟨seen, by simp only [hsource]⟩
  | some components =>
      obtain ⟨⟨between, hbetween⟩, fields, hfields⟩ := hbelow components rfl
      simp only [hsource, hbetween, hfields, Option.map_some]
      split <;> exact ⟨_, rfl⟩

mutual

theorem addParam?_typed (param : Param) (seen : Structs) (h : ∀ p, Occurs [param] p → p.IsTyped) :
    ∃ after, Structs.addParam? seen param = some after := by
  refine addParam?_ends (h param (.root List.mem_cons_self)) seen fun components hcomponents => ?_
  have hless := sizeOf_components_lt hcomponents
  have hbelow : ∀ p, Occurs components p → p.IsTyped := fun p hp =>
    h p (hp.of_members fun c hc => .component (.root List.mem_cons_self) hcomponents hc)
  exact ⟨addParams?_typed components seen hbelow,
    fieldsFrom?_typed (fun c hc => hbelow c (.root hc)) 0⟩
termination_by sizeOf param

/-- A walk ends if all types are texts. -/
theorem addParams?_typed (params : List Param) (seen : Structs)
    (h : ∀ p, Occurs params p → p.IsTyped) :
    ∃ after, Structs.addParams? seen params = some after := by
  cases params with
  | nil => exact ⟨seen, rfl⟩
  | cons param rest =>
      obtain ⟨next, hnext⟩ := addParam?_typed param seen fun p hp =>
        h p (hp.of_members fun c hc => .root (List.mem_singleton.mp hc ▸ List.mem_cons_self))
      obtain ⟨after, hafter⟩ := addParams?_typed rest next fun p hp =>
        h p (hp.of_members fun c hc => .root (List.mem_cons_of_mem _ hc))
      exact ⟨after, by simp only [Structs.addParams?, hnext, hafter]⟩
termination_by sizeOf params

end

/-- Parameters whose types are texts have structures, and are declared. -/
theorem ofParams?_typed (h : ∀ p, Occurs params p → p.IsTyped) :
    ∃ structs declarations, Structs.ofParams? params = some structs ∧
      Declaration.ofParams? structs.names params = some declarations := by
  obtain ⟨structs, hstructs⟩ := addParams?_typed params [] h
  obtain ⟨declarations, hdeclarations⟩ :=
    listFrom?_isSome structs.names (fun p hp => (h p (.root hp)).declared) 0
  exact ⟨structs, declarations, hstructs, hdeclarations⟩

end

end SolDeployer.Abi
