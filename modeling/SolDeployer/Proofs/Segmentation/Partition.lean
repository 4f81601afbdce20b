import Mathlib.Data.List.Chain
import Mathlib.Data.List.Nodup
import SolDeployer.Linking
import SolDeployer.Proofs.Segmentation.Substitution

/-!
# The pieces of a bytecode

Cutting loses no character and doubles none. Whatever is put into the
places of the addresses, the pieces in a row are the bytecode with those
texts in its slots (`refill_cut`), and linking is the case in which the
texts are addresses (`link_cut`). The texts that stood in the slots give
the bytecode again (`substitutedFrom_read`).

What a variable is called depends on the key of its library alone: the
first slot with a key names it for all of them (`nameIn_parametersOf`).
-/

namespace SolDeployer

/-! ## Pieces in a row -/

/-- The pieces in a row, with texts in the places of the addresses: one
text for each address. -/
def refill : List (List Char) → List Segment → Option (List Char)
  | [], [] => some []
  | texts, .hex digits :: rest => (refill texts rest).map (digits ++ ·)
  | text :: texts, .address _ :: rest => (refill texts rest).map (text ++ ·)
  | _, _ => none

theorem refill_digitSegment (texts : List (List Char)) (digits : List Char)
    (rest : List Segment) :
    refill texts (digitSegment digits ++ rest) = (refill texts rest).map (digits ++ ·) := by
  cases digits with
  | nil => simp [digitSegment]
  | cons c digits => simp [digitSegment, refill]

theorem refill_cut {size : Nat} {placements : List Placement} (parameters : List Parameter)
    (text : Placement → List Char) {cursor : Nat} {left : List Char}
    (h : Fits size cursor placements) (hleft : cursor + left.length = size) :
    refill (placements.map text) (cut parameters cursor left placements) =
      some (substitutedFrom placements text cursor left) := by
  induction placements generalizing cursor left with
  | nil =>
      have hfree : substitutedFrom [] text cursor left = left :=
        substitutedFrom_free fun placement hmem => absurd hmem List.not_mem_nil
      have hrefill := refill_digitSegment [] left []
      rw [List.append_nil] at hrefill
      simp [cut, hfree, hrefill, refill]
  | cons placement rest ih =>
      obtain ⟨hend, hrest, hsize⟩ := h.advance hleft
      have hlater := ih hrest hsize
      rw [hend] at hlater
      rw [substitutedFrom_cons h hleft, cut, refill_digitSegment, List.map_cons, refill, hlater]
      rfl

/-! ## Texts that stood in the slots -/

theorem Slot.read_append_drop {slot : Slot} (bytecode : List Char)
    (hfirst : 0 ≤ slot.firstChar) (hlt : slot.firstChar < slot.endChar) :
    slot.read bytecode ++ bytecode.drop slot.endChar.toNat =
      bytecode.drop slot.firstChar.toNat := by
  have hend : slot.endChar.toNat =
      slot.firstChar.toNat + (slot.endChar - slot.firstChar).toNat := by omega
  rw [Slot.read, hend, ← List.drop_drop, List.take_append_drop]

/-- The texts that stood in the slots give the bytecode again. -/
theorem substitutedFrom_read {size : Nat} {placements : List Placement} {cursor : Nat}
    {bytecode : List Char} (h : Fits size cursor placements)
    (hsize : cursor + (bytecode.drop cursor).length = size) :
    substitutedFrom placements (fun placement => placement.slot.read bytecode) cursor
      (bytecode.drop cursor) = bytecode.drop cursor := by
  induction placements generalizing cursor with
  | nil => exact substitutedFrom_free fun placement hmem => absurd hmem List.not_mem_nil
  | cons placement rest ih =>
      obtain ⟨hend, hrest, hsize'⟩ := h.advance hsize
      have ⟨_, hlength, _, hcursor, _⟩ := h
      have hlt := Slot.firstChar_lt_endChar hlength
      have hdrop : (bytecode.drop cursor).drop (placement.slot.endChar - cursor).toNat =
          bytecode.drop placement.slot.endChar.toNat := by
        rw [List.drop_drop]
        congr 1
        omega
      have hfirst : placement.slot.firstChar.toNat =
          cursor + (placement.slot.firstChar - cursor).toNat := by omega
      rw [hdrop] at hsize'
      rw [substitutedFrom_cons h hsize, hdrop, ih hrest hsize',
        Slot.read_append_drop bytecode (by omega) hlt, hfirst, ← List.drop_drop,
        List.take_append_drop]

/-! ## Addresses in the places of variables -/

/-- The variables of some pieces, in order. -/
def addressNames : List Segment → List String
  | [] => []
  | .hex _ :: rest => addressNames rest
  | .address name :: rest => name :: addressNames rest

theorem addressNames_append (left right : List Segment) :
    addressNames (left ++ right) = addressNames left ++ addressNames right := by
  induction left with
  | nil => rfl
  | cons segment rest ih => cases segment <;> simp [addressNames, ih]

theorem addressNames_digitSegment (digits : List Char) :
    addressNames (digitSegment digits) = [] := by
  cases digits <;> rfl

theorem addressNames_cut (parameters : List Parameter) (cursor : Int) (left : List Char)
    (placements : List Placement) :
    addressNames (cut parameters cursor left placements) =
      placements.map fun placement => nameIn parameters placement.library := by
  induction placements generalizing cursor left with
  | nil => exact addressNames_digitSegment left
  | cons placement rest ih =>
      simp [cut, addressNames_append, addressNames_digitSegment, addressNames, ih]

/-- There is an address of forty characters for a variable. What the
characters are is not looked at. -/
def HasAddress (addresses : Entries String String) (name : String) : Prop :=
  ∃ text, addresses.get? name = some text ∧ (addressDigits text.toList).length = 40

/-- The address of a variable as it is linked. -/
def linkedAddress (addresses : Entries String String) (name : String) : List Char :=
  match addresses.get? name with
  | some text => Text.lower (addressDigits text.toList)
  | none => []

theorem Segment.linked_address {addresses : Entries String String} {name : String}
    (h : HasAddress addresses name) :
    (Segment.address name).linked addresses = .ok (linkedAddress addresses name) := by
  obtain ⟨text, hget, hlength⟩ := h
  simp [Segment.linked, linkedAddress, hget, hlength]

/-- Linking puts addresses into the places of the variables. -/
theorem link_ok {addresses : Entries String String} {segments : List Segment}
    (h : ∀ name ∈ addressNames segments, HasAddress addresses name) :
    ∃ linked, link addresses segments = .ok linked ∧
      refill ((addressNames segments).map (linkedAddress addresses)) segments = some linked := by
  induction segments with
  | nil => exact ⟨[], rfl, rfl⟩
  | cons segment rest ih =>
      cases segment with
      | hex digits =>
          obtain ⟨linked, hlink, hrefill⟩ := ih h
          refine ⟨digits ++ linked, ?_, ?_⟩
          · simp only [link, Segment.linked, hlink]
          · simp only [addressNames, refill, hrefill, Option.map_some]
      | address name =>
          have hname := h name (List.mem_cons_self ..)
          obtain ⟨linked, hlink, hrefill⟩ := ih fun other hmem => h other (List.mem_cons_of_mem _ hmem)
          refine ⟨linkedAddress addresses name ++ linked, ?_, ?_⟩
          · simp only [link, Segment.linked_address hname, hlink]
          · simp only [addressNames, List.map_cons, refill, hrefill, Option.map_some]

/-! ## Names of variables -/

/-- The first slot with a key gives the parameter for it. -/
theorem find?_parametersOf (placements : List Placement) (key : String) :
    (parametersOf placements).find? (fun parameter => parameter.library.key == key) =
      (placements.find? fun placement => placement.library.key == key).map fun placement =>
        ⟨placement.library.identifier, placement.library⟩ := by
  induction placements with
  | nil => rfl
  | cons placement rest ih =>
      by_cases hkey : placement.library.key = key
      · simp [parametersOf, hkey]
      · have hfilter : (fun parameter : Parameter =>
            decide ((parameter.library.key != placement.library.key) = true ∧
              (parameter.library.key == key) = true)) =
              fun parameter => parameter.library.key == key := by
          funext parameter
          by_cases hother : parameter.library.key = key
          · simp [hother, Ne.symm hkey]
          · simp [hother]
        rw [parametersOf, List.find?_cons, List.find?_cons, beq_eq_false_iff_ne.mpr hkey,
          List.find?_filter, hfilter, ih]

/-- The variable for a library in a list of slots: the identifier of the
library of the first slot with its key. -/
def variableIn (placements : List Placement) (library : LibraryId) : String :=
  match placements.find? fun placement => placement.library.key == library.key with
  | some placement => placement.library.identifier
  | none => library.identifier

theorem nameIn_parametersOf (placements : List Placement) (library : LibraryId) :
    nameIn (parametersOf placements) library = variableIn placements library := by
  rw [nameIn, find?_parametersOf, variableIn]
  cases placements.find? fun placement => placement.library.key == library.key <;> rfl

/-- A variable is the identifier of its library if that is so for all
libraries with its key. -/
theorem variableIn_eq {placements : List Placement} {library : LibraryId}
    (h : ∀ other ∈ placements, other.library.key = library.key →
      other.library.identifier = library.identifier) :
    variableIn placements library = library.identifier := by
  rw [variableIn]
  cases hfind : placements.find? fun placement => placement.library.key == library.key with
  | none => rfl
  | some other =>
      exact h other (List.mem_of_find?_eq_some hfind) (by simpa using List.find?_some hfind)

theorem variableIn_mem {placements : List Placement} {placement : Placement}
    (hmem : placement ∈ placements) :
    ∃ parameter ∈ parametersOf placements, parameter.library.key = placement.library.key ∧
      parameter.name = variableIn placements placement.library := by
  rw [← nameIn_parametersOf, nameIn]
  cases hfind : (parametersOf placements).find? fun parameter =>
      parameter.library.key == placement.library.key with
  | some parameter =>
      exact ⟨parameter, List.mem_of_find?_eq_some hfind, by simpa using List.find?_some hfind, rfl⟩
  | none =>
      rw [find?_parametersOf, Option.map_eq_none_iff, List.find?_eq_none] at hfind
      exact absurd (beq_self_eq_true _) (hfind placement hmem)

theorem mem_parametersOf {placements : List Placement} {parameter : Parameter}
    (h : parameter ∈ parametersOf placements) :
    ∃ placement ∈ placements,
      parameter = ⟨placement.library.identifier, placement.library⟩ := by
  induction placements with
  | nil => cases h
  | cons placement rest ih =>
      rcases List.mem_cons.mp h with heq | h
      · exact ⟨placement, List.mem_cons_self .., heq⟩
      · obtain ⟨other, hother, heq⟩ := ih (List.mem_of_mem_filter h)
        exact ⟨other, List.mem_cons_of_mem _ hother, heq⟩

theorem parametersOf_keys_nodup (placements : List Placement) :
    ((parametersOf placements).map (·.library.key)).Nodup := by
  induction placements with
  | nil => exact List.nodup_nil
  | cons placement rest ih =>
      rw [parametersOf, List.map_cons, List.nodup_cons]
      refine ⟨fun hmem => ?_, ih.sublist (List.filter_sublist.map _)⟩
      obtain ⟨parameter, hparameter, hkey⟩ := List.mem_map.mp hmem
      have hne := (List.mem_filter.mp hparameter).2
      simp [hkey] at hne

/-- A parameter has the variable for its library as its name. -/
theorem variableIn_parameter {placements : List Placement} {parameter : Parameter}
    (hmem : parameter ∈ parametersOf placements) :
    variableIn placements parameter.library = parameter.name := by
  obtain ⟨placement, hplacement, rfl⟩ := mem_parametersOf hmem
  obtain ⟨other, hother, hkey, hname⟩ := variableIn_mem hplacement
  obtain rfl := List.inj_on_of_nodup_map (parametersOf_keys_nodup placements) hother hmem hkey
  exact hname.symm

theorem LinkReferences.library_mem {links : LinkReferences} {placement : Placement}
    (h : placement ∈ links.placements) : placement.library ∈ links.libraryIds := by
  simp only [LinkReferences.placements, List.mem_flatMap, List.mem_map] at h
  obtain ⟨⟨file, libraries⟩, hfile, ⟨name, slots⟩, hname, slot, -, rfl⟩ := h
  simp only [LinkReferences.libraryIds, List.mem_flatMap, List.mem_map]
  exact ⟨(file, libraries), hfile, (name, slots), hname, rfl⟩

theorem parameter_mem_libraryIds {links : LinkReferences} {parameter : Parameter}
    (h : parameter ∈ parametersOf links.byPosition) : parameter.library ∈ links.libraryIds := by
  obtain ⟨placement, hmem, rfl⟩ := mem_parametersOf h
  exact LinkReferences.library_mem (links.byPosition_perm.mem_iff.mp hmem)

/-! ## Pieces of digits -/

/-- Is a piece made of digits? -/
def Segment.isHex : Segment → Bool
  | .hex _ => true
  | .address _ => false

theorem mem_digitSegment {digits piece : List Char}
    (h : Segment.hex piece ∈ digitSegment digits) : piece = digits ∧ digits ≠ [] := by
  cases digits with
  | nil => cases h
  | cons c rest => simpa [digitSegment] using h

theorem hex_nil_notMem_cut (parameters : List Parameter) (cursor : Int) (left : List Char)
    (placements : List Placement) : Segment.hex [] ∉ cut parameters cursor left placements := by
  induction placements generalizing cursor left with
  | nil =>
      intro hmem
      obtain ⟨heq, hne⟩ := mem_digitSegment hmem
      exact hne heq.symm
  | cons placement rest ih =>
      intro hmem
      rcases List.mem_append.mp hmem with hmem | hmem
      · obtain ⟨heq, hne⟩ := mem_digitSegment hmem
        exact hne heq.symm
      · rcases List.mem_cons.mp hmem with heq | hmem
        · cases heq
        · exact ih _ _ hmem

/-- Some digits may stand before any address. -/
theorem isChain_digitSegment_append {digits : List Char} {name : String} {rest : List Segment}
    (h : (Segment.address name :: rest).IsChain fun a b => ¬(a.isHex ∧ b.isHex)) :
    (digitSegment digits ++ .address name :: rest).IsChain fun a b => ¬(a.isHex ∧ b.isHex) := by
  cases digits with
  | nil => exact h
  | cons c digits => exact h.cons_cons (by simp [Segment.isHex])

theorem isChain_cut (parameters : List Parameter) (cursor : Int) (left : List Char)
    (placements : List Placement) :
    (cut parameters cursor left placements).IsChain fun a b => ¬(a.isHex ∧ b.isHex) := by
  induction placements generalizing cursor left with
  | nil => cases left <;> simp [cut, digitSegment]
  | cons placement rest ih =>
      refine isChain_digitSegment_append ((ih _ _).cons fun other _ => ?_)
      simp [Segment.isHex]

end SolDeployer
