import SolDeployer.Proofs.Artifact.Digits
import SolDeployer.Proofs.Deployer.Planning
import SolDeployer.Proofs.Entries
import SolDeployer.Proofs.Hex
import SolDeployer.Proofs.Library
import SolDeployer.Proofs.Solidity.InitcodeReader

/-!
# The value of a generated initcode

What the function `initcode` of a generated source returns when it is
called: the bytecode of the artifact with the address of its own library
in each slot.

The value is computed from the source code alone. `readInitcode?` reads
the function, `packed?` packs the pieces of its expression with the
arguments bound to the names of the parameters. That the argument of a
slot is the address of its own library needs the names to differ, and
that no two libraries of the slots have one key.
-/

namespace SolDeployer

open Solidity (IsName Legible InitcodeSource readInitcode?)

/-! ## Values of expressions -/

/-- The bytes of some pieces packed together, their variables bound to bytes. -/
def packed? (binding : String → Option (List UInt8)) : List Segment → Option (List UInt8)
  | [] => some []
  | .hex digits :: rest =>
    match Hex.bytes? digits, packed? binding rest with
    | some bytes, some more => some (bytes ++ more)
    | _, _ => none
  | .address name :: rest =>
    match binding name, packed? binding rest with
    | some bytes, some more => some (bytes ++ more)
    | _, _ => none

/-- What the function returns for some arguments. -/
def Solidity.InitcodeSource.call? (source : InitcodeSource) (arguments : List (List UInt8)) :
    Option (List UInt8) :=
  packed? (Entries.get? (source.params.zip arguments)) source.pieces

theorem ofBytes_append (bytes more : List UInt8) :
    Hex.ofBytes (bytes ++ more) = Hex.ofBytes bytes ++ Hex.ofBytes more := List.flatMap_append

/-- Pieces have a value if their digits are bytes and their variables are
bound, and it is written as the pieces with the bound bytes. -/
theorem packed?_refill {binding : String → Option (List UInt8)} {segments : List Segment}
    (hdigits : ∀ digits, Segment.hex digits ∈ segments → AreBytes digits)
    (hbound : ∀ name ∈ addressNames segments, (binding name).isSome = true) :
    ∃ value, packed? binding segments = some value ∧
      refill ((addressNames segments).map fun name => Hex.ofBytes ((binding name).getD []))
        segments = some (Hex.ofBytes value) := by
  induction segments with
  | nil => exact ⟨[], rfl, rfl⟩
  | cons segment rest ih =>
      have hrest : ∀ digits, Segment.hex digits ∈ rest → AreBytes digits :=
        fun digits hmem => hdigits digits (List.mem_cons_of_mem _ hmem)
      cases segment with
      | hex digits =>
          obtain ⟨more, hmore, hrefill⟩ := ih hrest hbound
          obtain ⟨heven, hlower⟩ := hdigits digits (List.mem_cons_self ..)
          obtain ⟨bytes, hbytes, hwritten⟩ := Hex.bytes?_lower heven hlower
          refine ⟨bytes ++ more, ?_, ?_⟩
          · simp only [packed?, hbytes, hmore]
          · simp only [addressNames, refill, hrefill, Option.map_some, ofBytes_append, hwritten]
      | address name =>
          obtain ⟨bytes, hname⟩ := Option.isSome_iff_exists.mp (hbound name (List.mem_cons_self ..))
          obtain ⟨more, hmore, hrefill⟩ := ih hrest fun other hmem =>
            hbound other (List.mem_cons_of_mem _ hmem)
          refine ⟨bytes ++ more, ?_, ?_⟩
          · simp only [packed?, hname, hmore]
          · simp only [addressNames, List.map_cons, refill, hrefill, hname, Option.getD_some,
              Option.map_some, ofBytes_append]

/-! ## Arguments -/

theorem get?_zip {parameters : List Parameter} (hnodup : (parameters.map Parameter.name).Nodup)
    (address : LibraryId → List UInt8) {parameter : Parameter} (hmem : parameter ∈ parameters) :
    Entries.get? ((parameters.map Parameter.name).zip
        (parameters.map fun parameter => address parameter.library)) parameter.name =
      some (address parameter.library) := by
  induction parameters with
  | nil => cases hmem
  | cons first rest ih =>
      rw [List.map_cons, List.nodup_cons] at hnodup
      rcases List.mem_cons.mp hmem with rfl | hmem
      · simp [Entries.get?]
      · have hne : first.name ≠ parameter.name := fun heq =>
          hnodup.1 (heq ▸ List.mem_map_of_mem hmem)
        simp only [List.map_cons, List.zip_cons_cons, Entries.get?, beq_iff_eq, if_neg hne]
        exact ih hnodup.2 hmem

/-! ## Libraries with proper names -/

theorem notMem_name {name : String} (h : IsName name) : ':' ∉ name.toList :=
  fun hmem => Solidity.isNameChar_ne (h.2 _ hmem) (by decide) rfl

theorem mem_addressNames {segments : List Segment} {name : String}
    (h : Segment.address name ∈ segments) : name ∈ addressNames segments := by
  induction segments with
  | nil => cases h
  | cons segment rest ih =>
      rcases List.mem_cons.mp h with rfl | hrest
      · exact List.mem_cons_self ..
      · cases segment with
        | hex digits => exact ih hrest
        | address other => exact List.mem_cons_of_mem _ (ih hrest)

variable {bytecode : List Char} {links : LinkReferences} {code : Segmentation}

theorem isName_parameter (hcode : segment bytecode links = .ok code)
    (hlibraries : ∀ library ∈ links.libraryIds, IsName library.name) {parameter : Parameter}
    (hmem : parameter ∈ code.parameters) : IsName parameter.name := by
  rw [segment_parameters hcode] at hmem
  have hlibrary := parameter_mem_libraryIds hmem
  obtain ⟨placement, -, rfl⟩ := mem_parametersOf hmem
  exact isName_identifierOf (hlibraries _ hlibrary)

theorem legible_segment (hproper : Artifact.bytecodeDefect? bytecode links = none)
    (hcode : segment bytecode links = .ok code)
    (hlibraries : ∀ library ∈ links.libraryIds, IsName library.name) {piece : Segment}
    (hmem : piece ∈ code.segments) : Legible piece := by
  cases piece with
  | hex digits =>
      intro c hc
      obtain ⟨value, -, hvalue, -⟩ := Hex.digit?_lower ((segment_digits hproper hcode hmem).2 c hc)
      rw [hvalue]
      rfl
  | address name =>
      have hname := mem_addressNames hmem
      rw [addressNames_segment hcode] at hname
      obtain ⟨placement, hplacement, rfl⟩ := List.mem_map.mp hname
      obtain ⟨parameter, hparameter, -, hname⟩ := variableIn_mem hplacement
      rw [← segment_parameters hcode] at hparameter
      rw [← hname]
      exact isName_parameter hcode hlibraries hparameter

/-- The variable of a slot is bound to the address of its own library, if
no other library with its key has another address. -/
theorem get?_arguments_of_key (hcode : segment bytecode links = .ok code)
    (hnodup : (code.parameters.map Parameter.name).Nodup) {address : LibraryId → List UInt8}
    {placement : Placement} (hmem : placement ∈ links.byPosition)
    (hkey : ∀ parameter ∈ code.parameters, parameter.library.key = placement.library.key →
      address parameter.library = address placement.library) :
    Entries.get? ((code.parameters.map Parameter.name).zip
        (code.parameters.map fun parameter => address parameter.library))
      (variableIn links.byPosition placement.library) = some (address placement.library) := by
  obtain ⟨parameter, hparameter, hsame, hname⟩ := variableIn_mem hmem
  rw [← segment_parameters hcode] at hparameter
  rw [← hname, ← hkey parameter hparameter hsame]
  exact get?_zip hnodup address hparameter

/-- The variable of a slot is bound to the address of its own library. -/
theorem get?_arguments (hcode : segment bytecode links = .ok code)
    (hlibraries : ∀ library ∈ links.libraryIds, IsName library.name)
    (hnodup : (code.parameters.map Parameter.name).Nodup) (address : LibraryId → List UInt8)
    {placement : Placement} (hmem : placement ∈ links.byPosition) :
    Entries.get? ((code.parameters.map Parameter.name).zip
        (code.parameters.map fun parameter => address parameter.library))
      (variableIn links.byPosition placement.library) = some (address placement.library) := by
  have hlibrary : placement.library ∈ links.libraryIds :=
    LinkReferences.library_mem (links.byPosition_perm.mem_iff.mp hmem)
  refine get?_arguments_of_key hcode hnodup hmem fun parameter hparameter hkey => ?_
  rw [segment_parameters hcode] at hparameter
  -- no colon stands in the names, so the key tells the library
  exact congrArg address (LibraryId.eq_of_key
    (notMem_name (hlibraries _ (parameter_mem_libraryIds hparameter)))
    (notMem_name (hlibraries _ hlibrary)) hkey)

/-- The function returns the bytecode with the address of its own library
in each slot. -/
theorem call?_segment (hproper : Artifact.bytecodeDefect? bytecode links = none)
    (hcode : segment bytecode links = .ok code)
    (hlibraries : ∀ library ∈ links.libraryIds, IsName library.name)
    (hnodup : (code.parameters.map Parameter.name).Nodup) (address : LibraryId → List UInt8) :
    ∃ value, InitcodeSource.call? ⟨code.parameters.map Parameter.name, code.segments⟩
        (code.parameters.map fun parameter => address parameter.library) = some value ∧
      Hex.ofBytes value = links.substituted bytecode fun placement =>
        Hex.ofBytes (address placement.library) := by
  have hbound := fun {placement : Placement} (hmem : placement ∈ links.byPosition) =>
    get?_arguments hcode hlibraries hnodup address hmem
  have hnames : ∀ name ∈ addressNames code.segments,
      (Entries.get? ((code.parameters.map Parameter.name).zip
        (code.parameters.map fun parameter => address parameter.library)) name).isSome = true := by
    rw [addressNames_segment hcode]
    intro name hmem
    obtain ⟨placement, hplacement, rfl⟩ := List.mem_map.mp hmem
    rw [hbound hplacement]
    rfl
  obtain ⟨value, hvalue, hrefill⟩ :=
    packed?_refill (fun digits hmem => segment_digits hproper hcode hmem) hnames
  refine ⟨value, hvalue, ?_⟩
  have htexts : (links.byPosition.map fun placement => variableIn links.byPosition placement.library).map
      (fun name => Hex.ofBytes ((Entries.get? ((code.parameters.map Parameter.name).zip
        (code.parameters.map fun parameter => address parameter.library)) name).getD [])) =
      links.byPosition.map fun placement => Hex.ofBytes (address placement.library) := by
    rw [List.map_map]
    refine List.map_congr_left fun placement hmem => ?_
    rw [Function.comp_apply, hbound hmem, Option.getD_some]
  rw [addressNames_segment hcode, htexts, refill_segment hcode] at hrefill
  exact (Option.some.inj hrefill).symm

/-- **Value of the initcode.** The function `initcode` is read back from the
generated source, and called with an address for each of its parameters it
returns the bytecode with the address of its own library in each slot. The
text of an expression determines its pieces. -/
theorem generated_initcode :
    (∀ {document : Artifact.Document} {contract : String} {host : Host} {artifact : Artifact}
      {options : Deployer.Options} {source : String} {code : Segmentation},
      Artifact.read document contract host = .ok artifact →
      (∀ library ∈ artifact.libraryIds, IsName library.name) →
      segment artifact.bytecode artifact.links = .ok code →
      (code.parameters.map Parameter.name).Nodup →
      (Deployer.generate artifact options).result = .ok source →
      ∀ address : LibraryId → List UInt8, ∃ function value,
        readInitcode? source.toList = some function ∧
        function.params = code.parameters.map Parameter.name ∧
        function.call? (code.parameters.map fun parameter => address parameter.library) =
          some value ∧
        Hex.ofBytes value = artifact.links.substituted artifact.bytecode fun placement =>
          Hex.ofBytes (address placement.library)) ∧
    ∀ {segments others : List Segment}, (∀ piece ∈ segments, Legible piece) →
      (∀ piece ∈ others, Legible piece) →
      initcodeExpression segments = initcodeExpression others → segments = others := by
  refine ⟨?_, Solidity.initcodeExpression_injective⟩
  intro document contract host artifact options source code hread hlibraries hcode hnodup hsource address
  have hproper := Artifact.read_ok hread
  obtain ⟨d, hplan, rfl⟩ := Deployer.generate_ok hsource
  obtain rfl : d.code = code := Except.ok.inj ((Deployer.plan_code hplan).symm.trans hcode)
  obtain ⟨value, hvalue, hwritten⟩ := call?_segment hproper hcode hlibraries hnodup address
  refine ⟨⟨d.code.parameters.map Parameter.name, d.code.segments⟩, value, ?_, rfl, hvalue, hwritten⟩
  exact Solidity.readInitcode?_source (fun parameter hmem => isName_parameter hcode hlibraries hmem)
    fun piece hmem => legible_segment hproper hcode hlibraries hmem

/-- A document with one byte on each side of a slot. -/
def Artifact.Document.sample : Artifact.Document := .object [
  ("bytecode", .obj [
    ("object", .str ("0x60" ++ String.ofList (List.replicate 40 '0') ++ "A1")),
    ("linkReferences", .obj [("src/M.sol", .obj [("M", .arr [
      .obj [("start", .int 1), ("length", .int 20)]])])])])]

theorem generated_initcode_sample :
    ∃ artifact source function value, Artifact.read .sample "C" = .ok artifact ∧
      (Deployer.generate artifact {}).result = .ok source ∧
      readInitcode? source.toList = some function ∧ function.params = ["m"] ∧
      function.call? [List.replicate 20 0xAB] = some value ∧
      Hex.ofBytes value = "60ababababababababababababababababababababa1".toList := by
  have hcode : (Artifact.read .sample "C").toOption.map (fun artifact =>
      (segment artifact.bytecode artifact.links, artifact.libraryIds)) =
      some (.ok ⟨[.hex "60".toList, .address "m", .hex "a1".toList], [⟨"m", ⟨"src/M.sol", "M"⟩⟩]⟩,
        [⟨"src/M.sol", "M"⟩]) := by decide +kernel
  have hdigits : (Artifact.read .sample "C").toOption.map (fun artifact =>
      artifact.links.substituted artifact.bytecode fun _ =>
        Hex.ofBytes (List.replicate 20 0xAB)) =
      some "60ababababababababababababababababababababa1".toList := by decide +kernel
  have hgenerate : (Artifact.read .sample "C").toOption.map (fun artifact =>
      (Deployer.generate artifact {}).result.toOption.isSome) = some true := by decide +kernel
  cases hread : Artifact.read .sample "C" with
  | error failure =>
      rw [hread] at hcode
      cases hcode
  | ok artifact =>
      rw [hread] at hcode hdigits hgenerate
      obtain ⟨hsegment, hids⟩ := Prod.mk.inj (Option.some.inj hcode)
      cases hsource : (Deployer.generate artifact {}).result with
      | error failure =>
          have hnone : (Deployer.generate artifact {}).result.toOption.isSome = true :=
            Option.some.inj hgenerate
          rw [hsource] at hnone
          cases hnone
      | ok source =>
          have hlibraries : ∀ library ∈ artifact.libraryIds, IsName library.name := by
            rw [hids]
            intro library hmem
            rw [List.mem_singleton.mp hmem]
            exact ⟨by decide, List.all_eq_true.mp (by decide)⟩
          obtain ⟨function, value, hfunction, hparams, hvalue, hwritten⟩ :=
            generated_initcode.1 hread hlibraries hsegment (by decide) hsource
              fun _ => List.replicate 20 0xAB
          exact ⟨artifact, source, function, value, rfl, hsource, hfunction, hparams, hvalue,
            hwritten.trans (Option.some.inj hdigits)⟩

end SolDeployer
