import SolDeployer.Prediction
import SolDeployer.Proofs.Address
import SolDeployer.Proofs.Artifact.Digits
import SolDeployer.Proofs.Deployer.Planning
import SolDeployer.Proofs.Entries
import SolDeployer.Proofs.Keccak
import SolDeployer.Proofs.Resolution.DeploymentOrder
import SolDeployer.Proofs.Segmentation.RoundTrip

/-!
# Predicted addresses of libraries

What code the predicted address of a library belongs to. Addresses are
kept by key, and a library stands after those it refers to, so the
addresses that it needs are known when it is its turn, and no later
library changes them (`predictFrom_spec`).

But a bytecode is linked by the names of its variables. Of several
parameters with one name the last counts: its address goes into the slots
of all of them (`codeByName`). That is the bytecode with the addresses by
key (`codeByKey`) exactly if parameters with one name have one address.
-/

namespace SolDeployer

/-! ## Two ways to link -/

/-- The last parameter with a name. -/
def LinkReferences.lastNamed (links : LinkReferences) (name : String) : Option Parameter :=
  (parametersOf links.byPosition).reverse.find? fun parameter => parameter.name == name

/-- The address that a variable has for the code: that of the last
parameter with its name. -/
def addressNamed (byKey : Entries String String) (links : LinkReferences) (name : String) :
    List Char :=
  match links.lastNamed name with
  | some parameter => linkedAddress byKey parameter.library.key
  | none => []

/-- The bytecode of an artifact with the address of its variable in each slot. -/
def codeByName (byKey : Entries String String) (artifact : Artifact) : List Char :=
  artifact.links.substituted artifact.bytecode fun placement =>
    addressNamed byKey artifact.links (variableIn artifact.links.byPosition placement.library)

/-- The bytecode of an artifact with the address of its own key in each slot. -/
def codeByKey (byKey : Entries String String) (artifact : Artifact) : List Char :=
  artifact.links.substituted artifact.bytecode fun placement =>
    linkedAddress byKey placement.library.key

/-- Parameters with one name have one address. -/
def NamesAgree (byKey : Entries String String) (links : LinkReferences) : Prop :=
  ∀ p ∈ parametersOf links.byPosition, ∀ q ∈ parametersOf links.byPosition, p.name = q.name →
    linkedAddress byKey p.library.key = linkedAddress byKey q.library.key

/-- The address of a key is known, and written as addresses are. -/
def Known (byKey : Entries String String) (key : String) : Prop :=
  ∃ address : List UInt8, address.length = 20 ∧
    byKey.get? key = some (Address.checksummed address)

theorem linkedAddress_of_get {byKey : Entries String String} {key : String} {address : List UInt8}
    (hget : byKey.get? key = some (Address.checksummed address)) (hlength : address.length = 20) :
    linkedAddress byKey key = Hex.ofBytes address := by
  have hlinked := (Address.linked_checksummed hlength).2
  simp only [linkedAddress, hget, hlinked]

theorem Known.linkedAddress {byKey : Entries String String} {key : String} (h : Known byKey key) :
    (linkedAddress byKey key).length = 40 ∧
      ∀ c ∈ linkedAddress byKey key, Hex.isLowerDigit c = true := by
  obtain ⟨address, hlength, hget⟩ := h
  rw [linkedAddress_of_get hget hlength]
  exact ⟨by rw [Hex.length_ofBytes, hlength], fun c hmem => Hex.isLowerDigit_ofBytes hmem⟩

section Names

variable {byKey : Entries String String} {artifact : Artifact}

theorem lastNamed_mem {links : LinkReferences} {parameter : Parameter}
    (hmem : parameter ∈ parametersOf links.byPosition) :
    ∃ last ∈ parametersOf links.byPosition, links.lastNamed parameter.name = some last ∧
      last.name = parameter.name := by
  cases hfind : links.lastNamed parameter.name with
  | some last =>
      exact ⟨last, List.mem_reverse.mp (List.mem_of_find?_eq_some hfind), rfl,
        by simpa using List.find?_some hfind⟩
  | none =>
      rw [LinkReferences.lastNamed, List.find?_eq_none] at hfind
      exact absurd (beq_self_eq_true _) (hfind parameter (List.mem_reverse.mpr hmem))

theorem addressNamed_of_last {links : LinkReferences} {name : String} {last : Parameter}
    (h : links.lastNamed name = some last) :
    addressNamed byKey links name = linkedAddress byKey last.library.key := by
  rw [addressNamed, h]

theorem NamesAgree.of_nodup {links : LinkReferences}
    (h : ((parametersOf links.byPosition).map Parameter.name).Nodup) : NamesAgree byKey links := by
  intro p hp q hq hname
  rw [List.inj_on_of_nodup_map h hp hq hname]

/-- Linking by names is linking by keys exactly if the names agree. -/
theorem codeByName_eq_codeByKey
    (hfits : Fits artifact.bytecode.length 0 artifact.links.byPosition)
    (hknown : ∀ library ∈ artifact.libraryIds, Known byKey library.key) :
    codeByName byKey artifact = codeByKey byKey artifact ↔ NamesAgree byKey artifact.links := by
  have hlength : ∀ placement ∈ artifact.links.byPosition,
      (addressNamed byKey artifact.links
        (variableIn artifact.links.byPosition placement.library)).length =
        (linkedAddress byKey placement.library.key).length := by
    intro placement hmem
    obtain ⟨own, hown, hkey, hname⟩ := variableIn_mem hmem
    obtain ⟨last, hlast, hfind, -⟩ := lastNamed_mem hown
    rw [← hname, ← hkey, addressNamed_of_last hfind,
      (hknown _ (parameter_mem_libraryIds hlast)).linkedAddress.1,
      (hknown _ (parameter_mem_libraryIds hown)).linkedAddress.1]
  rw [codeByName, codeByKey, LinkReferences.substituted_inj hfits hlength]
  constructor
  · intro hequal p hp q hq hname
    have hown : ∀ parameter ∈ parametersOf artifact.links.byPosition,
        addressNamed byKey artifact.links parameter.name =
          linkedAddress byKey parameter.library.key := by
      intro parameter hmem
      obtain ⟨placement, hplacement, heq⟩ := mem_parametersOf hmem
      have hplaced := hequal placement hplacement
      have hlibrary : placement.library = parameter.library := by rw [heq]
      rwa [hlibrary, variableIn_parameter hmem] at hplaced
    rw [← hown p hp, ← hown q hq, hname]
  · intro hagree placement hmem
    obtain ⟨own, hown, hkey, hname⟩ := variableIn_mem hmem
    obtain ⟨last, hlast, hfind, hsame⟩ := lastNamed_mem hown
    rw [← hname, ← hkey, addressNamed_of_last hfind]
    exact hagree last hlast own hown hsame

end Names

/-! ## The address of one library -/

/-- The pairs of names and addresses of some parameters. -/
def addressPairs (byKey : Entries String String) (parameters : List Parameter) :
    List (String × String) :=
  parameters.map fun parameter =>
    (parameter.name, (byKey.get? parameter.library.key).getD "")

theorem addressesFor_ok {byKey : Entries String String} {parameters : List Parameter}
    (h : ∀ parameter ∈ parameters, Known byKey parameter.library.key) :
    addressesFor byKey parameters = .ok (addressPairs byKey parameters) := by
  induction parameters with
  | nil => rfl
  | cons parameter rest ih =>
      obtain ⟨address, -, hget⟩ := h parameter (List.mem_cons_self ..)
      have hrest := ih fun other hmem => h other (List.mem_cons_of_mem _ hmem)
      simp only [addressesFor, hget, hrest]
      simp only [addressPairs, List.map_cons, hget]
      rfl

/-- The last pair of a name counts. -/
theorem linkedAddress_addressPairs {byKey : Entries String String} {links : LinkReferences}
    (hknown : ∀ parameter ∈ parametersOf links.byPosition, Known byKey parameter.library.key)
    {parameter : Parameter} (hmem : parameter ∈ parametersOf links.byPosition) :
    HasAddress (Entries.ofList (addressPairs byKey (parametersOf links.byPosition))) parameter.name ∧
      linkedAddress (Entries.ofList (addressPairs byKey (parametersOf links.byPosition)))
        parameter.name = addressNamed byKey links parameter.name := by
  obtain ⟨last, hlast, hfind, -⟩ := lastNamed_mem hmem
  obtain ⟨address, hlength, hget⟩ := hknown last hlast
  have hpair : (Entries.ofList (addressPairs byKey (parametersOf links.byPosition))).get?
      parameter.name = some (Address.checksummed address) := by
    rw [Entries.get?_ofList, addressPairs, ← List.map_reverse, List.find?_map]
    show Option.map _ (Option.map _ (links.lastNamed parameter.name)) = _
    rw [hfind, Option.map_some, Option.map_some, hget, Option.getD_some]
  refine ⟨⟨_, hpair, (Address.linked_checksummed hlength).1⟩, ?_⟩
  rw [addressNamed_of_last hfind]
  simp only [linkedAddress, hpair, hget]

/-- Linking with the pairs is linking by names. -/
theorem link_addressPairs {byKey : Entries String String} {artifact : Artifact}
    {code : Segmentation} (hcode : segment artifact.bytecode artifact.links = .ok code)
    (hknown : ∀ parameter ∈ parametersOf artifact.links.byPosition,
      Known byKey parameter.library.key) :
    link (Entries.ofList (addressPairs byKey (parametersOf artifact.links.byPosition)))
      code.segments = .ok (codeByName byKey artifact) := by
  have hlink := link_eq_substituted hcode fun parameter hmem => by
    rw [segment_parameters hcode] at hmem
    exact (linkedAddress_addressPairs hknown hmem).1
  rw [hlink, codeByName]
  congr 1
  refine LinkReferences.substituted_congr (segment_ok hcode).1 fun placement hmem => ?_
  obtain ⟨own, hown, -, hname⟩ := variableIn_mem hmem
  rw [← hname]
  exact (linkedAddress_addressPairs hknown hown).2

/-- The turn of one library hashes its linked code. -/
theorem predictOne_code (deployer : Json) {byKey : Entries String String} {library : Resolved}
    {code : Segmentation}
    (hcode : segment library.artifact.bytecode library.artifact.links = .ok code)
    (hknown : ∀ child ∈ library.artifact.libraryIds, Known byKey child.key) :
    (predictOne deployer byKey library).result =
      create2 deployer (.str (String.ofList (codeByName byKey library.artifact)))
        (.str Address.zeroSalt) := by
  have hparameters : ∀ parameter ∈ parametersOf library.artifact.links.byPosition,
      Known byKey parameter.library.key :=
    fun parameter hmem => hknown _ (parameter_mem_libraryIds hmem)
  rw [predictOne, Report.bind_result, Deployer.segmentArtifact_ok.mpr hcode]
  show (do
    let addresses ← addressesFor byKey code.parameters
    let linked ← (link (Entries.ofList addresses) code.segments).mapError Failure.ofLinkError
    create2 deployer (.str (String.ofList linked)) (.str Address.zeroSalt)) = _
  rw [segment_parameters hcode, addressesFor_ok hparameters]
  show ((link _ code.segments).mapError Failure.ofLinkError >>= fun linked =>
    create2 deployer (.str (String.ofList linked)) (.str Address.zeroSalt)) = _
  rw [link_addressPairs hcode hparameters]
  rfl

theorem create2_str {deployer initcode : String} {bytes : List UInt8}
    (hdeployer : Hex.markedBytes? deployer.toList = some bytes) :
    create2 (.str deployer) (.str initcode) (.str Address.zeroSalt) =
      (Address.create2 deployer initcode).mapError Failure.create2 := by
  show (if (Hex.markedBytes? deployer.toList).isNone = true then _
    else (Address.create2 deployer initcode).mapError Failure.create2) = _
  rw [hdeployer]
  rfl

theorem predictOne_result {deployer : String} {bytes : List UInt8} {byKey : Entries String String}
    {library : Resolved} {code : Segmentation}
    (hdeployer : Hex.markedBytes? deployer.toList = some bytes)
    (hcode : segment library.artifact.bytecode library.artifact.links = .ok code)
    (hknown : ∀ child ∈ library.artifact.libraryIds, Known byKey child.key) :
    (predictOne (.str deployer) byKey library).result =
      (Address.create2 deployer (String.ofList (codeByName byKey library.artifact))).mapError
        Failure.create2 := by
  rw [predictOne_code _ hcode hknown]
  exact create2_str hdeployer

/-! ## One library after another -/

theorem Known.append {byKey : Entries String String} {key : String} (h : Known byKey key)
    (more : Entries String String) : Known (byKey ++ more) key := by
  obtain ⟨address, hlength, hget⟩ := h
  exact ⟨address, hlength, Entries.get?_append_of_some hget⟩

/-- Later addresses do not change the code of a library. -/
theorem codeByName_append {byKey : Entries String String} {artifact : Artifact}
    (hfits : Fits artifact.bytecode.length 0 artifact.links.byPosition)
    (hknown : ∀ child ∈ artifact.libraryIds, Known byKey child.key)
    (more : Entries String String) :
    codeByName (byKey ++ more) artifact = codeByName byKey artifact := by
  refine LinkReferences.substituted_congr hfits fun placement hmem => ?_
  obtain ⟨own, hown, -, hname⟩ := variableIn_mem hmem
  obtain ⟨last, hlast, hfind, -⟩ := lastNamed_mem hown
  obtain ⟨address, -, hget⟩ := hknown _ (parameter_mem_libraryIds hlast)
  rw [← hname, addressNamed_of_last hfind, addressNamed_of_last hfind]
  simp only [linkedAddress, hget, Entries.get?_append_of_some hget]

/-- The code of a library is not made of bytes, although the addresses it
needs are known. -/
def WithoutBytes (artifact : Artifact) : Prop :=
  ∃ byKey, (∀ child ∈ artifact.libraryIds, Known byKey child.key) ∧
    Hex.markedBytes? (codeByName byKey artifact) = none

/-- The turn of one library: an address for its code, or none if the code
is not made of bytes. -/
theorem predictOne_cases {deployer : String} {bytes : List UInt8} {byKey : Entries String String}
    {library : Resolved} {code : Segmentation}
    (hdeployer : Hex.markedBytes? deployer.toList = some bytes) (hlength : bytes.length = 20)
    (hcode : segment library.artifact.bytecode library.artifact.links = .ok code)
    (hknown : ∀ child ∈ library.artifact.libraryIds, Known byKey child.key) :
    (∃ address : List UInt8, address.length = 20 ∧
      (predictOne (.str deployer) byKey library).result = .ok (Address.checksummed address) ∧
      Address.create2 deployer (String.ofList (codeByName byKey library.artifact)) =
        .ok (Address.checksummed address)) ∨
    WithoutBytes library.artifact ∧
      (predictOne (.str deployer) byKey library).result = .error (.create2 .notHex) := by
  rw [predictOne_result hdeployer hcode hknown, Address.create2_eq hdeployer hlength,
    String.toList_ofList]
  cases hbytes : Hex.markedBytes? (codeByName byKey library.artifact) with
  | none => exact .inr ⟨⟨byKey, hknown, hbytes⟩, rfl⟩
  | some codeBytes => exact .inl ⟨_, Address.length_create2Bytes .., rfl, rfl⟩

/-- A new address is known, and those before it stay known. -/
theorem known_concat {byKey : Entries String String} {key : String} {address : List UInt8}
    (hnew : key ∉ byKey.keys) (hknown : ∀ other ∈ byKey.keys, Known byKey other)
    (hlength : address.length = 20) {other : String} (hmem : other ∈ byKey.keys ++ [key]) :
    Known (byKey ++ [(key, Address.checksummed address)]) other := by
  rcases List.mem_append.mp hmem with hmem | hmem
  · exact (hknown other hmem).append _
  · rw [List.mem_singleton.mp hmem]
    refine ⟨address, hlength, ?_⟩
    rw [Entries.get?_append_of_notMem hnew]
    simp [Entries.get?]

/-- The code of a proper bytecode is made of bytes. -/
theorem not_withoutBytes {artifact : Artifact} {code : Segmentation}
    (hproper : Artifact.bytecodeDefect? artifact.bytecode artifact.links = none)
    (hcode : segment artifact.bytecode artifact.links = .ok code) : ¬WithoutBytes artifact := by
  rintro ⟨byKey, hknown, hbytes⟩
  have hdigits : AreBytes (codeByName byKey artifact) := by
    refine areBytes_substituted hproper hcode fun placement hmem => ?_
    obtain ⟨own, hown, -, hname⟩ := variableIn_mem hmem
    obtain ⟨last, hlast, hfind, -⟩ := lastNamed_mem hown
    obtain ⟨hlength, hlower⟩ := (hknown _ (parameter_mem_libraryIds hlast)).linkedAddress
    rw [← hname, addressNamed_of_last hfind]
    exact ⟨by rw [hlength], hlower⟩
  obtain ⟨bytes, hsome, -⟩ := Hex.bytes?_lower hdigits.1 hdigits.2
  rw [Hex.markedBytes?, Hex.dropMark_lower hdigits.2, hsome] at hbytes
  cases hbytes

theorem predictFrom_cons {deployer : Json} {byKey : Entries String String} {library : Resolved}
    {rest : List Resolved} :
    (predictFrom deployer byKey (library :: rest)).result =
      (predictOne deployer byKey library).result >>= fun text =>
        (predictFrom deployer (byKey.insert library.key text) rest).result >>= fun others =>
          .ok ((library.identifier, text) :: others) := by
  rw [predictFrom, Report.bind_result]
  congr 1
  funext text
  rw [Report.bind_result]
  rfl

/-- The turn of a library whose code is known to be made of bytes. -/
theorem predictFrom_turn {deployer : String} {bytes codeBytes : List UInt8}
    {byKey : Entries String String} {library : Resolved} {rest : List Resolved}
    (hdeployer : Hex.markedBytes? deployer.toList = some bytes) (hlength : bytes.length = 20)
    (hcode : ∃ code, segment library.artifact.bytecode library.artifact.links = .ok code)
    (hknown : ∀ child ∈ library.artifact.libraryIds, Known byKey child.key)
    (hbytes : codeByName byKey library.artifact = Hex.ofBytes codeBytes) {text : String}
    (htext : Address.checksummed (Address.create2Bytes bytes (List.replicate 32 0) codeBytes) = text) :
    (predictFrom (.str deployer) byKey (library :: rest)).result =
      (predictFrom (.str deployer) (byKey.insert library.key text) rest).result >>= fun others =>
        .ok ((library.identifier, text) :: others) := by
  obtain ⟨code, hsegment⟩ := hcode
  rw [predictFrom_cons, predictOne_result hdeployer hsegment hknown,
    Address.create2_eq hdeployer hlength, String.toList_ofList, hbytes, Hex.markedBytes?_ofBytes,
    ← htext]
  rfl

/-- The addresses of some libraries, those of `byKey` being known before.
The code of each is linked with the addresses that all of them get. -/
structure Predicted (deployer : String) (byKey : Entries String String) (libraries : List Resolved)
    (texts : List String) : Prop where
  length : texts.length = libraries.length
  result : (predictFrom (.str deployer) byKey libraries).result =
    .ok ((libraries.map Resolved.identifier).zip texts)
  known : ∀ key ∈ byKey.keys ++ libraries.map Resolved.key,
    Known (byKey ++ (libraries.map Resolved.key).zip texts) key
  created : ∀ pair ∈ libraries.zip texts, Address.create2 deployer (String.ofList
    (codeByName (byKey ++ (libraries.map Resolved.key).zip texts) pair.1.artifact)) = .ok pair.2

section Predicted

variable {deployer : String} {byKey : Entries String String} {library : Resolved}
  {rest : List Resolved}

theorem Predicted.nil (hknown : ∀ key ∈ byKey.keys, Known byKey key) :
    Predicted deployer byKey [] [] where
  length := rfl
  result := rfl
  known key hmem := (hknown key (by simpa using hmem)).append _
  created pair hmem := by cases hmem

theorem keys_concat (text : String) :
    Entries.keys (byKey ++ [(library.key, text)]) = byKey.keys ++ [library.key] := by
  simp [Entries.keys]

theorem predictFrom_after {text : String} (hnew : library.key ∉ byKey.keys)
    (hone : (predictOne (.str deployer) byKey library).result = .ok text) :
    (predictFrom (.str deployer) byKey (library :: rest)).result =
      (predictFrom (.str deployer) (byKey ++ [(library.key, text)]) rest).result >>= fun others =>
        .ok ((library.identifier, text) :: others) := by
  rw [predictFrom_cons, hone, ← Entries.insert_of_notMem _ hnew]
  rfl

/-- One more library in front: its own address does not depend on those after it. -/
theorem Predicted.cons {text : String} {texts : List String}
    (hnew : library.key ∉ byKey.keys)
    (hfits : Fits library.artifact.bytecode.length 0 library.artifact.links.byPosition)
    (hneeds : ∀ child ∈ library.artifact.libraryIds, Known byKey child.key)
    (hone : (predictOne (.str deployer) byKey library).result = .ok text)
    (hcreate : Address.create2 deployer (String.ofList (codeByName byKey library.artifact)) = .ok text)
    (h : Predicted deployer (byKey ++ [(library.key, text)]) rest texts) :
    Predicted deployer byKey (library :: rest) (text :: texts) := by
  have hfinal : byKey ++ ((library :: rest).map Resolved.key).zip (text :: texts) =
      byKey ++ [(library.key, text)] ++ (rest.map Resolved.key).zip texts := by
    rw [List.map_cons, List.zip_cons_cons, List.append_assoc]
    rfl
  refine ⟨by simp [h.length], ?_, ?_, ?_⟩
  · rw [predictFrom_after hnew hone, h.result]
    rfl
  · intro key hmem
    rw [hfinal]
    refine h.known key ?_
    rw [keys_concat, List.append_assoc]
    exact hmem
  · intro pair hmem
    rw [hfinal]
    rcases List.mem_cons.mp hmem with rfl | hmem
    · rw [List.append_assoc, codeByName_append hfits hneeds]
      exact hcreate
    · exact h.created pair hmem

end Predicted

/-- Every library gets an address, unless the code of one is not made of bytes. -/
theorem predictFrom_spec {deployer : String} {bytes : List UInt8}
    (hdeployer : Hex.markedBytes? deployer.toList = some bytes) (hlength : bytes.length = 20)
    {rest : List Resolved} {byKey : Entries String String}
    (hcode : ∀ library ∈ rest, ∃ code,
      segment library.artifact.bytecode library.artifact.links = .ok code)
    (hnodup : (byKey.keys ++ rest.map Resolved.key).Nodup)
    (hknown : ∀ key ∈ byKey.keys, Known byKey key)
    (hordered : ∀ before library after, rest = before ++ library :: after →
      ∀ child ∈ library.artifact.libraryIds,
        child.key ∈ byKey.keys ++ before.map Resolved.key) :
    (∃ texts, Predicted deployer byKey rest texts) ∨
    ∃ library ∈ rest, WithoutBytes library.artifact ∧
      (predictFrom (.str deployer) byKey rest).result = .error (.create2 .notHex) := by
  induction rest generalizing byKey with
  | nil => exact .inl ⟨[], .nil hknown⟩
  | cons library rest ih =>
      obtain ⟨code, hsegment⟩ := hcode library (List.mem_cons_self ..)
      have hneeds : ∀ child ∈ library.artifact.libraryIds, Known byKey child.key := by
        intro child hchild
        have hkey := hordered [] library rest rfl child hchild
        rw [List.map_nil, List.append_nil] at hkey
        exact hknown _ hkey
      have hnew : library.key ∉ byKey.keys := fun hmem =>
        (List.nodup_append.mp hnodup).2.2 _ hmem _ (List.mem_cons_self ..) rfl
      rcases predictOne_cases hdeployer hlength hsegment hneeds with
        ⟨address, haddress, hone, hcreate⟩ | ⟨hwithout, hone⟩
      · have hlater := @ih (byKey ++ [(library.key, Address.checksummed address)])
          (fun other hmem => hcode other (List.mem_cons_of_mem _ hmem))
          (by rw [keys_concat, List.append_assoc]; exact hnodup)
          (fun key hmem => known_concat hnew hknown haddress (by rwa [keys_concat] at hmem))
          (fun before other after heq child hchild => by
            have hbefore := hordered (library :: before) other after (by rw [heq]; rfl) child hchild
            rw [keys_concat, List.append_assoc]
            exact hbefore)
        rcases hlater with ⟨texts, hpredicted⟩ | ⟨other, hmem, hother, hresult⟩
        · exact .inl ⟨_, hpredicted.cons hnew (segment_ok hsegment).1 hneeds hone hcreate⟩
        · refine .inr ⟨other, List.mem_cons_of_mem _ hmem, hother, ?_⟩
          rw [predictFrom_after hnew hone, hresult]
          rfl
      · refine .inr ⟨library, List.mem_cons_self .., hwithout, ?_⟩
        rw [predictFrom_cons, hone]
        rfl

/-! ## All libraries of a resolution -/

/-- The predicted addresses by the keys of their libraries. -/
def addressesByKey (libraries : List Resolved) (addresses : Entries String String) :
    Entries String String :=
  libraries.filterMap fun library =>
    (addresses.get? library.identifier).map fun text => (library.key, text)

theorem addressesByKey_eq {addresses : Entries String String} {libraries : List Resolved}
    {texts : List String} (hlength : texts.length = libraries.length)
    (h : ∀ pair ∈ libraries.zip texts, addresses.get? pair.1.identifier = some pair.2) :
    addressesByKey libraries addresses = (libraries.map Resolved.key).zip texts := by
  induction libraries generalizing texts with
  | nil => rfl
  | cons library rest ih =>
      cases texts with
      | nil => cases hlength
      | cons text texts =>
          have hfirst := h (library, text) (List.mem_cons_self ..)
          have hrest := ih (Nat.succ.inj hlength) fun pair hmem => h pair (List.mem_cons_of_mem _ hmem)
          rw [addressesByKey] at hrest
          rw [addressesByKey, List.filterMap_cons, hfirst, Option.map_some, hrest, List.map_cons,
            List.zip_cons_cons]

/-- Identifiers that differ give each library its own address. -/
theorem get?_ofList_identifiers {libraries : List Resolved} {texts : List String}
    (hnodup : (libraries.map Resolved.identifier).Nodup) (hlength : texts.length = libraries.length)
    {pair : Resolved × String} (hmem : pair ∈ libraries.zip texts) :
    (Entries.ofList ((libraries.map Resolved.identifier).zip texts)).get? pair.1.identifier =
      some pair.2 := by
  refine Entries.get?_ofList_of_nodup ?_ ?_
  · rwa [List.map_fst_zip (by rw [List.length_map, hlength])]
  · rw [List.zip_map_left]
    exact List.mem_map.mpr ⟨pair, hmem, rfl⟩

theorem exists_mem_zip {libraries : List Resolved} {texts : List String}
    (hlength : texts.length = libraries.length) {library : Resolved} (hmem : library ∈ libraries) :
    ∃ text, (library, text) ∈ libraries.zip texts := by
  rw [← List.map_fst_zip (Nat.le_of_eq hlength.symm)] at hmem
  obtain ⟨pair, hpair, rfl⟩ := List.mem_map.mp hmem
  exact ⟨pair.2, hpair⟩

theorem predict_result (deployer : Json) (libraries : List Resolved) :
    (predict deployer libraries).result =
      (predictFrom deployer [] libraries).result >>= fun pairs => .ok (Entries.ofList pairs) := by
  rw [predict, Report.bind_result]
  rfl

/-- **Predicted addresses.** Each library of a resolution gets the address
of its code, linked with predicted addresses by the names of its
variables. That code has in each slot the address predicted for the key of
the slot exactly if parameters with one name have one address. There is no
prediction only if the code of a library is not made of bytes. -/
theorem predict_addresses {load : Loader} {steps : Nat} {disambiguate : Bool}
    {links : LinkReferences} {libraries : List Resolved} {deployer : String} {bytes : List UInt8}
    (hresolve : (resolve load steps disambiguate links).result = .ok libraries)
    (hcode : ∀ library ∈ libraries, ∃ code,
      segment library.artifact.bytecode library.artifact.links = .ok code)
    (hdeployer : Hex.markedBytes? deployer.toList = some bytes) (hlength : bytes.length = 20) :
    (∃ addresses, (predict (.str deployer) libraries).result = .ok addresses ∧
      ∀ library ∈ libraries, ∃ text, addresses.get? library.identifier = some text ∧
        Address.create2 deployer (String.ofList
          (codeByName (addressesByKey libraries addresses) library.artifact)) = .ok text ∧
        (codeByName (addressesByKey libraries addresses) library.artifact =
            codeByKey (addressesByKey libraries addresses) library.artifact ↔
          NamesAgree (addressesByKey libraries addresses) library.artifact.links)) ∨
    ∃ library ∈ libraries, WithoutBytes library.artifact ∧
      (predict (.str deployer) libraries).result = .error (.create2 .notHex) := by
  obtain ⟨-, -, -, hidentifiers⟩ := resolve_entries hresolve
  have hnodup : (Entries.keys ([] : Entries String String) ++ libraries.map Resolved.key).Nodup :=
    resolved_keys_nodup hresolve
  have hbefore : ∀ before library after, libraries = before ++ library :: after →
      ∀ child ∈ library.artifact.libraryIds,
        child.key ∈ Entries.keys ([] : Entries String String) ++ before.map Resolved.key :=
    fun before library after hsplit child hchild => resolved_before hresolve hsplit hchild
  rcases predictFrom_spec hdeployer hlength hcode hnodup (fun key hmem => by cases hmem) hbefore with
    ⟨texts, htexts, hresult, hknown, hpairs⟩ | ⟨library, hmem, hwithout, hresult⟩
  · rw [List.nil_append] at hknown hpairs
    have hget : ∀ pair ∈ libraries.zip texts,
        (Entries.ofList ((libraries.map Resolved.identifier).zip texts)).get? pair.1.identifier =
          some pair.2 := fun pair hpair => get?_ofList_identifiers hidentifiers htexts hpair
    refine .inl ⟨Entries.ofList ((libraries.map Resolved.identifier).zip texts), ?_, ?_⟩
    · rw [predict_result, hresult]
      rfl
    · rw [addressesByKey_eq htexts hget]
      intro library hmem
      obtain ⟨code, hsegment⟩ := hcode library hmem
      obtain ⟨before, after, hsplit⟩ := List.append_of_mem hmem
      obtain ⟨text, hpair⟩ : ∃ text, (library, text) ∈ libraries.zip texts := exists_mem_zip htexts hmem
      have hcreate := hpairs (library, text) hpair
      have htext := hget (library, text) hpair
      refine ⟨text, htext, hcreate, ?_⟩
      refine codeByName_eq_codeByKey (segment_ok hsegment).1 fun child hchild => ?_
      refine hknown _ ?_
      have hkey := hbefore before library after hsplit child hchild
      rw [hsplit, List.map_append]
      exact List.mem_append_right _ (List.mem_append_left _ hkey)
  · refine .inr ⟨library, hmem, hwithout, ?_⟩
    rw [predict_result, hresult]
    rfl

/-! ## Libraries with one name -/

/-- The contract that creates the libraries. -/
def creator : String := "0x1111111111111111111111111111111111111111"

def creatorBytes : List UInt8 := List.replicate 20 0x11

theorem creator_bytes : Hex.markedBytes? creator.toList = some creatorBytes := by decide +kernel

def firstMath : Resolved := ⟨⟨"b.sol", "Math"⟩, "math", .ofCode "Math" "6001".toList [], []⟩

/-- It refers twice to the first of its name. -/
def secondMath : Resolved :=
  ⟨⟨"a.sol", "Math"⟩, "math2",
    .ofCode "Math" ("60__$e1c476a25812fcf8721ff1ae5a3934974d$__" ++
      "50__$e1c476a25812fcf8721ff1ae5a3934974d$__").toList
      [("b.sol", [("Math", [⟨1, 20⟩, ⟨22, 20⟩])])],
    ["math"]⟩

/-- It refers to both libraries of one name. -/
def calculator : Resolved :=
  ⟨⟨"c.sol", "Calc"⟩, "calc",
    .ofCode "Calc" ("60__$f815678656c0cd133c532ad0322b34264e$__" ++
      "50__$e1c476a25812fcf8721ff1ae5a3934974d$__").toList
      [("a.sol", [("Math", [⟨1, 20⟩])]), ("b.sol", [("Math", [⟨22, 20⟩])])],
    ["math2", "math"]⟩

def Loader.namesakes : Loader := fun id =>
  ([calculator, secondMath, firstMath].find? (·.id == id)).elim (.error (.noDocument id))
    fun library => .ok library.artifact

theorem segment_namesakes : ∀ library ∈ [firstMath, secondMath, calculator], ∃ code,
    segment library.artifact.bytecode library.artifact.links = .ok code := by
  have hchecked : ∀ library ∈ [firstMath, secondMath, calculator],
      (segment library.artifact.bytecode library.artifact.links).toOption.isSome = true := by
    decide +kernel
  intro library hmem
  have hsome := hchecked library hmem
  cases hcode : segment library.artifact.bytecode library.artifact.links with
  | ok code => exact ⟨code, rfl⟩
  | error =>
      rw [hcode] at hsome
      cases hsome

/-- Without the last library each name is one library's, and its code has
the address of each key. -/
theorem predict_addresses_two :
    ∃ addresses,
      (resolve .namesakes 20 true [("a.sol", [("Math", [⟨1, 20⟩])])]).result =
        .ok [firstMath, secondMath] ∧
      (predict (.str creator) [firstMath, secondMath]).result = .ok addresses ∧
      ∀ library ∈ [firstMath, secondMath], ∃ text,
        addresses.get? library.identifier = some text ∧
        Address.create2 creator (String.ofList
          (codeByKey (addressesByKey [firstMath, secondMath] addresses) library.artifact)) =
            .ok text := by
  have hresolve : (resolve .namesakes 20 true [("a.sol", [("Math", [⟨1, 20⟩])])]).result =
      .ok [firstMath, secondMath] := by rfl
  have hcode : ∀ library ∈ [firstMath, secondMath], ∃ code,
      segment library.artifact.bytecode library.artifact.links = .ok code :=
    fun library hmem => segment_namesakes library (List.mem_append_left [calculator] hmem)
  have hproper : ∀ library ∈ [firstMath, secondMath],
      Artifact.bytecodeDefect? library.artifact.bytecode library.artifact.links = none := by
    decide +kernel
  have hnames : ∀ library ∈ [firstMath, secondMath],
      ((parametersOf library.artifact.links.byPosition).map Parameter.name).Nodup := by
    decide +kernel
  rcases predict_addresses hresolve hcode creator_bytes rfl with
    ⟨addresses, hpredict, htexts⟩ | ⟨library, hmem, hwithout, -⟩
  · refine ⟨addresses, hresolve, hpredict, fun library hmem => ?_⟩
    obtain ⟨text, hget, hcreate, hagree⟩ := htexts library hmem
    rw [hagree.mpr (NamesAgree.of_nodup (hnames library hmem))] at hcreate
    exact ⟨text, hget, hcreate⟩
  · obtain ⟨code, hsegment⟩ := hcode library hmem
    exact absurd hwithout (not_withoutBytes (hproper library hmem) hsegment)

/-- The code of the last two libraries with addresses in their slots. -/
def codeWith (first second : List UInt8) : List UInt8 := 0x60 :: first ++ 0x50 :: second

def firstAddress : List UInt8 :=
  [0x8b, 0xc5, 0xa0, 0x71, 0xe0, 0xe4, 0x8b, 0x17, 0x86, 0x83, 0x0b, 0x89, 0x7e, 0xde, 0xd4, 0x9b,
    0x55, 0x7d, 0xd9, 0x11]

def secondAddress : List UInt8 :=
  [0xc9, 0x37, 0x24, 0x2c, 0xc8, 0x3a, 0xe6, 0x08, 0x34, 0xbd, 0x74, 0x7b, 0x5e, 0xf9, 0x03, 0x3c,
    0x13, 0xcc, 0xa0, 0x5c]

/-- The address of some code that the contract creates. -/
def created (code : List UInt8) : List UInt8 :=
  Address.create2Bytes creatorBytes (List.replicate 32 0) code

set_option maxRecDepth 100000 in
theorem created_firstMath : created [0x60, 0x01] = firstAddress := by
  simp only [created, Address.create2Bytes, Keccak.hash_eq_hashByLists]
  decide +kernel

set_option maxRecDepth 100000 in
theorem created_secondMath : created (codeWith firstAddress firstAddress) = secondAddress := by
  simp only [created, Address.create2Bytes, Keccak.hash_eq_hashByLists]
  decide +kernel

set_option maxRecDepth 100000 in
theorem created_calculator : created (codeWith secondAddress firstAddress) ≠ secondAddress := by
  simp only [created, Address.create2Bytes, Keccak.hash_eq_hashByLists]
  decide +kernel

set_option maxRecDepth 10000 in
theorem substituted_secondMath (text : Placement → List Char) :
    secondMath.artifact.links.substituted secondMath.artifact.bytecode text =
      '6' :: '0' :: (text ⟨⟨1, 20⟩, ⟨"b.sol", "Math"⟩⟩ ++
        '5' :: '0' :: (text ⟨⟨22, 20⟩, ⟨"b.sol", "Math"⟩⟩ ++ [])) := by
  rfl

set_option maxRecDepth 10000 in
theorem substituted_calculator (text : Placement → List Char) :
    calculator.artifact.links.substituted calculator.artifact.bytecode text =
      '6' :: '0' :: (text ⟨⟨1, 20⟩, ⟨"a.sol", "Math"⟩⟩ ++
        '5' :: '0' :: (text ⟨⟨22, 20⟩, ⟨"b.sol", "Math"⟩⟩ ++ [])) := by
  rfl

/-- The addresses that the first two libraries get. -/
def mathAddresses : Entries String String :=
  [("b.sol:Math", Address.checksummed firstAddress), ("a.sol:Math", Address.checksummed secondAddress)]

theorem linked_mathAddresses :
    linkedAddress mathAddresses "b.sol:Math" = Hex.ofBytes firstAddress ∧
      linkedAddress mathAddresses "a.sol:Math" = Hex.ofBytes secondAddress :=
  ⟨linkedAddress_of_get rfl rfl, linkedAddress_of_get rfl rfl⟩

theorem codeByName_secondMath :
    codeByName [("b.sol:Math", Address.checksummed firstAddress)] secondMath.artifact =
      Hex.ofBytes (codeWith firstAddress firstAddress) := by
  rw [codeByName, substituted_secondMath]
  show '6' :: '0' :: (linkedAddress mathAddresses "b.sol:Math" ++
    '5' :: '0' :: (linkedAddress mathAddresses "b.sol:Math" ++ [])) = _
  rw [linked_mathAddresses.1]
  rfl

/-- By names both slots get the address of the last library named. -/
theorem codeByName_calculator :
    codeByName mathAddresses calculator.artifact =
      Hex.ofBytes (codeWith firstAddress firstAddress) := by
  rw [codeByName, substituted_calculator]
  show '6' :: '0' :: (linkedAddress mathAddresses "b.sol:Math" ++
    '5' :: '0' :: (linkedAddress mathAddresses "b.sol:Math" ++ [])) = _
  rw [linked_mathAddresses.1]
  rfl

theorem codeByKey_calculator (rest : Entries String String) :
    codeByKey (mathAddresses ++ rest) calculator.artifact =
      Hex.ofBytes (codeWith secondAddress firstAddress) := by
  rw [codeByKey, substituted_calculator]
  show '6' :: '0' :: (linkedAddress mathAddresses "a.sol:Math" ++
    '5' :: '0' :: (linkedAddress mathAddresses "b.sol:Math" ++ [])) = _
  rw [linked_mathAddresses.1, linked_mathAddresses.2]
  rfl

theorem predict_namesakes :
    (predict (.str creator) [firstMath, secondMath, calculator]).result =
      .ok [("math", Address.checksummed firstAddress), ("math2", Address.checksummed secondAddress),
        ("calc", Address.checksummed secondAddress)] := by
  have hfirst : ∀ rest, (predictFrom (.str creator) [] (firstMath :: rest)).result =
      (predictFrom (.str creator) [("b.sol:Math", Address.checksummed firstAddress)] rest).result
        >>= fun others => .ok (("math", Address.checksummed firstAddress) :: others) := by
    intro rest
    refine predictFrom_turn creator_bytes rfl (segment_namesakes _ (by simp)) ?_ ?_
      (congrArg Address.checksummed created_firstMath)
    · intro child hmem
      cases hmem
    · rfl
  have hsecond : ∀ rest, (predictFrom (.str creator)
      [("b.sol:Math", Address.checksummed firstAddress)] (secondMath :: rest)).result =
      (predictFrom (.str creator) mathAddresses rest).result >>= fun others =>
        .ok (("math2", Address.checksummed secondAddress) :: others) := by
    intro rest
    refine predictFrom_turn creator_bytes rfl (segment_namesakes _ (by simp)) ?_ ?_
      (congrArg Address.checksummed created_secondMath)
    · intro child hmem
      rw [List.mem_singleton.mp hmem]
      exact ⟨firstAddress, rfl, rfl⟩
    · exact codeByName_secondMath
  have hthird : (predictFrom (.str creator) mathAddresses [calculator]).result =
      .ok [("calc", Address.checksummed secondAddress)] := by
    refine predictFrom_turn creator_bytes rfl (segment_namesakes _ (by simp)) ?_
      codeByName_calculator (congrArg Address.checksummed created_secondMath)
    intro child hmem
    rcases List.mem_cons.mp hmem with rfl | hmem
    · exact ⟨secondAddress, rfl, rfl⟩
    · rw [List.mem_singleton.mp hmem]
      exact ⟨firstAddress, rfl, rfl⟩
  rw [predict_result, hfirst, hsecond, hthird]
  rfl

/-- Two libraries of one name are given different addresses, and the
library that refers to both is given the address of the second: not that
of its code with the address of its own key in each slot. -/
theorem predict_not_by_key :
    ∃ addresses text,
      (resolve .namesakes 20 true [("c.sol", [("Calc", [⟨1, 20⟩])])]).result =
        .ok [firstMath, secondMath, calculator] ∧
      (∀ library ∈ [firstMath, secondMath, calculator], ∃ code,
        segment library.artifact.bytecode library.artifact.links = .ok code) ∧
      (predict (.str creator) [firstMath, secondMath, calculator]).result = .ok addresses ∧
      addresses.get? calculator.identifier = some text ∧
      Address.create2 creator (String.ofList (codeByKey
        (addressesByKey [firstMath, secondMath, calculator] addresses) calculator.artifact)) ≠
          .ok text := by
  refine ⟨_, Address.checksummed secondAddress, by rfl, segment_namesakes, predict_namesakes, by rfl, ?_⟩
  show Address.create2 creator (String.ofList (codeByKey
    (mathAddresses ++ [("c.sol:Calc", Address.checksummed secondAddress)]) calculator.artifact)) ≠ _
  rw [codeByKey_calculator, Address.create2_eq creator_bytes rfl, String.toList_ofList,
    Hex.markedBytes?_ofBytes]
  intro hequal
  exact created_calculator (Address.checksummed_inj (Address.length_create2Bytes ..) rfl
    (Except.ok.inj hequal))

end SolDeployer
