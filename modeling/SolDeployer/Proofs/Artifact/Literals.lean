import SolDeployer.Proofs.Address
import SolDeployer.Proofs.Deployer.Initcode
import SolDeployer.Proofs.Segmentation.Movement

/-!
# Literals and linked bytecodes of artifacts

What an artifact that was read turns into. Between its slots stand pairs of
small digits: the language takes them for a literal, and with addresses in
the slots they are the digits of some bytes, so that there is an address
for the code. The digits were looked at before anything was cut, with the
slots clipped to the bytecode; the slots are accepted after that.
-/

namespace SolDeployer

/-! ## Literals of the language -/

/-- Pairs of digits of either case, where an underscore may stand between
two pairs. -/
inductive HexPairs : List Char → Prop
  | pair {a b : Char} (ha : (Hex.digit? a).isSome = true) (hb : (Hex.digit? b).isSome = true) :
      HexPairs [a, b]
  | joined {a b : Char} {rest : List Char} (ha : (Hex.digit? a).isSome = true)
      (hb : (Hex.digit? b).isSome = true) (hrest : HexPairs rest) : HexPairs (a :: b :: rest)
  | apart {a b : Char} {rest : List Char} (ha : (Hex.digit? a).isSome = true)
      (hb : (Hex.digit? b).isSome = true) (hrest : HexPairs rest) :
      HexPairs (a :: b :: '_' :: rest)

/-- A literal of bytes between double quotes. It may be empty. -/
inductive IsHexLiteral : List Char → Prop
  | empty : IsHexLiteral "hex\"\"".toList
  | pairs {digits : List Char} (hdigits : HexPairs digits) :
      IsHexLiteral ("hex\"".toList ++ digits ++ ['"'])

theorem AreBytes.hexPairs : ∀ {digits : List Char}, AreBytes digits → digits ≠ [] → HexPairs digits
  | [], _, hne => absurd rfl hne
  | [_], h, _ => absurd h.1 (by simp)
  | a :: b :: rest, ⟨heven, hlower⟩, _ => by
      obtain ⟨high, -, ha, -⟩ := Hex.digit?_lower (hlower a (by simp))
      obtain ⟨low, -, hb, -⟩ := Hex.digit?_lower (hlower b (by simp))
      by_cases hrest : rest = []
      · rw [hrest]
        exact .pair (by rw [ha]; rfl) (by rw [hb]; rfl)
      · refine .joined (by rw [ha]; rfl) (by rw [hb]; rfl) (hexPairs ⟨?_, ?_⟩ hrest)
        · simp only [List.length_cons] at heven
          omega
        · intro c hmem
          exact hlower c (List.mem_cons_of_mem _ (List.mem_cons_of_mem _ hmem))

/-- Small digits of whole bytes are written as a literal. -/
theorem AreBytes.isHexLiteral {digits : List Char} (h : AreBytes digits) :
    IsHexLiteral (hexLiteral digits).toList := by
  by_cases hempty : digits = []
  · rw [hempty]
    exact .empty
  · have htext : (hexLiteral digits).toList = "hex\"".toList ++ digits ++ ['"'] := by
      simp [hexLiteral]
    rw [htext]
    exact .pairs (h.hexPairs hempty)

/-! ## Bytes of a linked bytecode -/

/-- Code of whole bytes has an address for every creating contract and salt. -/
theorem Address.create2_areBytes {digits : List Char} (h : AreBytes digits)
    {deployer salt : String} {deployerBytes saltBytes : List UInt8}
    (hdeployer : Hex.markedBytes? deployer.toList = some deployerBytes)
    (hsalt : Hex.markedBytes? salt.toList = some saltBytes) (htwenty : deployerBytes.length = 20)
    (hthirtytwo : saltBytes.length = 32) :
    ∃ bytes, Hex.ofBytes bytes = digits ∧ create2 deployer (String.ofList digits) salt =
      .ok (checksummed (create2Bytes deployerBytes saltBytes bytes)) := by
  obtain ⟨bytes, hbytes, hwritten⟩ := Hex.bytes?_lower h.1 h.2
  refine ⟨bytes, hwritten, ?_⟩
  simp only [create2, hdeployer, hsalt, htwenty, hthirtytwo, String.toList_ofList,
    Hex.markedBytes?_of_bytes? hbytes, ne_eq, not_true_eq_false, if_false]

section

variable {bytecode : List Char} {links : LinkReferences} {code : Segmentation}
  {addresses : Entries String String}

theorem link_areBytes (hproper : Artifact.bytecodeDefect? bytecode links = none)
    (h : segment bytecode links = .ok code)
    (haddresses : ∀ parameter ∈ code.parameters, HasHexAddress addresses parameter.name) :
    ∃ linked, link addresses code.segments = .ok linked ∧ AreBytes linked := by
  refine ⟨_, link_eq_substituted h fun parameter hmem => (haddresses parameter hmem).hasAddress, ?_⟩
  refine areBytes_substituted hproper h ?_
  intro placement hmem
  obtain ⟨hforty, hlower⟩ := (linkedAddress_variableIn h haddresses hmem).linkedAddress
  exact ⟨by rw [hforty], hlower⟩

end

/-! ## Artifacts -/

def WasRead (artifact : Artifact) : Prop :=
  ∃ document contract host, Artifact.read document contract host = .ok artifact

/-- **Literals.** Every piece of digits of an artifact that was read and
cut is a literal of whole bytes; with addresses for its parameters it is
linked to whole bytes, which have an address. So every literal of a
deployer is one, if the libraries that are deployed along were read too. -/
theorem read_literals {artifact : Artifact} {code : Segmentation} (hread : WasRead artifact)
    (hcode : segment artifact.bytecode artifact.links = .ok code) :
    (∀ digits, Segment.hex digits ∈ code.segments →
      AreBytes digits ∧ IsHexLiteral (hexLiteral digits).toList) ∧
    (∀ addresses, (∀ parameter ∈ code.parameters, HasHexAddress addresses parameter.name) →
      ∃ linked, link addresses code.segments = .ok linked ∧ AreBytes linked ∧
        ∀ {deployer salt : String} {deployerBytes saltBytes : List UInt8},
          Hex.markedBytes? deployer.toList = some deployerBytes → deployerBytes.length = 20 →
          Hex.markedBytes? salt.toList = some saltBytes → saltBytes.length = 32 →
          ∃ bytes, Hex.ofBytes bytes = linked ∧
            Address.create2 deployer (String.ofList linked) salt =
              .ok (Address.checksummed (Address.create2Bytes deployerBytes saltBytes bytes))) ∧
    ∀ {options : Deployer.Options} {source : String},
      (∀ library ∈ options.libraries, WasRead library.artifact) →
      (Deployer.generate artifact options).result = .ok source →
      ∃ d, (Deployer.plan artifact options).result = .ok d ∧ source = d.source ∧
        ∀ emitted ∈ d.codes, ∀ digits, Segment.hex digits ∈ emitted.segments →
          IsHexLiteral (hexLiteral digits).toList := by
  have hdigits : ∀ {read : Artifact} {cut : Segmentation}, WasRead read →
      segment read.bytecode read.links = .ok cut →
      ∀ digits, Segment.hex digits ∈ cut.segments → AreBytes digits := by
    rintro read cut ⟨document, contract, host, hdocument⟩ hcut digits hmem
    exact segment_digits (Artifact.read_ok hdocument) hcut hmem
  refine ⟨?_, ?_, ?_⟩
  · intro digits hmem
    have hbytes := hdigits hread hcode digits hmem
    exact ⟨hbytes, hbytes.isHexLiteral⟩
  · intro addresses haddresses
    obtain ⟨document, contract, host, hdocument⟩ := hread
    obtain ⟨linked, hlinked, hbytes⟩ :=
      link_areBytes (Artifact.read_ok hdocument) hcode haddresses
    refine ⟨linked, hlinked, hbytes, ?_⟩
    intro deployer salt deployerBytes saltBytes hdeployer htwenty hsalt hthirtytwo
    exact Address.create2_areBytes hbytes hdeployer hsalt htwenty hthirtytwo
  · intro options source hlibraries hsource
    obtain ⟨d, hplan, rfl⟩ := Deployer.generate_ok hsource
    refine ⟨d, hplan, rfl, ?_⟩
    intro emitted hemitted digits hmem
    rcases Deployer.plan_codes hplan hemitted with hcut | ⟨library, hlibrary, hcut⟩
    · exact (hdigits hread hcut digits hmem).isHexLiteral
    · exact (hdigits (hlibraries library hlibrary) hcut digits hmem).isHexLiteral

theorem read_literals_sample :
    ∃ artifact code linked address, Artifact.read .sample "C" = .ok artifact ∧
      segment artifact.bytecode artifact.links = .ok code ∧
      Segment.hex "a1".toList ∈ code.segments ∧ IsHexLiteral "hex\"a1\"".toList ∧
      link [("m", "0x" ++ String.ofList (List.replicate 40 'B'))] code.segments = .ok linked ∧
      Address.create2 (String.ofList (List.replicate 40 '1')) (String.ofList linked) = .ok address := by
  have hcut : (Artifact.read .sample "C").toOption.map (fun artifact =>
      segment artifact.bytecode artifact.links) =
      some (.ok ⟨[.hex "60".toList, .address "m", .hex "a1".toList], [⟨"m", ⟨"src/M.sol", "M"⟩⟩]⟩) := by
    decide +kernel
  cases hread : Artifact.read .sample "C" with
  | error failure =>
      rw [hread] at hcut
      cases hcut
  | ok artifact =>
      rw [hread] at hcut
      have hcode := Option.some.inj hcut
      obtain ⟨hliterals, hlinks, -⟩ := read_literals ⟨_, _, _, hread⟩ hcode
      obtain ⟨linked, hlinked, -, hcreated⟩ := hlinks
        [("m", "0x" ++ String.ofList (List.replicate 40 'B'))] (by
          intro parameter hmem
          obtain rfl := List.mem_singleton.mp hmem
          exact ⟨_, rfl, by decide +kernel, List.all_eq_true.mp (by decide +kernel)⟩)
      have hdeployer : Hex.markedBytes? (String.ofList (List.replicate 40 '1')).toList =
          some (List.replicate 20 0x11) := by decide +kernel
      obtain ⟨bytes, -, haddress⟩ := hcreated hdeployer rfl Address.markedBytes?_zeroSalt rfl
      have hmem : Segment.hex "a1".toList ∈
          [Segment.hex "60".toList, .address "m", .hex "a1".toList] := by simp
      exact ⟨artifact, _, linked, _, rfl, hcode, hmem, (hliterals _ hmem).2, hlinked, haddress⟩

end SolDeployer
