import SolDeployer.Deployer
import SolDeployer.Proofs.Solidity.ExpressionReader

/-!
# Reading the function that builds a bytecode

A reader for the source code of a deployer. It looks at the last lines
only: the function `initcode` is the last member of the library, so what
stands in comments, paths and other functions before it cannot be taken
for it. It gives the parameters of the function and the pieces of the
expression that the function returns.
-/

namespace SolDeployer.Solidity

open Abi.TypeText (after?)

/-- A function that builds a bytecode, as it stands in a source. -/
structure InitcodeSource where
  params : List String
  pieces : List Segment
  deriving Repr, DecidableEq

/-- The name of a parameter that is an address. -/
def readAddress? (text : List Char) : Option String :=
  (after? "address ".toList text).bind fun name =>
    if !name.isEmpty && name.all isNameChar then some (String.ofList name) else none

/-- The parameters in the first line of the function. -/
def readSignature? (line : List Char) : Option (List String) :=
  (after? "    function initcode(".toList line).bind fun rest =>
    (before? ") internal pure returns (bytes memory) \x7b".toList rest).bind
      (readList? readAddress?)

/-- The pieces that the function returns. -/
def readReturn? (line : List Char) : Option (List Segment) :=
  (after? "        return ".toList line).bind fun rest =>
    (before? [';'] rest).bind readExpression?

/-- The function at the end of a source. -/
def readInitcode? (source : List Char) : Option InitcodeSource :=
  match (source.splitOn '\n').reverse with
  | [] :: libraryEnd :: functionEnd :: body :: signature :: _ =>
    if libraryEnd = "\x7d".toList ∧ functionEnd = "    \x7d".toList then
      (readSignature? signature).bind fun params =>
        (readReturn? body).map fun pieces => ⟨params, pieces⟩
    else none
  | _ => none

/-! ## Lines of a file -/

theorem toList_indentLine {level : Nat} {line : String} {c : Char} {rest : List Char}
    (h : line.toList = c :: rest) :
    (indentLine level line).toList = List.replicate (4 * level) ' ' ++ c :: rest := by
  have hne : (line == "") = false := by
    rw [beq_eq_false_iff_ne]
    rintro rfl
    cases h
  rw [indentLine, hne, if_neg Bool.false_ne_true, String.toList_append, String.toList_ofList, h]

theorem indent_zero (lines : List String) : indent 0 lines = lines := by
  have hline : indentLine 0 = id := funext fun line => by
    unfold indentLine
    split
    · rfl
    · simp
  rw [indent, hline, List.map_id]

namespace Fragment

theorem memberLines_concat (members : List Fragment) (last : Fragment) :
    ∃ before, memberLines (members ++ [last]) = before ++ indent 1 last.lines := by
  induction members with
  | nil => exact ⟨[], by simp [memberLines]⟩
  | cons member rest ih =>
      obtain ⟨before, hbefore⟩ := ih
      rw [List.cons_append, memberLines, hbefore, ← List.append_assoc]
      exact ⟨_, rfl⟩

/-- What stands before the members of a library does not depend on them. -/
theorem lines_library (name : String) (head : Fragment) :
    ∃ before, before ≠ [] ∧ ∀ members,
      (library name head members).lines = before ++ (memberLines members ++ ["\x7d"]) := by
  refine ⟨head.lines ++ ["", "library " ++ name ++ " \x7b"], by simp, fun members => ?_⟩
  simp [lines, block]

end Fragment

/-- The last lines of a text are read from its end. -/
theorem splitOn_lines {before lines : List String} (hbefore : before ≠ []) (hlines : lines ≠ [])
    (hline : ∀ line ∈ lines, '\n' ∉ line.toList) :
    ∃ others, (("\n".intercalate (before ++ lines) ++ "\n").toList.splitOn '\n').reverse =
      [] :: ((lines.map String.toList).reverse ++ others) := by
  have hend : ("\n".intercalate (before ++ lines) ++ "\n").toList =
      ("\n".intercalate before).toList ++
        '\n' :: (['\n'].intercalate (lines.map String.toList) ++ '\n' :: []) := by
    rw [String.intercalate_append_of_ne_nil hbefore hlines, String.toList_append,
      String.toList_append, String.toList_append, String.toList_intercalate (l := lines)]
    simp
  have hsplit : (['\n'].intercalate (lines.map String.toList)).splitOn '\n' =
      lines.map String.toList := by
    refine List.splitOn_intercalate _ (fun line hmem => ?_) (by simpa using hlines)
    obtain ⟨text, htext, rfl⟩ := List.mem_map.mp hmem
    exact hline text htext
  rw [hend, List.splitOn_append_cons_self, List.splitOn_append_cons_self, hsplit, List.splitOn_nil,
    List.reverse_append, List.reverse_append, List.reverse_singleton]
  exact ⟨_, rfl⟩

/-! ## The function of a deployer -/

theorem readAddress?_addressText {name : String} (h : IsName name) :
    readAddress? (Deployer.addressText name).toList = some name := by
  obtain ⟨hne, hname⟩ := h
  have hempty : name.toList.isEmpty = false := by
    rw [List.isEmpty_eq_false_iff]
    exact fun hnil => hne (String.toList_eq_nil_iff.mp hnil)
  simp only [readAddress?, Deployer.addressText, String.toList_append, after?_append,
    Option.bind_some, hempty, List.all_eq_true.mpr hname, Bool.not_false, Bool.and_self, if_true,
    String.ofList_toList]

theorem notMem_addressText {name : String} (h : IsName name) {c : Char}
    (hname : isNameChar c = false) (hblank : c ≠ ' ') :
    c ∉ (Deployer.addressText name).toList := by
  rw [Deployer.addressText, String.toList_append, List.mem_append]
  rintro (hmem | hmem)
  · have hword : ∀ d ∈ "address ".toList, isNameChar d = true ∨ d = ' ' := by
      intro d hd
      have hall : ("address ".toList.all fun d => isNameChar d || d == ' ') = true := by decide
      have hd' := List.all_eq_true.mp hall d hd
      rwa [Bool.or_eq_true, beq_iff_eq] at hd'
    rcases hword c hmem with hc | hc
    · exact isNameChar_ne hc hname rfl
    · exact hblank hc
  · exact isNameChar_ne (h.2 c hmem) hname rfl

variable {code : Segmentation}

/-- The parameters of the function as they are written. -/
def paramsText (code : Segmentation) : List Char :=
  [',', ' '].intercalate (code.parameters.map fun parameter =>
    (Deployer.addressText parameter.name).toList)

theorem readList?_paramsText (h : ∀ parameter ∈ code.parameters, IsName parameter.name) :
    readList? readAddress? (paramsText code) = some (code.parameters.map Parameter.name) := by
  have hmap : paramsText code = [',', ' '].intercalate
      ((code.parameters.map Parameter.name).map fun name => (Deployer.addressText name).toList) := by
    rw [paramsText, List.map_map]
    rfl
  rw [hmap]
  refine readList?_intercalate fun name hmem => ?_
  obtain ⟨parameter, hparameter, rfl⟩ := List.mem_map.mp hmem
  have hname := h parameter hparameter
  refine ⟨readAddress?_addressText hname, notMem_addressText hname (by decide) (by decide), ?_⟩
  simp [Deployer.addressText]

theorem notMem_paramsText (h : ∀ parameter ∈ code.parameters, IsName parameter.name) :
    '\n' ∉ paramsText code := by
  refine notMem_intercalate (by decide) fun part hmem => ?_
  obtain ⟨parameter, hparameter, rfl⟩ := List.mem_map.mp hmem
  exact notMem_addressText (h parameter hparameter) (by decide) (by decide)

theorem toList_signature (code : Segmentation) :
    (indentLine 1 ((Deployer.initcodeFunction "initcode" "internal" code).signature ++
        " \x7b")).toList =
      "    function initcode(".toList ++ (paramsText code ++
        ") internal pure returns (bytes memory) \x7b".toList) := by
  have hparams : (", ".intercalate (code.parameters.map fun parameter =>
      Deployer.addressText parameter.name)).toList = paramsText code := by
    rw [String.toList_intercalate, paramsText, List.map_map]
    rfl
  have hline : ((Deployer.initcodeFunction "initcode" "internal" code).signature ++ " \x7b").toList =
      "function initcode(".toList ++ (paramsText code ++
        ") internal pure returns (bytes memory) \x7b".toList) := by
    have hpure : ("pure" == "") = false := by decide
    have hreturns : ("bytes memory" == "") = false := by decide
    simp only [Function.signature, Deployer.initcodeFunction, String.toList_append, hparams,
      hpure, hreturns, if_false, Bool.false_eq_true, List.append_assoc]
    rfl
  exact toList_indentLine hline

theorem toList_return (code : Segmentation) :
    (indentLine 1 (indentLine 1 ("return " ++ initcodeExpression code.segments ++ ";"))).toList =
      "        return ".toList ++ ((initcodeExpression code.segments).toList ++ [';']) := by
  have hline : ("return " ++ initcodeExpression code.segments ++ ";").toList =
      "return ".toList ++ ((initcodeExpression code.segments).toList ++ [';']) := by
    rw [String.toList_append, String.toList_append, List.append_assoc]
    rfl
  exact toList_indentLine (toList_indentLine hline)

/-- The lines of a deployer end with the function and the end of the library. -/
theorem lines_fragment (d : Deployer) :
    ∃ before, before ≠ [] ∧ d.fragment.lines = before ++
      [indentLine 1 ((Deployer.initcodeFunction "initcode" "internal" d.code).signature ++ " \x7b"),
        indentLine 1 (indentLine 1 ("return " ++ initcodeExpression d.code.segments ++ ";")),
        "    \x7d", "\x7d"] := by
  obtain ⟨before, hbefore⟩ := Fragment.memberLines_concat
    (d.commentFragments ++ d.structs.map Deployer.structFragment ++
      [.function (d.deployFunction false), .function (d.deployFunction true)] ++
      d.libraries.map (.function ∘ Deployer.libraryFunction))
    (.function (Deployer.initcodeFunction "initcode" "internal" d.code))
  obtain ⟨opening, hne, hopening⟩ := Fragment.lines_library (deployerOf d.contract)
    (.header d.pragma [("DeployHelper", d.helperPath)] "MIT")
  have hmembers : Fragment.memberLines d.members = before ++
      indent 1 (Fragment.function (Deployer.initcodeFunction "initcode" "internal" d.code)).lines :=
    hbefore
  refine ⟨opening ++ before, by simp [hne], ?_⟩
  rw [Deployer.fragment, hopening, hmembers, List.append_assoc, List.append_assoc]
  rfl

/-- **Read back.** The function at the end of the source of a deployer has
the parameters of the bytecode and returns its pieces. -/
theorem readInitcode?_source {d : Deployer}
    (hparams : ∀ parameter ∈ d.code.parameters, IsName parameter.name)
    (hpieces : ∀ piece ∈ d.code.segments, Legible piece) :
    readInitcode? d.source.toList =
      some ⟨d.code.parameters.map Parameter.name, d.code.segments⟩ := by
  obtain ⟨before, hbefore, hlines⟩ := lines_fragment d
  have hsignature := toList_signature d.code
  have hreturn := toList_return d.code
  have hbreak : ∀ line ∈ [indentLine 1
      ((Deployer.initcodeFunction "initcode" "internal" d.code).signature ++ " \x7b"),
      indentLine 1 (indentLine 1 ("return " ++ initcodeExpression d.code.segments ++ ";")),
      "    \x7d", "\x7d"], '\n' ∉ line.toList := by
    intro line hmem
    simp only [List.mem_cons, List.not_mem_nil, or_false] at hmem
    rcases hmem with rfl | rfl | rfl | rfl
    · rw [hsignature]
      simp [notMem_paramsText hparams]
    · rw [hreturn]
      simp [notMem_initcodeExpression hpieces]
    · decide
    · decide
  obtain ⟨others, hsplit⟩ := splitOn_lines hbefore (by simp) hbreak
  have hsource : (d.source.toList.splitOn '\n').reverse =
      [] :: "\x7d".toList :: "    \x7d".toList ::
        ("        return ".toList ++ ((initcodeExpression d.code.segments).toList ++ [';'])) ::
        ("    function initcode(".toList ++ (paramsText d.code ++
          ") internal pure returns (bytes memory) \x7b".toList)) :: others := by
    have hrender : d.source = "\n".intercalate (indent 0 d.fragment.lines) ++ "\n" := rfl
    rw [← hsignature, ← hreturn, hrender, indent_zero, hlines]
    exact hsplit
  have hread : readSignature? ("    function initcode(".toList ++ (paramsText d.code ++
      ") internal pure returns (bytes memory) \x7b".toList)) =
        some (d.code.parameters.map Parameter.name) := by
    rw [readSignature?, after?_append, Option.bind_some, before?_append, Option.bind_some,
      readList?_paramsText hparams]
  have hreadReturn : readReturn? ("        return ".toList ++
      ((initcodeExpression d.code.segments).toList ++ [';'])) = some d.code.segments := by
    rw [readReturn?, after?_append, Option.bind_some, before?_append, Option.bind_some,
      readExpression?_initcodeExpression hpieces]
  rw [readInitcode?, hsource]
  simp only [hread, hreadReturn, and_self, if_true, Option.bind_some, Option.map_some]

end SolDeployer.Solidity
