import SolDeployer.Artifact.Reader
import SolDeployer.Proofs.Deployer.Planning
import SolDeployer.Proofs.Solidity.Comments

/-!
# The comment of a deployer

A deployer may begin with a comment on how its contract was compiled.
Nothing else depends on whether it does: planning is told of it in its last
step only (`plan_metadata`), and the comment takes lines of its own in the
source.

What is known of a compilation is written down as it was found, though. The
comment ends where it should exactly if no value that is shown has the mark
that ends a comment in it (`Harmless`); if one has, what stands behind the
mark is code.
-/

namespace SolDeployer.Deployer

open Solidity (Fragment endMark afterEnd? afterComment? endMark_infix_append endMark_infix_cons
  endMark_infix_lines afterEnd?_eq_after endMark_only_last indent indentLine indent_zero
  toList_indentLine)

/-! ## What the comment shows -/

/-- The comment of a deployer, from the mark that opens it. It stands in the
library, one level to the right. -/
def commentText (artifact : Artifact) : String :=
  String.ofList (((Fragment.comment "autogenerated by forge-pack" (commentOf artifact)).render
    1).toList.drop 4)

/-- Nothing that is shown of a contract and its compiler has the mark in it. -/
structure Harmless (artifact : Artifact) : Prop where
  source : artifact.source.isBlank = false → ¬endMark <:+: artifact.source.text.toList
  version : artifact.compiler.version.isBlank = false →
    ¬endMark <:+: artifact.compiler.version.text.toList
  optimizerRuns : artifact.compiler.optimizerRuns.isNull = false →
    ¬endMark <:+: artifact.compiler.optimizerRuns.text.toList
  viaIR : artifact.compiler.viaIR.isNull = false →
    ¬endMark <:+: Text.lower artifact.compiler.viaIR.text.toList
  evmVersion : artifact.compiler.evmVersion.isBlank = false →
    ¬endMark <:+: artifact.compiler.evmVersion.text.toList
  bytecodeHash : artifact.compiler.bytecodeHash.isBlank = false →
    ¬endMark <:+: artifact.compiler.bytecodeHash.text.toList

variable {artifact : Artifact}

/-- The words before a value have no mark and end in a blank, so they add none. -/
theorem endMark_infix_label (label : String)
    (h : label.toList.getLast? = some ' ' ∧ ¬endMark <:+: label.toList) (value : String) :
    endMark <:+: (label ++ value).toList ↔ endMark <:+: value.toList := by
  obtain ⟨hblank, hlabel⟩ := h
  obtain ⟨words, hwords⟩ := List.getLast?_eq_some_iff.mp hblank
  rw [hwords, endMark_infix_append (by decide) (by decide), not_or] at hlabel
  rw [String.toList_append, hwords, List.append_assoc, List.singleton_append,
    endMark_infix_append (by decide) (by decide), or_iff_right hlabel.1]

theorem forall_mem_unless {P : String → Prop} {blank : Bool} {line : String} :
    (∀ one ∈ if blank then [] else [line], P one) ↔ (blank = false → P line) := by
  cases blank <;> simp

theorem harmless_iff :
    Harmless artifact ↔ ∀ line ∈ commentOf artifact, ¬endMark <:+: line.toList := by
  simp only [commentOf, List.forall_mem_append, forall_mem_unless,
    endMark_infix_label "@notice Source Contract: " (by decide),
    endMark_infix_label "- solc: " (by decide),
    endMark_infix_label "- optimizer_runs: " (by decide),
    endMark_infix_label "- viaIR: " (by decide),
    endMark_infix_label "- evm_version: " (by decide),
    endMark_infix_label "- bytecodeHash: " (by decide), String.toList_ofList]
  constructor
  · rintro ⟨hsource, hversion, hruns, hviaIR, hevmVersion, hhash⟩
    exact ⟨⟨⟨⟨⟨hsource, hversion⟩, hruns⟩, hviaIR⟩, hevmVersion⟩, hhash⟩
  · rintro ⟨⟨⟨⟨⟨hsource, hversion⟩, hruns⟩, hviaIR⟩, hevmVersion⟩, hhash⟩
    exact ⟨hsource, hversion, hruns, hviaIR, hevmVersion, hhash⟩

/-! ## The lines of the comment -/

/-- The lines of the comment between the marks, the star of either with them. -/
def innerLines (artifact : Artifact) : List (List Char) :=
  ["*", "     * @dev autogenerated by forge-pack", "     *"].map String.toList ++
    (commentOf artifact).map (fun line => "     * ".toList ++ line.toList) ++
    ["     *".toList]

theorem intercalate_append_cons {α : Type} (separator start first : List α)
    (rest : List (List α)) :
    separator.intercalate ((start ++ first) :: rest) =
      start ++ separator.intercalate (first :: rest) := by
  cases rest with
  | nil => simp
  | cons next rest => simp only [List.intercalate_cons_cons, List.append_assoc]

theorem intercalate_concat_append {α : Type} (separator last stop : List α)
    (before : List (List α)) :
    separator.intercalate (before ++ [last ++ stop]) =
      separator.intercalate (before ++ [last]) ++ stop := by
  induction before with
  | nil => simp
  | cons line rest ih =>
      cases rest with
      | nil => simp
      | cons next rest =>
          simp only [List.cons_append, List.intercalate_cons_cons, List.append_assoc] at ih ⊢
          rw [ih]

theorem render_comment (artifact : Artifact) :
    ((Fragment.comment "autogenerated by forge-pack" (commentOf artifact)).render 1).toList =
      "    ".toList ++ ("/*".toList ++ ['\n'].intercalate (innerLines artifact) ++ ['/']) := by
  have hentries : (commentOf artifact).map (String.toList ∘ indentLine 1 ∘ (" * " ++ ·)) =
      (commentOf artifact).map fun line => "     * ".toList ++ line.toList :=
    List.map_congr_left fun line _ => by
      have hline : (" * " ++ line).toList = ' ' :: ("* ".toList ++ line.toList) := by
        rw [String.toList_append]
        rfl
      exact toList_indentLine hline
  have hlines : (indent 1 (Fragment.comment "autogenerated by forge-pack"
      (commentOf artifact)).lines).map String.toList =
      ("    /*".toList ++ "*".toList) ::
        (["     * @dev autogenerated by forge-pack", "     *"].map String.toList ++
          (commentOf artifact).map fun line => "     * ".toList ++ line.toList) ++
        ["     *".toList ++ ['/']] := by
    simp only [Fragment.lines, indent, List.map_append, List.map_map, hentries]
    rfl
  show ("\n".intercalate _).toList = _
  rw [String.toList_intercalate, hlines, intercalate_concat_append, List.cons_append,
    intercalate_append_cons]
  rfl

/-- The comment, from its first mark to its last. -/
theorem toList_commentText (artifact : Artifact) :
    (commentText artifact).toList =
      "/*".toList ++ ['\n'].intercalate (innerLines artifact) ++ ['/'] := by
  rw [commentText, String.toList_ofList, render_comment]
  rfl

theorem endMark_infix_innerLines :
    endMark <:+: ['\n'].intercalate (innerLines artifact) ↔
      ∃ line ∈ commentOf artifact, endMark <:+: line.toList := by
  have hclean : ∀ line ∈ ["*", "     * @dev autogenerated by forge-pack", "     *"],
      ¬endMark <:+: line.toList := by
    decide
  have hentry : ∀ line : String,
      endMark <:+: "     * ".toList ++ line.toList ↔ endMark <:+: line.toList := fun line => by
    rw [← String.toList_append]
    exact endMark_infix_label "     * " (by decide) line
  rw [endMark_infix_lines]
  constructor
  · rintro ⟨line, hmem, hmark⟩
    simp only [innerLines, List.mem_append, List.mem_map, List.mem_singleton] at hmem
    rcases hmem with (⟨fixed, hfixed, rfl⟩ | ⟨entry, hentryMem, rfl⟩) | rfl
    · exact absurd hmark (hclean fixed hfixed)
    · exact ⟨entry, hentryMem, (hentry entry).mp hmark⟩
    · exact absurd hmark (hclean "     *" (by decide))
  · rintro ⟨entry, hmem, hmark⟩
    refine ⟨_, ?_, (hentry entry).mpr hmark⟩
    exact List.mem_append_left _ (List.mem_append_right _ (List.mem_map_of_mem hmem))

/-! ## Where the comment ends -/

/-- The comment between its first mark and its last character begins and
ends with a star. -/
theorem innerLines_stars (artifact : Artifact) :
    (∃ rest, ['\n'].intercalate (innerLines artifact) = '*' :: rest) ∧
      ∃ body, ['\n'].intercalate (innerLines artifact) = body ++ ['*'] := by
  constructor
  · exact ⟨_, intercalate_append_cons ['\n'] ['*'] [] _⟩
  · exact ⟨_, intercalate_concat_append ['\n'] "     ".toList ['*'] _⟩

/-- The mark ends the comment and nothing before exactly if all that is shown
is harmless. -/
theorem commentText_only_last :
    (∀ before after, (commentText artifact).toList = before ++ endMark ++ after → after = []) ↔
      Harmless artifact := by
  obtain ⟨⟨rest, hrest⟩, -⟩ := innerLines_stars artifact
  have hinner : endMark <:+: "/*".toList ++ ['\n'].intercalate (innerLines artifact) ↔
      endMark <:+: ['\n'].intercalate (innerLines artifact) := by
    rw [hrest]
    show endMark <:+: '/' :: '*' :: '*' :: rest ↔ _
    rw [endMark_infix_cons, endMark_infix_cons]
    simp
  rw [toList_commentText, endMark_only_last, hinner, endMark_infix_innerLines, harmless_iff]
  simp only [not_exists, not_and]

/-- The comment is read to its end exactly if all that is shown is harmless. -/
theorem afterComment?_commentText {after : List Char} :
    afterComment? ((commentText artifact).toList ++ after) = some after ↔ Harmless artifact := by
  obtain ⟨-, body, hbody⟩ := innerLines_stars artifact
  have hread : afterComment? ((commentText artifact).toList ++ after) =
      afterEnd? (body ++ endMark ++ after) := by
    rw [toList_commentText, hbody]
    simp only [List.append_assoc]
    rfl
  rw [hread, afterEnd?_eq_after, ← hbody, endMark_infix_innerLines, harmless_iff]
  simp only [not_exists, not_and]

/-! ## A deployer with and without the comment -/

/-- A deployer with the comment on an artifact. -/
def commented (d : Deployer) (artifact : Artifact) : Deployer :=
  { d with comment := commentOf artifact }

section

variable {options : Options} {d : Deployer}

/-- Planning depends on the comment in its last step only. -/
theorem plan_metadata (artifact : Artifact) (options : Options) (metadata : Bool) :
    plan artifact { options with metadata := metadata } =
      (fun d => { d with comment := if metadata then commentOf artifact else [] }) <$>
        plan artifact { options with metadata := false } := by
  unfold plan
  cases withoutBytecode? artifact options.libraries with
  | some failure => rfl
  | none =>
      simp only [map_eq_pure_bind, bind_assoc]
      refine bind_congr fun structs => bind_congr fun params => bind_congr fun code =>
        bind_congr fun _ => bind_congr fun _ => bind_congr fun inlined => ?_
      split
      · rfl
      · simp only [bind_assoc, pure_bind]

theorem plan_bare (h : (plan artifact { options with metadata := false }).result = .ok d) :
    d.comment = [] := by
  have hplan := congrArg Report.result (plan_metadata artifact options false)
  rw [Report.map_result, h] at hplan
  exact congrArg Deployer.comment (Except.ok.inj hplan)

theorem generate_commented (artifact : Artifact) (options : Options) :
    generate artifact { options with metadata := true } =
      (fun d => (d.commented artifact).source) <$>
        plan artifact { options with metadata := false } := by
  show (plan artifact { options with metadata := true } >>= fun d => pure d.source) = _
  rw [plan_metadata, bind_pure_comp, Functor.map_map]
  rfl

theorem generate_bare (artifact : Artifact) (options : Options) :
    generate artifact { options with metadata := false } =
      source <$> plan artifact { options with metadata := false } := bind_pure_comp ..

/-- A comment that shows nothing is left out. -/
theorem commented_nothing (hbare : d.comment = []) (hnothing : commentOf artifact = []) :
    d.commented artifact = d := by
  rw [commented, hnothing, ← hbare]

/-- The comment and an empty line have lines of their own before the members. -/
theorem memberLines_commented (hbare : d.comment = []) (hshown : commentOf artifact ≠ []) :
    Fragment.memberLines (d.commented artifact).members =
      indent 1 (Fragment.comment "autogenerated by forge-pack" (commentOf artifact)).lines ++
        ([""] ++ Fragment.memberLines d.members) := by
  have hempty : (commentOf artifact).isEmpty = false := List.isEmpty_eq_false_iff.mpr hshown
  have hmembers : (d.commented artifact).members =
      .comment "autogenerated by forge-pack" (commentOf artifact) :: d.members := by
    simp only [commented, members, commentFragments, hbare, hempty, List.isEmpty_nil, if_true,
      Bool.false_eq_true, if_false, List.append_assoc, List.nil_append, List.singleton_append]
    rfl
  have hne : d.members.isEmpty = false := by
    rw [List.isEmpty_eq_false_iff]
    simp [members]
  rw [hmembers, Fragment.memberLines, hne, if_neg Bool.false_ne_true, List.append_assoc]

/-- The comment and an empty line stand at one place in the source. -/
theorem source_commented (hbare : d.comment = []) (hshown : commentOf artifact ≠ []) :
    ∃ before after, d.source = before ++ "\n" ++ after ∧
      (d.commented artifact).source =
        before ++ "\n    " ++ commentText artifact ++ "\n\n" ++ after := by
  obtain ⟨opening, hopening, hlines⟩ := Fragment.lines_library (deployerOf d.contract)
    (.header d.pragma [("DeployHelper", d.helperPath)] "MIT")
  have hsource : ∀ comment, { d with comment }.source = "\n".intercalate
      (opening ++ (Fragment.memberLines { d with comment }.members ++ ["\x7d"])) ++ "\n" := by
    intro comment
    show "\n".intercalate (indent 0 _) ++ "\n" = _
    rw [indent_zero, ← hlines]
    rfl
  have hblock : "\n".intercalate (indent 1 (Fragment.comment "autogenerated by forge-pack"
      (commentOf artifact)).lines) = "    " ++ commentText artifact := by
    rw [← String.toList_inj, String.toList_append, toList_commentText]
    exact render_comment artifact
  have hmembers := memberLines_commented hbare hshown
  rw [commented] at hmembers ⊢
  refine ⟨"\n".intercalate opening,
    "\n".intercalate (Fragment.memberLines d.members ++ ["\x7d"]) ++ "\n", ?_, ?_⟩
  · rw [hsource d.comment, String.intercalate_append_of_ne_nil hopening (by simp)]
    simp only [String.append_assoc]
  · rw [hsource (commentOf artifact), hmembers, List.append_assoc,
      List.append_assoc, String.intercalate_append_of_ne_nil hopening (by simp),
      String.intercalate_append_of_ne_nil (by simp [Fragment.lines, indent]) (by simp), hblock,
      String.intercalate_append_of_ne_nil (by simp) (by simp)]
    have hopen : "\n    " = "\n" ++ "    " := by decide
    have hclose : "\n\n" = "\n" ++ "\n" := by decide
    simp only [hopen, hclose, String.append_assoc, String.intercalate_singleton,
      String.empty_append]

end

/-- A contract of which the source and the version of the compiler are known. -/
def token : Artifact :=
  ⟨"Token", [], "6001".toList, [], .str "src/Token.sol",
    ⟨"solc", .str "0.8.20", .null, .null, .null, .null⟩⟩

/-- The artifact of a contract in a directory named `*`. -/
def starred : Artifact.Document :=
  .text ("\x7b\"bytecode\": \x7b\"object\": \"6001\"\x7d, \"metadata\": \x7b\"settings\": " ++
    "\x7b\"compilationTarget\": \x7b\"src/*/Token.sol\": \"Token\"\x7d\x7d\x7d\x7d").toList

end SolDeployer.Deployer
