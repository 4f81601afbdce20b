import SolDeployer.Files.Disk
import SolDeployer.Proofs.Entries

/-!
# What is read from a disk

A text that is read is that of a file on the disk, and a file has no more
characters than bytes.
-/

namespace SolDeployer

theorem Text.Utf8.length_decodeOnto {surrogates : Bool} {fuel : Nat} {done : List Char}
    {bytes : List UInt8} {text : List Char}
    (h : decodeOnto surrogates fuel done bytes = some text) :
    text.length ≤ done.length + fuel := by
  induction fuel generalizing done bytes with
  | zero =>
      cases bytes with
      | nil =>
          obtain rfl := Option.some.inj h
          simp
      | cons b bytes => cases h
  | succ fuel ih =>
      cases bytes with
      | nil =>
          obtain rfl := Option.some.inj h
          simp
      | cons b bytes =>
          unfold decodeOnto at h
          split at h
          · have hrest := ih h
            simp only [List.length_cons] at hrest
            omega
          · cases h

theorem Text.Utf8.length_decode? {bytes : List UInt8} {surrogates : Bool} {text : List Char}
    (h : decode? bytes surrogates = some text) : text.length ≤ bytes.length := by
  have hlength := length_decodeOnto h
  rwa [List.length_nil, Nat.zero_add] at hlength

namespace Files.Disk

theorem length_plainLines (text : List Char) : (plainLines text).length ≤ text.length := by
  induction text using plainLines.induct with
  | case1 => exact Nat.le_refl _
  | case2 rest ih => simp only [plainLines, List.length_cons]; omega
  | case3 rest hnext ih => simp only [plainLines, List.length_cons]; omega
  | case4 c rest hboth hreturn ih => simp only [plainLines, List.length_cons]; omega

/-- The text in some bytes, with the ends of its lines written in one
way. -/
def textOf? (content : List UInt8) : Option (List Char) :=
  (Text.Utf8.decode? content).map plainLines

theorem length_textOf? {content : List UInt8} {text : List Char}
    (h : textOf? content = some text) : text.length ≤ content.length := by
  obtain ⟨raw, hraw, rfl⟩ := Option.map_eq_some_iff.mp h
  exact Nat.le_trans (length_plainLines raw) (Text.Utf8.length_decode? hraw)

theorem file_of_node? {disk : Disk} {place : Place} {content : List UInt8}
    (h : disk.node? place = some (.file content)) : (place, .file content) ∈ disk.nodes := by
  unfold node? at h
  split at h
  · cases h
  · exact Entries.mem_of_get? h

theorem readText_ok {disk : Disk} {path : String} {text : List Char}
    (h : disk.readText path = .ok text) :
    ∃ place content, (place, Node.file content) ∈ disk.nodes ∧ textOf? content = some text := by
  unfold readText at h
  split at h
  · cases h
  · cases h
  · rename_i place hplace
    split at h
    · rename_i content hnode
      split at h
      · rename_i raw hraw
        obtain rfl := Except.ok.inj h
        exact ⟨place, content, file_of_node? hnode, by rw [textOf?, hraw]; rfl⟩
      · cases h
    · cases h

end Files.Disk

end SolDeployer
