import SolDeployer.Project
import SolDeployer.Proofs.Artifact.References
import SolDeployer.Proofs.Files.Reading
import SolDeployer.Proofs.Resolution.Termination

/-!
# The steps of a project suffice

A resolution in a project meets only the libraries of its roots, of the
artifacts that are kept and of the documents on the disk (`named`), and a
document names no more libraries than it has bytes. So the measure of the
visit is below the square that `resolutionSteps` allows, and the visit
comes to an end: no resolution of a project fails for want of steps.
-/

namespace SolDeployer.Project

open Files (Disk Node Place)

/-! ## The libraries that are named -/

/-- The libraries that what is at a place names. -/
def namedByNode (levels : Nat) : Node → List LibraryId
  | .file content => ((Disk.textOf? content).map (Artifact.namedIn levels)).getD []
  | .directory => []

def namedOnDisk (levels : Nat) (disk : Disk) : List LibraryId :=
  disk.nodes.flatMap fun (_, node) => namedByNode levels node

def namedByKept (project : Project) : List LibraryId :=
  project.artifacts.flatMap fun (_, artifact) => artifact.libraryIds

/-- Every library that an artifact of the project may name. -/
def named (project : Project) (disk : Disk) : List LibraryId :=
  project.namedByKept ++ namedOnDisk project.platform.host.levels disk

theorem length_namedByFile (levels : Nat) (content : List UInt8) :
    (namedByNode levels (.file content)).length ≤ content.length := by
  change (((Disk.textOf? content).map (Artifact.namedIn levels)).getD []).length ≤ content.length
  cases htext : Disk.textOf? content with
  | none => exact Nat.zero_le _
  | some text =>
      exact Nat.le_trans (Artifact.length_namedIn_le levels text) (Disk.length_textOf? htext)

theorem length_namedOnDisk (levels : Nat) (disk : Disk) :
    (namedOnDisk levels disk).length ≤ disk.size := by
  unfold namedOnDisk Disk.size
  induction disk.nodes with
  | nil => exact Nat.le_refl _
  | cons entry rest ih =>
      obtain ⟨place, node⟩ := entry
      rw [List.flatMap_cons, List.length_append, List.map_cons, List.sum_cons]
      refine Nat.add_le_add ?_ ih
      cases node with
      | file content => exact length_namedByFile levels content
      | directory => exact Nat.le_refl _

/-- The libraries of an artifact are among those that are named. -/
theorem libraryIds_sublist {project : Project} {disk : Disk} {key : ArtifactKey}
    {artifact : Artifact} (h : project.artifact disk key = .ok artifact) :
    artifact.libraryIds.Sublist (project.named disk) := by
  unfold Project.artifact at h
  split at h
  · rename_i kept hkept
    obtain rfl := Except.ok.inj h
    have hmem : kept.libraryIds ∈
        project.artifacts.map (fun (_, artifact) => artifact.libraryIds) :=
      List.mem_map_of_mem (Entries.mem_of_get? hkept)
    have hkept := List.sublist_flatten_of_mem hmem
    rw [← List.flatMap_def] at hkept
    exact hkept.trans (List.sublist_append_left ..)
  · obtain ⟨text, htext, hread⟩ := bind_eq_ok.mp h
    obtain ⟨path, -, htext⟩ := bind_eq_ok.mp htext
    obtain ⟨place, content, hmem, hcontent⟩ := Disk.readText_ok htext
    have hnamed : artifact.libraryIds =
        namedByNode project.platform.host.levels (.file content) := by
      rw [Artifact.libraryIds_of_read hread, namedByNode, hcontent]
      rfl
    have hfile : namedByNode project.platform.host.levels (.file content) ∈
        disk.nodes.map (fun (_, node) => namedByNode project.platform.host.levels node) :=
      List.mem_map_of_mem hmem
    have hdisk := List.sublist_flatten_of_mem hfile
    rw [← List.flatMap_def, ← hnamed] at hdisk
    exact hdisk.trans (List.sublist_append_right ..)

/-! ## Runs end -/

theorem reachable_named {project : Project} {disk : Disk} {roots : List LibraryId}
    {id : LibraryId} (h : Loader.Reachable (project.loader disk) roots id) :
    id ∈ roots ++ project.named disk := by
  cases h with
  | root hid => exact List.mem_append_left _ hid
  | link _ hload hchild => exact List.mem_append_right _ ((libraryIds_sublist hload).subset hchild)

theorem lt_square {names roots bound : Nat} (h : names ≤ bound) :
    (names + 2) * (roots + names) + roots < (bound + roots + 2) ^ (2 : Nat) := by
  have hscale : (names + 2) * (roots + names) ≤ (bound + roots + 2) * (bound + roots) :=
    Nat.mul_le_mul (by omega) (by omega)
  have hsquare : (bound + roots + 2) ^ (2 : Nat) =
      (bound + roots + 2) * (bound + roots) + (bound + roots + 2) * 2 := by
    rw [Nat.pow_two, ← Nat.mul_add]
  omega

/-- Every resolution of a project has enough steps. -/
theorem resolution_runs (project : Project) (disk : Disk) (links : LinkReferences) :
    ∃ outcome, Traversal.run? (project.loader disk) (project.resolutionSteps disk links)
      (Traversal.start links.libraryIds) = some outcome := by
  let keys := (links.libraryIds ++ project.named disk).map LibraryId.key
  have hkeys : Loader.ReachesWithin (project.loader disk) links.libraryIds keys :=
    fun _ hid => List.mem_map_of_mem (reachable_named hid)
  have hcost : Loader.CostsAtMost (project.loader disk) links.libraryIds
      (project.named disk).length :=
    fun _ _ _ hload => (libraryIds_sublist hload).length_le
  refine Traversal.visit_runs hkeys hcost ?_
  have hkept : project.namedByKept.length =
      (project.artifacts.map fun (_, artifact) => artifact.libraryIds.length).sum :=
    List.length_flatMap
  have hdisk := length_namedOnDisk project.platform.host.levels disk
  have hlength : keys.length = links.libraryIds.length + (project.named disk).length := by
    simp only [keys, List.length_map, List.length_append]
  have hnamed : (project.named disk).length = project.namedByKept.length + (namedOnDisk project.platform.host.levels disk).length :=
    List.length_append
  rw [hlength, resolutionSteps, ← hkept]
  exact lt_square (by omega)

end SolDeployer.Project
