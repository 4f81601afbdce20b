import Mathlib.Data.List.Nodup
import SolDeployer.Proofs.Entries
import SolDeployer.Proofs.Resolution.Moves

/-!
# What every visit keeps

The state of a visit is held in four places: the marks, the libraries
under way, the libraries done, and the roots that are left. Three
invariants tie them together, each kept by every move.

- `Marked`: a key is marked as under way or done exactly if a library
  with this key is, and no key is there twice.
- `Wired`: each library under way has needs for the references that it
  has gone through, the one on top of it is the next of them, and every
  library done stands after all that it needs.
- `Spanning`: what is known was loaded and is in reach of the roots, and
  each root is known or still to be visited.

`Wired` is why a library that is left may be put at the end of those
done: nothing is pending in it, so all its references are needs, and
needs are done.
-/

namespace SolDeployer.Traversal

variable {load : Loader} {t t' : Traversal}

/-- The keys of the libraries under way, the last one entered first. -/
def underwayKeys (t : Traversal) : List String := t.frames.map (·.id.key)

/-- The keys of the libraries done, in order. -/
def doneKeys (t : Traversal) : List String := t.done.map (·.id.key)

@[simp] theorem need_keys (key : String) (frames : List Frame) :
    (need key frames).map (·.id.key) = frames.map (·.id.key) := by
  cases frames <;> rfl

theorem underwayKeys_entered (t : Traversal) (id : LibraryId) (artifact : Artifact) :
    (t.entered id artifact).underwayKeys = id.key :: t.underwayKeys := rfl

theorem doneKeys_entered (t : Traversal) (id : LibraryId) (artifact : Artifact) :
    (t.entered id artifact).doneKeys = t.doneKeys := rfl

@[simp] theorem underwayKeys_leave (t : Traversal) (frame : Frame) (below : List Frame) :
    (t.leave frame below).underwayKeys = below.map (·.id.key) := need_keys ..

@[simp] theorem doneKeys_leave (t : Traversal) (frame : Frame) (below : List Frame) :
    (t.leave frame below).doneKeys = t.doneKeys ++ [frame.id.key] := by
  simp [doneKeys, leave]

theorem marks_entered (t : Traversal) (id : LibraryId) (artifact : Artifact) :
    (t.entered id artifact).marks = t.marks.insert id.key .underway := rfl

theorem marks_leave (t : Traversal) (frame : Frame) (below : List Frame) :
    (t.leave frame below).marks = t.marks.insert frame.id.key .done := rfl

/-! ## Marks -/

/-- The marks agree with the libraries under way and done. -/
structure Marked (t : Traversal) : Prop where
  underway : ∀ key, t.marks.get? key = some .underway ↔ key ∈ t.underwayKeys
  done : ∀ key, t.marks.get? key = some .done ↔ key ∈ t.doneKeys
  underway_nodup : t.underwayKeys.Nodup
  done_nodup : t.doneKeys.Nodup

theorem Marked.start (roots : List LibraryId) : Marked (start roots) :=
  ⟨fun _ => by simp [Traversal.start, underwayKeys, Entries.get?_nil],
    fun _ => by simp [Traversal.start, doneKeys, Entries.get?_nil], List.nodup_nil, List.nodup_nil⟩

/-- Only marks and keys matter. -/
theorem Marked.congr (h : Marked t) (hmarks : t'.marks = t.marks)
    (hunderway : t'.underwayKeys = t.underwayKeys) (hdone : t'.doneKeys = t.doneKeys) :
    Marked t' := by
  obtain ⟨h₁, h₂, h₃, h₄⟩ := h
  constructor
  · rwa [hmarks, hunderway]
  · rwa [hmarks, hdone]
  · rwa [hunderway]
  · rwa [hdone]

theorem Marked.entered (h : Marked t) {id : LibraryId} (artifact : Artifact)
    (hnew : t.marks.get? id.key = none) : Marked (t.entered id artifact) := by
  have hunderway : id.key ∉ t.underwayKeys := fun hmem => by
    rw [(h.underway _).mpr hmem] at hnew
    cases hnew
  have hdone : id.key ∉ t.doneKeys := fun hmem => by
    rw [(h.done _).mpr hmem] at hnew
    cases hnew
  refine ⟨fun key => ?_, fun key => ?_, List.nodup_cons.mpr ⟨hunderway, h.underway_nodup⟩,
    h.done_nodup⟩
  · rw [marks_entered, underwayKeys_entered]
    by_cases hkey : key = id.key
    · subst hkey
      simp
    · simp [Entries.get?_insert_of_ne _ _ hkey, h.underway, hkey]
  · rw [marks_entered, doneKeys_entered]
    by_cases hkey : key = id.key
    · subst hkey
      simpa using hdone
    · simpa [Entries.get?_insert_of_ne _ _ hkey] using h.done key

/-- A library that is left changes its mark, and no other library has its key. -/
theorem Marked.leave (h : Marked t) {frame : Frame} {below : List Frame}
    (hframes : t.frames = frame :: below) : Marked (t.leave frame below) := by
  have hunderway : t.underwayKeys = frame.id.key :: below.map (·.id.key) := by
    simp [underwayKeys, hframes]
  have hnodup := h.underway_nodup
  rw [hunderway, List.nodup_cons] at hnodup
  have hdone : frame.id.key ∉ t.doneKeys := fun hmem => by
    have hmark := (h.underway frame.id.key).mpr (by simp [hunderway])
    rw [(h.done _).mpr hmem] at hmark
    cases hmark
  refine ⟨fun key => ?_, fun key => ?_, ?_, ?_⟩
  · rw [marks_leave, underwayKeys_leave]
    by_cases hkey : key = frame.id.key
    · subst hkey
      simpa using hnodup.1
    · have hold := h.underway key
      rw [hunderway, List.mem_cons, or_iff_right hkey] at hold
      simpa [Entries.get?_insert_of_ne _ _ hkey] using hold
  · rw [marks_leave, doneKeys_leave, List.mem_append, List.mem_singleton]
    by_cases hkey : key = frame.id.key
    · subst hkey
      simp
    · simp [Entries.get?_insert_of_ne _ _ hkey, h.done, hkey]
  · rw [underwayKeys_leave]
    exact hnodup.2
  · rw [doneKeys_leave]
    exact List.nodup_append.mpr ⟨h.done_nodup, List.nodup_singleton _, fun a ha b hb hab => by
      rw [List.mem_singleton] at hb
      exact hdone (hb ▸ hab ▸ ha)⟩

/-- Between the roots nothing is under way. -/
theorem Marked.root_new (h : Marked t) (hframes : t.frames = []) {key : String}
    (hmark : t.marks.get? key ≠ some .done) : t.marks.get? key = none := by
  cases hget : t.marks.get? key with
  | none => rfl
  | some mark =>
      cases mark with
      | underway => simpa [underwayKeys, hframes] using (h.underway _).mp hget
      | done => exact absurd hget hmark

theorem Marked.move (h : Marked t) (hmove : Move load t t') : Marked t' := by
  cases hmove with
  | skip hframes hroots hmark => exact h.congr rfl rfl rfl
  | @enterRoot id roots artifact hframes hroots hmark hload =>
      have hrest : Marked { t with roots } := h.congr rfl rfl rfl
      exact hrest.entered artifact (h.root_new hframes hmark)
  | leave hframes hpending => exact h.leave hframes
  | share hframes hpending hmark =>
      exact h.congr rfl (by simp [underwayKeys, need, hframes]) rfl
  | @enterChild frame below child pending artifact hframes hpending hmark hload =>
      have hrest : Marked { t with frames := { frame with pending } :: below } :=
        h.congr rfl (by simp [underwayKeys, hframes]) rfl
      exact hrest.entered artifact hmark

theorem Marked.reaches (h : Marked t) (hmoves : Reaches load t t') : Marked t' := by
  induction hmoves with
  | refl => exact h
  | tail _ hmove ih => exact ih.move hmove

/-! ## Needs -/

/-- The references of a library under way are those it has gone through,
the one that is visited now, and the pending ones; the needs are the keys
of the first. -/
def Consumed (frame : Frame) (current : List LibraryId) : Prop :=
  ∃ before, frame.artifact.libraryIds = before ++ current ++ frame.pending ∧
    frame.needs = before.map LibraryId.key

/-- Libraries under way stand on those that are visiting them. -/
def Stacked : (current : List LibraryId) → List Frame → Prop
  | _, [] => True
  | current, frame :: below => Consumed frame current ∧ Stacked [frame.id] below

/-- Libraries done, each after all that it needs. -/
inductive Ordered : List Visited → Prop
  | nil : Ordered []
  | concat {done : List Visited} {library : Visited} (hdone : Ordered done)
      (hneeds : library.needs = library.artifact.libraryIds.map LibraryId.key)
      (hbefore : ∀ key ∈ library.needs, key ∈ done.map (·.id.key)) : Ordered (done ++ [library])

/-- The needs of the libraries under way and done agree with their
references. -/
structure Wired (t : Traversal) : Prop where
  stacked : Stacked [] t.frames
  needs_done : ∀ frame ∈ t.frames, ∀ key ∈ frame.needs, key ∈ t.doneKeys
  ordered : Ordered t.done

theorem Wired.start (roots : List LibraryId) : Wired (start roots) :=
  ⟨trivial, fun _ hframe => (List.not_mem_nil hframe).elim, .nil⟩

theorem consumed_entered (id : LibraryId) (artifact : Artifact) :
    Consumed ⟨id, artifact, artifact.libraryIds, []⟩ [] := ⟨[], by simp, rfl⟩

/-- The next reference becomes the one that is visited. -/
theorem Consumed.visit {frame : Frame} {child : LibraryId} {pending : List LibraryId}
    (h : Consumed frame []) (hpending : frame.pending = child :: pending) :
    Consumed { frame with pending } [child] := by
  obtain ⟨before, hids, hneeds⟩ := h
  exact ⟨before, by simpa [hpending] using hids, hneeds⟩

/-- The reference that is visited becomes a need. -/
theorem Consumed.need {frame : Frame} {child : LibraryId} (h : Consumed frame [child]) :
    Consumed { frame with needs := frame.needs ++ [child.key] } [] := by
  obtain ⟨before, hids, hneeds⟩ := h
  exact ⟨before ++ [child], by simpa using hids, by simp [hneeds]⟩

theorem Stacked.need {child : LibraryId} {frames : List Frame} (h : Stacked [child] frames) :
    Stacked [] (need child.key frames) := by
  cases frames with
  | nil => trivial
  | cons frame below => exact ⟨h.1.need, h.2⟩

theorem needs_need {key : String} {frames : List Frame} {frame : Frame}
    (hframe : frame ∈ need key frames) {k : String} (hk : k ∈ frame.needs) :
    k = key ∨ ∃ old ∈ frames, k ∈ old.needs := by
  cases frames with
  | nil => cases hframe
  | cons top below =>
      rcases List.mem_cons.mp hframe with rfl | hbelow
      · rcases List.mem_append.mp hk with hold | hnew
        · exact .inr ⟨top, List.mem_cons_self .., hold⟩
        · exact .inl (List.mem_singleton.mp hnew)
      · exact .inr ⟨frame, List.mem_cons_of_mem _ hbelow, hk⟩

theorem Wired.leave (h : Wired t) {frame : Frame} {below : List Frame}
    (hframes : t.frames = frame :: below) (hpending : frame.pending = []) :
    Wired (t.leave frame below) := by
  have hstacked := h.stacked
  rw [hframes] at hstacked
  obtain ⟨⟨before, hids, hneeds⟩, hbelow⟩ := hstacked
  have hold := h.needs_done
  rw [hframes] at hold
  refine ⟨hbelow.need, fun f hf k hk => ?_, h.ordered.concat ?_ ?_⟩
  · rw [doneKeys_leave, List.mem_append, List.mem_singleton]
    rcases needs_need hf hk with rfl | ⟨old, hmem, hk⟩
    · exact .inr rfl
    · exact .inl (hold old (List.mem_cons_of_mem _ hmem) k hk)
  · simp only [hpending, List.append_nil] at hids
    simp [hids, hneeds]
  · exact hold frame (List.mem_cons_self ..)

theorem Wired.share (hwired : Wired t) {frame : Frame} {below : List Frame}
    {child : LibraryId} {pending : List LibraryId} (hframes : t.frames = frame :: below)
    (hpending : frame.pending = child :: pending) (hdone : child.key ∈ t.doneKeys) :
    Wired { t with frames := need child.key ({ frame with pending } :: below) } := by
  obtain ⟨hstacked, hneeds, hordered⟩ := hwired
  rw [hframes] at hstacked hneeds
  have hvisit : Stacked [child] ({ frame with pending } :: below) :=
    ⟨hstacked.1.visit hpending, hstacked.2⟩
  refine ⟨hvisit.need, fun f hf k hk => ?_, hordered⟩
  have hf' : f ∈ need child.key ({ frame with pending } :: below) := hf
  rcases needs_need hf' hk with rfl | ⟨old, hmem, hk⟩
  · exact hdone
  · rcases List.mem_cons.mp hmem with rfl | hbelow
    · exact hneeds frame (List.mem_cons_self ..) k hk
    · exact hneeds old (List.mem_cons_of_mem _ hbelow) k hk

theorem Wired.enterChild (hwired : Wired t) {frame : Frame} {below : List Frame}
    {child : LibraryId} {pending : List LibraryId} (artifact : Artifact)
    (hframes : t.frames = frame :: below) (hpending : frame.pending = child :: pending) :
    Wired (entered { t with frames := { frame with pending } :: below } child artifact) := by
  obtain ⟨hstacked, hneeds, hordered⟩ := hwired
  rw [hframes] at hstacked hneeds
  refine ⟨⟨consumed_entered child artifact, hstacked.1.visit hpending, hstacked.2⟩,
    fun f hf k hk => ?_, hordered⟩
  rcases List.mem_cons.mp hf with rfl | hf
  · cases hk
  · rcases List.mem_cons.mp hf with rfl | hbelow
    · exact hneeds frame (List.mem_cons_self ..) k hk
    · exact hneeds f (List.mem_cons_of_mem _ hbelow) k hk

theorem Wired.move (h : Wired t) (hmarked : Marked t) (hmove : Move load t t') : Wired t' := by
  cases hmove with
  | skip hframes hroots hmark => exact ⟨h.stacked, h.needs_done, h.ordered⟩
  | @enterRoot id roots artifact hframes hroots hmark hload =>
      refine ⟨⟨consumed_entered id artifact, by simp [hframes, Stacked]⟩, fun f hf k hk => ?_,
        h.ordered⟩
      rcases List.mem_cons.mp hf with rfl | hf
      · cases hk
      · exact h.needs_done f hf k hk
  | leave hframes hpending => exact h.leave hframes hpending
  | share hframes hpending hmark => exact h.share hframes hpending ((hmarked.done _).mp hmark)
  | enterChild hframes hpending hmark hload => exact h.enterChild _ hframes hpending

/-- A library of an ordered list stands after all that it needs. -/
theorem Ordered.before {done : List Visited} (h : Ordered done) :
    ∀ {before after : List Visited} {library : Visited}, done = before ++ library :: after →
      library.needs = library.artifact.libraryIds.map LibraryId.key ∧
        ∀ key ∈ library.needs, key ∈ before.map (·.id.key) := by
  induction h with
  | nil => intro before after library heq; simp at heq
  | @concat done last _ hneeds hbefore ih =>
      intro before after library heq
      rcases List.eq_nil_or_concat after with rfl | ⟨after', z, rfl⟩
      · obtain ⟨rfl, hlast⟩ := List.append_inj' heq rfl
        obtain rfl := List.singleton_inj.mp hlast
        exact ⟨hneeds, hbefore⟩
      · have heq' : done ++ [last] = (before ++ library :: after') ++ [z] := by
          simpa using heq
        exact ih (List.append_inj' heq' rfl).1

/-! ## Reach -/

/-- The keys in reach of some libraries, where `refs key child` says that
the library with a key refers to another. -/
inductive InReach (refs : String → LibraryId → Prop) (roots : List LibraryId) : String → Prop
  | root {id : LibraryId} (hid : id ∈ roots) : InReach refs roots id.key
  | link {key : String} {child : LibraryId} (hkey : InReach refs roots key)
      (hchild : refs key child) : InReach refs roots child.key

theorem InReach.imp {refs refs' : String → LibraryId → Prop} {roots : List LibraryId}
    (himp : ∀ key child, refs key child → refs' key child) {key : String}
    (h : InReach refs roots key) : InReach refs' roots key := by
  induction h with
  | root hid => exact .root hid
  | link _ hchild ih => exact .link ih (himp _ _ hchild)

/-- The libraries under way and done, with their artifacts. -/
def known (t : Traversal) : List (LibraryId × Artifact) :=
  t.frames.map (fun frame => (frame.id, frame.artifact)) ++
    t.done.map fun library => (library.id, library.artifact)

/-- A known library with a key refers to another. -/
def Refers (t : Traversal) (key : String) (child : LibraryId) : Prop :=
  ∃ id artifact, (id, artifact) ∈ t.known ∧ id.key = key ∧ child ∈ artifact.libraryIds

/-- Known libraries were loaded and are in reach of the roots; a root is
known or left to be visited. -/
structure Spanning (load : Loader) (roots : List LibraryId) (t : Traversal) : Prop where
  loaded : ∀ id artifact, (id, artifact) ∈ t.known → load id = .ok artifact
  reached : ∀ id artifact, (id, artifact) ∈ t.known → InReach t.Refers roots id.key
  left : ∀ id ∈ t.roots, id ∈ roots
  covered : ∀ id ∈ roots, id ∈ t.roots ∨ ∃ other artifact, (other, artifact) ∈ t.known ∧
    other.key = id.key

theorem Spanning.start (load : Loader) (roots : List LibraryId) :
    Spanning load roots (start roots) := by
  refine ⟨fun id artifact h => ?_, fun id artifact h => ?_, fun id h => h, fun id h => .inl h⟩
  · cases h
  · cases h

@[simp] theorem need_known (key : String) (frames : List Frame) :
    (need key frames).map (fun frame => (frame.id, frame.artifact)) =
      frames.map fun frame => (frame.id, frame.artifact) := by
  cases frames <;> rfl

theorem mem_known_leave {frame : Frame} {below : List Frame} (hframes : t.frames = frame :: below)
    (entry : LibraryId × Artifact) : entry ∈ (t.leave frame below).known ↔ entry ∈ t.known := by
  simp only [known, leave, need_known, hframes, List.map_append, List.map_cons, List.map_nil,
    List.mem_append, List.mem_cons, List.not_mem_nil, or_false]
  tauto

theorem known_mono_refers (hknown : ∀ entry ∈ t.known, entry ∈ t'.known) (key : String)
    (child : LibraryId) (h : t.Refers key child) : t'.Refers key child := by
  obtain ⟨id, artifact, hmem, hkey, hchild⟩ := h
  exact ⟨id, artifact, hknown _ hmem, hkey, hchild⟩

/-- Nothing changes for libraries if the same ones are known. -/
theorem Spanning.congr {roots : List LibraryId} (h : Spanning load roots t)
    (hknown : ∀ entry, entry ∈ t'.known ↔ entry ∈ t.known) (hroots : t'.roots = t.roots) :
    Spanning load roots t' := by
  refine ⟨fun id artifact hmem => h.loaded id artifact ((hknown _).mp hmem),
    fun id artifact hmem => ?_, fun id hid => h.left id (hroots ▸ hid), fun id hid => ?_⟩
  · exact (h.reached id artifact ((hknown _).mp hmem)).imp
      (known_mono_refers fun entry hentry => (hknown entry).mpr hentry)
  · rcases h.covered id hid with hleft | ⟨other, artifact, hmem, hkey⟩
    · exact .inl (hroots ▸ hleft)
    · exact .inr ⟨other, artifact, (hknown _).mpr hmem, hkey⟩

/-- A library that is in reach may be entered. -/
theorem Spanning.entered {roots : List LibraryId} (h : Spanning load roots t) {id : LibraryId}
    {artifact : Artifact} (hload : load id = .ok artifact)
    (hreach : InReach t.Refers roots id.key) : Spanning load roots (t.entered id artifact) := by
  have hmono : ∀ key child, t.Refers key child → (t.entered id artifact).Refers key child :=
    known_mono_refers fun entry hentry => List.mem_cons_of_mem (id, artifact) hentry
  refine ⟨fun other a hmem => ?_, fun other a hmem => ?_, h.left, fun root hroot => ?_⟩
  · rcases List.mem_cons.mp hmem with heq | hold
    · obtain ⟨rfl, rfl⟩ := Prod.mk.inj heq
      exact hload
    · exact h.loaded other a hold
  · rcases List.mem_cons.mp hmem with heq | hold
    · obtain ⟨rfl, rfl⟩ := Prod.mk.inj heq
      exact hreach.imp hmono
    · exact (h.reached other a hold).imp hmono
  · rcases h.covered root hroot with hleft | ⟨other, a, hmem, hkey⟩
    · exact .inl hleft
    · exact .inr ⟨other, a, List.mem_cons_of_mem _ hmem, hkey⟩

/-- A root that is known, or becomes so, need not be visited again. -/
theorem Spanning.dropRoot {roots rest : List LibraryId} (h : Spanning load roots t)
    {id : LibraryId} (hroots : t.roots = id :: rest)
    (hknown : ∃ other artifact, (other, artifact) ∈ t.known ∧ other.key = id.key) :
    Spanning load roots { t with roots := rest } := by
  refine ⟨h.loaded, h.reached, fun other hother => ?_, fun other hother => ?_⟩
  · exact h.left other (hroots ▸ List.mem_cons_of_mem _ hother)
  · rcases h.covered other hother with hleft | hright
    · rw [hroots] at hleft
      rcases List.mem_cons.mp hleft with rfl | hrest
      · exact .inr hknown
      · exact .inl hrest
    · exact .inr hright

theorem Spanning.move {roots : List LibraryId} (h : Spanning load roots t) (hmarked : Marked t)
    (hwired : Wired t) (hmove : Move load t t') : Spanning load roots t' := by
  cases hmove with
  | @skip id rest hframes hroots hmark =>
      refine h.dropRoot hroots ?_
      obtain ⟨library, hmem, hkey⟩ := List.mem_map.mp ((hmarked.done _).mp hmark)
      exact ⟨library.id, library.artifact,
        List.mem_append_right _ (List.mem_map.mpr ⟨library, hmem, rfl⟩), hkey⟩
  | @enterRoot id rest artifact hframes hroots hmark hload =>
      have hid : id ∈ roots := h.left id (hroots ▸ List.mem_cons_self ..)
      have hentered : Spanning load roots (t.entered id artifact) :=
        h.entered hload (.root hid)
      exact hentered.dropRoot hroots ⟨id, artifact, List.mem_cons_self .., rfl⟩
  | leave hframes hpending => exact h.congr (mem_known_leave hframes) rfl
  | share hframes hpending hmark =>
      exact h.congr (fun entry => by simp [known, need, hframes]) rfl
  | @enterChild frame below child pending artifact hframes hpending hmark hload =>
      have hrest : Spanning load roots { t with frames := { frame with pending } :: below } :=
        h.congr (fun entry => by simp [known, hframes]) rfl
      refine hrest.entered hload ?_
      have hstacked := hwired.stacked
      rw [hframes] at hstacked
      obtain ⟨⟨before, hids, -⟩, -⟩ := hstacked
      have hmem : (frame.id, frame.artifact) ∈
          known { t with frames := { frame with pending } :: below } := List.mem_cons_self ..
      exact .link (hrest.reached _ _ hmem)
        ⟨frame.id, frame.artifact, hmem, rfl, by simp [hids, hpending]⟩

/-! ## Whole visits -/

/-- The invariants hold throughout a visit. -/
theorem coherent_of_reaches {roots : List LibraryId} (h : Reaches load (start roots) t) :
    Marked t ∧ Wired t ∧ Spanning load roots t := by
  induction h with
  | refl => exact ⟨.start roots, .start roots, .start load roots⟩
  | tail _ hmove ih =>
      obtain ⟨hmarked, hwired, hspanning⟩ := ih
      exact ⟨hmarked.move hmove, hwired.move hmarked hmove, hspanning.move hmarked hwired hmove⟩

end SolDeployer.Traversal
