import SolDeployer.Proofs.Resolution.Termination

/-!
# The visit as a recursion

The libraries in order of deployment are specified by a recursion: mark a
library, load it, visit what it refers to in order, and record it. The
visit keeps the calls of that recursion as frames. Here the recursion is
written down as it is specified, and both are shown to give the same
libraries in the same order, the same loads in the same order, and the
same failure.

A call is simulated by the moves from the state before it to the state
with its result (`Simulates`). The state with a result differs in one way
from the one before: the frame below has the key among its needs, because
there the recursion only sees afterwards that all references are done.

The recursion is cut off at a depth. Each call inside another marks one
more key, so with finitely many keys in reach it is never cut off below a
depth of their number (`visit_not_too_deep`).
-/

namespace SolDeployer

namespace Recursive

/-- What calls leave to the next one: the marks, and the libraries done
and loaded, in order. -/
structure Progress where
  marks : Entries String Mark
  done : List Visited
  loads : List LibraryId

/-- Why a call has no result. -/
inductive Halt where
  | failed (loads : List LibraryId) (failure : Failure)
  | tooDeep

namespace Progress

def empty : Progress := ⟨[], [], []⟩

/-- A library is marked and loaded. -/
def begin (p : Progress) (id : LibraryId) : Progress :=
  { p with marks := p.marks.insert id.key .underway, loads := p.loads ++ [id] }

/-- A library is done, and so are all that it refers to. -/
def record (p : Progress) (id : LibraryId) (artifact : Artifact) : Progress :=
  { p with
    marks := p.marks.insert id.key .done
    done := p.done ++ [⟨id, artifact, artifact.libraryIds.map LibraryId.key⟩] }

end Progress

/-- Visit a library and all that it needs. -/
def visit (load : Loader) : (depth : Nat) → Progress → LibraryId → Except Halt Progress
  | 0, _, _ => .error .tooDeep
  | depth + 1, p, id =>
    match p.marks.get? id.key with
    | some .done => .ok p
    | some .underway => .error (.failed p.loads (.circular id.key))
    | none =>
      match load id with
      | .error failure => .error (.failed (p.loads ++ [id]) failure)
      | .ok artifact => do
        let p ← artifact.libraryIds.foldlM (visit load depth) (p.begin id)
        return p.record id artifact

/-- How the visits of some libraries end, unless they are cut off. -/
def outcome? : Except Halt Progress → Option Traversal.Outcome
  | .ok p => some ⟨p.loads, .ok p.done⟩
  | .error (.failed loads failure) => some ⟨loads, .error failure⟩
  | .error .tooDeep => none

/-- Resolve the libraries that link references ask for. -/
def resolve (load : Loader) (depth : Nat) (disambiguate : Bool) (links : LinkReferences) :
    Option Resolution :=
  (outcome? (links.libraryIds.foldlM (visit load depth) .empty)).map fun outcome =>
    ⟨outcome.loads, outcome.result.bind (Resolved.ofVisited disambiguate)⟩

/-! ## Calls are moves -/

open Traversal (Move Stop Reaches Ends Marked need)

variable {load : Loader} {roots : List LibraryId}

/-- The state of a traversal with these libraries under way and these roots left. -/
def Progress.within (p : Progress) (frames : List Frame) (roots : List LibraryId) : Traversal :=
  ⟨p.marks, frames, p.done, p.loads, roots⟩

/-- A traversal comes to the state with the result of a call, or ends with its failure. -/
def Simulates (load : Loader) (t : Traversal) (after : Progress → Traversal) :
    Except Halt Progress → Prop
  | .ok p => Reaches load t (after p)
  | .error (.failed loads failure) => Ends load t ⟨loads, .error failure⟩
  | .error .tooDeep => True

theorem Simulates.of_reaches {t t' : Traversal} {after : Progress → Traversal}
    {call : Except Halt Progress} (hmoves : Reaches load t t')
    (h : Simulates load t' after call) : Simulates load t after call := by
  match call, h with
  | .ok p, h => exact hmoves.trans h
  | .error (.failed loads failure), h => exact Ends.of_reaches hmoves h
  | .error .tooDeep, _ => trivial

theorem Simulates.bind {t : Traversal} {between after : Progress → Traversal}
    {call : Except Halt Progress} {next : Progress → Except Halt Progress}
    (h : Simulates load t between call)
    (hnext : ∀ p, call = .ok p → Simulates load (between p) after (next p)) :
    Simulates load t after (call >>= next) := by
  match call, h with
  | .ok p, h => exact (hnext p rfl).of_reaches h
  | .error (.failed loads failure), h => exact h
  | .error .tooDeep, _ => trivial

/-- The references of the last library under way are visited in order, if
each call inside is simulated. -/
theorem simulates_children {depth : Nat}
    (hvisit : ∀ p frame below child pending, frame.pending = child :: pending →
      Simulates load (p.within (frame :: below) roots)
        (fun q => q.within (need child.key ({ frame with pending } :: below)) roots)
        (visit load depth p child))
    (p : Progress) (frame : Frame) (below : List Frame) :
    Simulates load (p.within (frame :: below) roots)
      (fun q => q.within ({ frame with
        pending := [], needs := frame.needs ++ frame.pending.map LibraryId.key } :: below) roots)
      (frame.pending.foldlM (visit load depth) p) := by
  obtain ⟨id, artifact, pending, needs⟩ := frame
  induction pending generalizing p needs with
  | nil =>
      rw [List.foldlM_nil, List.map_nil, List.append_nil]
      exact Relation.ReflTransGen.refl
  | cons child pending ih =>
      rw [List.foldlM_cons]
      refine (hvisit p _ below child pending rfl).bind fun q _ => ?_
      have hrest := ih q (needs ++ [child.key])
      rwa [List.append_assoc, List.singleton_append] at hrest

/-- From the state in which a library is entered, its references are
visited and it is left. -/
theorem simulates_entered {depth : Nat}
    (hvisit : ∀ p frame below child pending, frame.pending = child :: pending →
      Simulates load (p.within (frame :: below) roots)
        (fun q => q.within (need child.key ({ frame with pending } :: below)) roots)
        (visit load depth p child))
    (p : Progress) (frames : List Frame) (id : LibraryId) (artifact : Artifact) :
    Simulates load ((p.within frames roots).entered id artifact)
      (fun q => q.within (need id.key frames) roots)
      (artifact.libraryIds.foldlM (visit load depth) (p.begin id) >>= fun q =>
        pure (q.record id artifact)) := by
  refine (simulates_children hvisit (p.begin id) ⟨id, artifact, artifact.libraryIds, []⟩
    frames).bind fun q _ => ?_
  let frame : Frame := ⟨id, artifact, [], artifact.libraryIds.map LibraryId.key⟩
  have hleave : Move load (q.within (frame :: frames) roots)
      ((q.within (frame :: frames) roots).leave frame frames) := .leave rfl rfl
  exact Relation.ReflTransGen.single hleave

/-- The next reference of the last library under way. -/
theorem simulates_child (depth : Nat) (p : Progress) (frame : Frame) (below : List Frame)
    (child : LibraryId) (pending : List LibraryId) (hpending : frame.pending = child :: pending) :
    Simulates load (p.within (frame :: below) roots)
      (fun q => q.within (need child.key ({ frame with pending } :: below)) roots)
      (visit load depth p child) := by
  induction depth generalizing p frame below child pending with
  | zero => trivial
  | succ depth ih =>
      unfold visit
      cases hmark : p.marks.get? child.key with
      | none =>
          cases hload : load child with
          | error failure => exact .failed .refl (.childFails rfl hpending hmark hload)
          | ok artifact =>
              exact (simulates_entered ih p ({ frame with pending } :: below) child
                artifact).of_reaches (.single (.enterChild rfl hpending hmark hload))
      | some mark =>
          cases mark with
          | done => exact Relation.ReflTransGen.single (.share rfl hpending hmark)
          | underway => exact .failed .refl (.circular rfl hpending hmark)

/-- The next root. Nothing is under way before it, so it cannot be circular. -/
theorem simulates_root (load : Loader) (depth : Nat) (p : Progress) (id : LibraryId)
    (hmarked : Marked (p.within [] (id :: roots))) :
    Simulates load (p.within [] (id :: roots)) (fun q => q.within [] roots)
      (visit load depth p id) := by
  cases depth with
  | zero => trivial
  | succ depth =>
      unfold visit
      cases hmark : p.marks.get? id.key with
      | none =>
          have hnew : p.marks.get? id.key ≠ some .done := by simp [hmark]
          cases hload : load id with
          | error failure => exact .failed .refl (.rootFails rfl rfl hnew hload)
          | ok artifact =>
              exact (simulates_entered (simulates_child depth) p [] id artifact).of_reaches
                (.single (.enterRoot rfl rfl hnew hload))
      | some mark =>
          cases mark with
          | done => exact Relation.ReflTransGen.single (.skip rfl rfl hmark)
          | underway => exact absurd ((hmarked.underway _).mp hmark) List.not_mem_nil

theorem simulates_roots (load : Loader) (depth : Nat) (p : Progress)
    (hmarked : Marked (p.within [] roots)) :
    Simulates load (p.within [] roots) (fun q => q.within [] [])
      (roots.foldlM (visit load depth) p) := by
  induction roots generalizing p with
  | nil => exact Relation.ReflTransGen.refl
  | cons id roots ih =>
      rw [List.foldlM_cons]
      have hroot := simulates_root load depth p id hmarked
      refine hroot.bind fun q hcall => ?_
      rw [hcall] at hroot
      exact ih q (hmarked.reaches hroot)

/-- The traversal ends as the recursion does. -/
theorem ends_of_recursion {depth : Nat} {outcome : Traversal.Outcome}
    (h : outcome? (roots.foldlM (visit load depth) .empty) = some outcome) :
    Ends load (.start roots) outcome := by
  have hsimulates := simulates_roots load depth .empty (Marked.start roots)
  match hcall : roots.foldlM (visit load depth) .empty, hsimulates with
  | .ok p, hsimulates =>
      rw [hcall] at h
      obtain rfl := Option.some.inj h
      exact .finished hsimulates rfl rfl
  | .error (.failed loads failure), hsimulates =>
      rw [hcall] at h
      obtain rfl := Option.some.inj h
      exact hsimulates
  | .error .tooDeep, _ =>
      rw [hcall] at h
      cases h

/-! ## The depth of the recursion -/

open Loader (Reachable ReachesWithin FiniteReach)
open Traversal (unmarked)

/-- A call is not cut off, and takes no mark away. -/
def Settles (keys : List String) (p : Progress) (call : Except Halt Progress) : Prop :=
  call ≠ .error .tooDeep ∧ ∀ q, call = .ok q → unmarked keys q.marks ≤ unmarked keys p.marks

theorem settles_list {keys : List String} {depth : Nat}
    (hvisit : ∀ p id, Reachable load roots id → unmarked keys p.marks < depth →
      Settles keys p (visit load depth p id))
    (ids : List LibraryId) (hids : ∀ id ∈ ids, Reachable load roots id) (p : Progress)
    (hdepth : unmarked keys p.marks < depth) :
    Settles keys p (ids.foldlM (visit load depth) p) := by
  induction ids generalizing p with
  | nil =>
      refine ⟨fun h => (by cases h), fun q hq => ?_⟩
      obtain rfl := Except.ok.inj hq
      exact Nat.le_refl _
  | cons id ids ih =>
      rw [List.foldlM_cons]
      have hhead := hvisit p id (hids id (List.mem_cons_self ..)) hdepth
      cases hcall : visit load depth p id with
      | error halt =>
          rw [hcall] at hhead
          exact ⟨hhead.1, fun q hq => (by cases hq)⟩
      | ok q =>
          have hle := hhead.2 q hcall
          obtain ⟨hdeep, hmarks⟩ := ih (fun other hother => hids other (List.mem_cons_of_mem _ hother)) q
            (Nat.lt_of_le_of_lt hle hdepth)
          exact ⟨hdeep, fun r hr => (hmarks r hr).trans hle⟩

/-- A call inside another has one key less to mark. -/
theorem visit_not_too_deep {keys : List String} (hkeys : ReachesWithin load roots keys)
    (depth : Nat) (p : Progress) (id : LibraryId) (hid : Reachable load roots id)
    (hdepth : unmarked keys p.marks < depth) : Settles keys p (visit load depth p id) := by
  induction depth generalizing p id with
  | zero => omega
  | succ depth ih =>
      unfold visit
      cases hmark : p.marks.get? id.key with
      | some mark =>
          cases mark with
          | done =>
              refine ⟨fun h => (by cases h), fun q hq => ?_⟩
              obtain rfl := Except.ok.inj hq
              exact Nat.le_refl _
          | underway => exact ⟨fun h => (by cases h), fun q hq => (by cases hq)⟩
      | none =>
          cases hload : load id with
          | error failure => exact ⟨fun h => (by cases h), fun q hq => (by cases hq)⟩
          | ok artifact =>
              have hfewer : unmarked keys (p.begin id).marks < unmarked keys p.marks :=
                Traversal.unmarked_insert_lt (hkeys id hid) hmark .underway
              have hlist := settles_list ih artifact.libraryIds
                (fun child hchild => .link hid hload hchild) (p.begin id) (by omega)
              show Settles keys p (artifact.libraryIds.foldlM (visit load depth) (p.begin id) >>=
                fun q => pure (q.record id artifact))
              cases hcall : artifact.libraryIds.foldlM (visit load depth) (p.begin id) with
              | error halt =>
                  rw [hcall] at hlist
                  exact ⟨hlist.1, fun q hq => (by cases hq)⟩
              | ok q =>
                  refine ⟨fun h => (by cases h), fun r hr => ?_⟩
                  obtain rfl := Except.ok.inj hr
                  have hle := hlist.2 q hcall
                  have hrecord : unmarked keys (q.record id artifact).marks ≤ unmarked keys q.marks :=
                    Traversal.unmarked_insert_le keys q.marks id.key .done
                  omega

theorem recursion_ends {keys : List String} (hkeys : ReachesWithin load roots keys) {depth : Nat}
    (hdepth : keys.length < depth) :
    ∃ outcome, outcome? (roots.foldlM (visit load depth) .empty) = some outcome := by
  have hall : unmarked keys Progress.empty.marks ≤ keys.length := List.countP_le_length
  have hsettles := settles_list (visit_not_too_deep hkeys depth) roots (fun id hid => .root hid)
    .empty (by omega)
  match hcall : roots.foldlM (visit load depth) .empty, hsettles with
  | .ok p, _ => exact ⟨_, rfl⟩
  | .error (.failed loads failure), _ => exact ⟨_, rfl⟩
  | .error .tooDeep, hsettles => exact absurd rfl hsettles.1

end Recursive

/-! ## Resolutions -/

/-- **Refinement of the recursion.** With finitely many keys in reach, a
resolution makes the loads of the recursion in the same order, and has the
same libraries in the same order or the same failure. -/
theorem resolve_eq_recursive {load : Loader} {links : LinkReferences}
    (hfinite : Loader.FiniteReach load links.libraryIds) :
    ∃ bound, ∀ steps depth disambiguate, bound ≤ steps → bound ≤ depth →
      Recursive.resolve load depth disambiguate links =
        some (resolve load steps disambiguate links) := by
  obtain ⟨keys, hkeys⟩ := hfinite
  obtain ⟨cost, hcost⟩ := Loader.exists_cost hkeys
  refine ⟨(cost + 2) * keys.length + links.libraryIds.length + 1,
    fun steps depth disambiguate hsteps hdepth => ?_⟩
  obtain ⟨outcome, hrun⟩ := Traversal.visit_runs hkeys hcost hsteps
  have hlength : keys.length ≤ (cost + 2) * keys.length := Nat.le_mul_of_pos_left _ (by omega)
  obtain ⟨other, hother⟩ := Recursive.recursion_ends hkeys (show keys.length < depth by omega)
  obtain rfl := (Traversal.ends_of_run hrun).unique (Recursive.ends_of_recursion hother)
  simp only [Recursive.resolve, hother, Option.map_some, resolve, Traversal.visit_ends hrun]

/-- Of two libraries that a contract needs, one refers to a third that cannot be loaded. -/
def Loader.broken : Loader := Loader.ofCodes [
  (⟨"a.sol", "A"⟩, [], [("b.sol", [("B", [])]), ("c.sol", [("C", [])])]),
  (⟨"b.sol", "B"⟩, [], []),
  (⟨"c.sol", "C"⟩, [], [("b.sol", [("B", [])]), ("d.sol", [("D", [])])])]

theorem resolve_eq_recursive_broken :
    ∃ bound, ∀ steps depth disambiguate, bound ≤ steps → bound ≤ depth →
      Recursive.resolve .broken depth disambiguate [("a.sol", [("A", [])])] =
        some (resolve .broken steps disambiguate [("a.sol", [("A", [])])]) := by
  let ids : List LibraryId := [⟨"a.sol", "A"⟩, ⟨"b.sol", "B"⟩, ⟨"c.sol", "C"⟩, ⟨"d.sol", "D"⟩]
  have hroots : ∀ id ∈ [(⟨"a.sol", "A"⟩ : LibraryId)], id ∈ ids := by decide
  exact resolve_eq_recursive (.of_closed hroots (by decide))

/-- The loads end with the library that fails, and nothing is loaded twice. -/
example : (Recursive.resolve .broken 4 true [("a.sol", [("A", [])])]).map Resolution.loads =
    some [⟨"a.sol", "A"⟩, ⟨"b.sol", "B"⟩, ⟨"c.sol", "C"⟩, ⟨"d.sol", "D"⟩] := by rfl

end SolDeployer
