import SolDeployer.Artifact
import SolDeployer.Failure

/-!
# Resolution

The libraries that a contract needs, directly or through others, each
after the libraries that it needs itself: the order of deployment.

The libraries are visited depth first along the link references. The
visit is a sequence of steps on one value that holds the marks of the
libraries, those under way, those that are done, and those left to visit.
A library that is met again while it is under way calls itself through
others, and then there is no order.

Nothing bounds the libraries that a loader may offer, so a run is given
the most steps that it may take. With `n` libraries in reach that list
`m` references between them, and `r` references of the contract, a run
ends within `2 * n + m + r + 1` steps.
-/

namespace SolDeployer

/-- A way to find the artifact of a library. -/
abbrev Loader := LibraryId → Except Failure Artifact

/-- A library that is done: the keys of the libraries it needs, in the
order of its link references. -/
structure Visited where
  id : LibraryId
  artifact : Artifact
  needs : List String
  deriving Inhabited, Repr

/-- A library under way: the libraries it needs that are left to visit,
and the keys of those that are done. -/
structure Frame where
  id : LibraryId
  artifact : Artifact
  pending : List LibraryId
  needs : List String
  deriving Inhabited, Repr

/-- How far the visit of a library is. -/
inductive Mark where
  | underway
  | done
  deriving Repr, DecidableEq

/-- The state of a visit. The frames under way begin with the last one
entered; the libraries done and the loads are in the order in which they
came. -/
structure Traversal where
  marks : Entries String Mark
  frames : List Frame
  done : List Visited
  loads : List LibraryId
  roots : List LibraryId
  deriving Inhabited, Repr

namespace Traversal

/-- What a step leads to. -/
inductive Step where
  | next (traversal : Traversal)
  | finished
  | failed (loads : List LibraryId) (failure : Failure)

/-- The visit of some libraries before it begins. -/
def start (roots : List LibraryId) : Traversal := ⟨[], [], [], [], roots⟩

/-- Mark a library and load it. -/
def enter (load : Loader) (t : Traversal) (id : LibraryId) : Step :=
  match load id with
  | .error failure => .failed (t.loads ++ [id]) failure
  | .ok artifact =>
    .next { t with
      marks := t.marks.insert id.key .underway
      frames := ⟨id, artifact, artifact.libraryIds, []⟩ :: t.frames
      loads := t.loads ++ [id] }

/-- Add a key to those that the last frame needs. -/
def need (key : String) : List Frame → List Frame
  | [] => []
  | frame :: below => { frame with needs := frame.needs ++ [key] } :: below

/-- Take the last frame off as done. -/
def leave (t : Traversal) (frame : Frame) (below : List Frame) : Traversal :=
  { t with
    marks := t.marks.insert frame.id.key .done
    frames := need frame.id.key below
    done := t.done ++ [⟨frame.id, frame.artifact, frame.needs⟩] }

/-- One step of a visit. -/
def step (load : Loader) (t : Traversal) : Step :=
  match t.frames with
  | [] =>
    match t.roots with
    | [] => .finished
    | id :: roots =>
      if t.marks.get? id.key = some .done then .next { t with roots }
      else enter load { t with roots } id
  | frame :: below =>
    match frame.pending with
    | [] => .next (leave t frame below)
    | child :: pending =>
      let frame := { frame with pending }
      match t.marks.get? child.key with
      | some .underway => .failed t.loads (.circular child.key)
      | some .done => .next { t with frames := need child.key (frame :: below) }
      | none => enter load { t with frames := frame :: below } child

/-- The loads of a visit in order, and the libraries that are done or why
the visit failed. -/
structure Outcome where
  loads : List LibraryId
  result : Except Failure (List Visited)

/-- Take steps up to the end of a visit, if it ends soon enough. -/
def run? (load : Loader) : (steps : Nat) → Traversal → Option Outcome
  | 0, _ => none
  | steps + 1, t =>
    match t.step load with
    | .next t => run? load steps t
    | .finished => some ⟨t.loads, .ok t.done⟩
    | .failed loads failure => some ⟨loads, .error failure⟩

/-- Visit everything in reach of some libraries. -/
def visit (load : Loader) (steps : Nat) (roots : List LibraryId) : Outcome :=
  (run? load steps (start roots)).getD ⟨[], .error .tooManySteps⟩

end Traversal

/-! ## Names -/

/-- A library to deploy before the contracts that call it: the identifier
of the library, and those of the libraries it needs. -/
structure Resolved where
  id : LibraryId
  identifier : String
  artifact : Artifact
  needs : List String
  deriving Inhabited, Repr

namespace Naming

/-- The first index from one on whose name is not taken. So many tries are
enough that there are more of them than names that are taken. -/
def freeIndex (taken : List String) (name : String) : (tries : Nat) → (index : Nat) → Nat
  | 0, index => index
  | tries + 1, index =>
    if taken.contains (name ++ toString index) then freeIndex taken name tries (index + 1)
    else index

/-- The identifiers of libraries from the next one on. A name that others
share gets an index from the second library on; `last` has the last
index given for each name. -/
def assign (shared : List String) :
    (taken : List String) → (last : Entries String Nat) → List String → List String
  | _, _, [] => []
  | taken, last, name :: rest =>
    if !shared.contains name then name :: assign shared taken last rest
    else
      match last.get? name with
      | none => name :: assign shared taken (last.insert name 1) rest
      | some index =>
        let index := freeIndex taken name taken.length (index + 1)
        let identifier := name ++ toString index
        identifier :: assign shared (identifier :: taken) (last.insert name index) rest

def shared (names : List String) : List String := names.filter fun name => 1 < names.count name

/-- Identifiers for libraries with these names, all different. -/
def identifiers (names : List String) : List String := assign (shared names) names [] names

def smallest? : List String → Option String
  | [] => none
  | name :: rest =>
    match smallest? rest with
    | none => some name
    | some other => if other < name then some other else some name

end Naming

namespace Resolved

def key (library : Resolved) : String := library.id.key

/-- Visited libraries under their identifiers. -/
def named (visited : List Visited) (identifiers : List String) : List Resolved :=
  let names : Entries String String := (visited.map (·.id.key)).zip identifiers
  visited.zipWith
    (fun library identifier =>
      { id := library.id
        identifier
        artifact := library.artifact
        needs := library.needs.map fun key => (names.get? key).getD "" })
    identifiers

/-- Name visited libraries. If several have one name, the later ones are
renamed, or else it is a failure. -/
def ofVisited (disambiguate : Bool) (visited : List Visited) : Except Failure (List Resolved) :=
  let names := visited.map (·.id.identifier)
  match Naming.smallest? (Naming.shared names) with
  | some name =>
    if disambiguate then .ok (named visited (Naming.identifiers names))
    else
      let keys := (visited.filter (·.id.identifier == name)).map (·.id.key)
      .error (.colliding name keys)
  | none => .ok (named visited names)

end Resolved

/-- The loads of a resolution in order, and the libraries in order of
deployment or why there are none. -/
structure Resolution where
  loads : List LibraryId
  result : Except Failure (List Resolved)

/-- Resolve the libraries that link references ask for. -/
def resolve (load : Loader) (steps : Nat) (disambiguate : Bool) (links : LinkReferences) :
    Resolution :=
  let outcome := Traversal.visit load steps links.libraryIds
  ⟨outcome.loads, outcome.result.bind (Resolved.ofVisited disambiguate)⟩

end SolDeployer
