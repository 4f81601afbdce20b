import SolDeployer.Artifact.Reader
import SolDeployer.Platform.Lookup
import SolDeployer.Prediction

/-!
# Projects

The deployers of the contracts of one project. Artifacts are read once
and kept, also for the contracts that follow, so a contract that was
generated stays as it is whatever happens on the disk. In a batch, what
concerns one contract only is kept as its failure and the batch goes on.
-/

namespace SolDeployer

-- the plain ones, whatever other instances are around
attribute [local instance(high)] instPowNat Zero.ofOfNat0

/-- What an artifact is asked for by: the name of the contract, and the
file that declares it if it is known. -/
structure ArtifactKey where
  contract : String
  source? : Option String
  deriving Repr, DecidableEq, Inhabited

/-- A project, what the user chose, and what was made of it so far. -/
structure Project where
  platform : Platform
  solc : Json
  pragma : String
  metadata : Bool
  disambiguate : Bool
  artifacts : Entries ArtifactKey Artifact
  libraries : Entries String (List Resolved)
  deployers : Entries String String
  failures : Entries String Failure
  deriving Inhabited

namespace Project

/-! ## Beginning -/

/-- A project before anything is made of it. -/
def start (platform : Platform) (options : Json.Fields) : Project where
  platform := platform
  solc := options.getD "solc"
  pragma := ((options.getD "pragma").orElse (.str Deployer.defaultPragma)).text
  metadata := (options.getD "no_metadata").isBlank
  disambiguate := (options.getD "no_disambiguate").isBlank
  artifacts := []
  libraries := []
  deployers := []
  failures := []

/-- The first kind of platform that a path belongs to. -/
def supporting? (disk : Files.Disk) (target : String) :
    List Platform.Kind → Except Failure (Option Platform.Kind)
  | [] => .ok none
  | kind :: rest => do
    if ← Platform.isSupported kind disk target then return some kind
    else supporting? disk target rest

/-- The kind of platform that the user named, or else one that the target
belongs to, or else the first one. -/
def chooseKind (target : String) (options : Json.Fields) : Action Platform.Kind := do
  let named? ← match (options.getD "framework").orElse .null with
    | .null => pure none
    | .str name => pure (Platform.Kind.ofName? name)
    | _ => Action.fail .unexpectedType
  match named? with
  | some kind => return kind
  | none =>
    return (← Action.inspect fun disk => supporting? disk target Platform.Kind.all).getD .foundry

/-- Begin with a platform, and build it if the user wants that. -/
def openPlatform (platform : Platform) (options : Json.Fields) : Action Project := do
  if !(options.getD "build").isBlank then
    Action.tell (.building platform.kind.name)
    platform.build
  return start platform options

/-- Begin with the project at a path. -/
def openTarget (target : Json) (options : Json.Fields) : Action Project := do
  match target with
  | .str target =>
    let kind ← chooseKind target options
    openPlatform (← Platform.atTarget kind target options) options
  | _ => Action.fail .unexpectedType

/-! ## Artifacts -/

/-- The artifact for a key, as it was kept or from the disk. -/
def artifact (project : Project) (disk : Files.Disk) (key : ArtifactKey) :
    Except Failure Artifact :=
  match project.artifacts.get? key with
  | some artifact => .ok artifact
  | none => do
    let text ← project.platform.lookUp disk key.contract key.source? project.solc
    Artifact.read (.text text) key.contract project.platform.host

def keep (project : Project) (key : ArtifactKey) (artifact : Artifact) : Project :=
  { project with artifacts := project.artifacts.insert key artifact }

/-- The artifact for a key, and the project with the artifact kept. -/
def load (project : Project) (disk : Files.Disk) (key : ArtifactKey) :
    Except Failure Artifact × Project :=
  match project.artifact disk key with
  | .ok artifact => (.ok artifact, project.keep key artifact)
  | .error failure => (.error failure, project)

/-- The key that the artifact of a library is asked for by. -/
def libraryKey (id : LibraryId) : ArtifactKey := ⟨id.name, some id.file⟩

/-- The artifacts of libraries. -/
def loader (project : Project) (disk : Files.Disk) : Loader := fun id =>
  project.artifact disk (libraryKey id)

def keepLibraries (project : Project) (disk : Files.Disk) (ids : List LibraryId) : Project :=
  ids.foldl (fun project id => (project.load disk (libraryKey id)).2) project

/-! ## Generation -/

/-- How many steps a resolution may take. The libraries in reach are named
in the artifacts that are kept or in files, and a name takes a byte of a
file at least. -/
def resolutionSteps (project : Project) (disk : Files.Disk) (links : LinkReferences) : Nat :=
  let kept := (project.artifacts.map fun (_, artifact) => artifact.libraryIds.length).sum
  (disk.size + kept + links.libraryIds.length + 2) ^ (2 : Nat)

/-- Does a contract need libraries to be deployed along? -/
def needsLibraries (artifact : Artifact) : Bool :=
  artifact.hasBytecode && !artifact.links.isEmpty

/-- The libraries of a contract, and the project with their artifacts
kept. -/
def resolveLibraries (project : Project) (disk : Files.Disk) (artifact : Artifact) :
    Report (List Resolved) × Project :=
  if !needsLibraries artifact then (pure [], project)
  else
    let resolution := resolve (project.loader disk)
      (project.resolutionSteps disk artifact.links) project.disambiguate artifact.links
    let project := project.keepLibraries disk resolution.loads
    match resolution.result with
    | .error failure => (.fail failure, project)
    | .ok libraries =>
      (⟨[.resolved artifact.contract (libraries.map (·.id.name))], .ok libraries⟩, project)

/-- Generate the deployer of a contract whose artifact is read and whose
libraries are resolved. -/
def deploy (project : Project) (contract : String) (artifact : Artifact)
    (libraries : List Resolved) : Report String × Project :=
  let project := { project with libraries := project.libraries.insert contract libraries }
  let report := Deployer.generate artifact
    { pragma := project.pragma, libraries, metadata := project.metadata }
  match report.result with
  | .ok source =>
    (report, { project with deployers := project.deployers.insert contract source })
  | .error _ => (report, project)

/-- Generate the deployer of a contract. -/
def generate (project : Project) (disk : Files.Disk) (contract : String) :
    Report String × Project :=
  match project.load disk ⟨contract, none⟩ with
  | (.error failure, project) => (.fail failure, project)
  | (.ok artifact, project) =>
    match project.resolveLibraries disk artifact with
    | (⟨notices, .error failure⟩, project) => (⟨notices, .error failure⟩, project)
    | (⟨notices, .ok libraries⟩, project) =>
      let (report, project) := project.deploy contract artifact libraries
      (⟨notices ++ report.notices, report.result⟩, project)

/-- Generate the deployers of a batch of contracts. A failure that concerns
one contract is kept; any other one ends the batch. -/
def generateEach (project : Project) (disk : Files.Disk) : List String → Report Unit × Project
  | [] => (pure (), project)
  | contract :: rest =>
    match project.generate disk contract with
    | (⟨notices, .ok _⟩, project) =>
      let (report, project) := generateEach project disk rest
      (⟨notices ++ report.notices, report.result⟩, project)
    | (⟨notices, .error failure⟩, project) =>
      if failure.concernsContract then
        let project := { project with failures := project.failures.insert contract failure }
        let (report, project) := generateEach project disk rest
        (⟨notices ++ [.contractFailed contract failure] ++ report.notices, report.result⟩, project)
      else (⟨notices, .error failure⟩, project)

/-- The deployers of some contracts, of those that have one. -/
def deployersOf (project : Project) (contracts : List String) : Entries String String :=
  Entries.ofList <| contracts.filterMap fun contract =>
    (project.deployers.get? contract).map (contract, ·)

/-- Generate the deployers of a batch of contracts: those that there are
now, also from earlier on. -/
def generateAll (project : Project) (disk : Files.Disk) (contracts : List String) :
    Report (Entries String String) × Project :=
  let (report, project) := project.generateEach disk contracts
  (⟨report.notices, report.result.map fun _ => project.deployersOf contracts⟩, project)

/-- The libraries of a contract for which a deployer was generated. -/
def librariesOf (project : Project) (contract : String) : List Resolved :=
  (project.libraries.get? contract).getD []

/-! ## Export -/

/-- Write a text to a file, and tell of it. -/
def writeFile (path text : String) : Action Unit := do
  Action.change fun disk => disk.writeText path text.toList
  Action.tell (.written path)

/-- Make a directory unless something is there already. -/
def ensureDirectory (path : String) : Action Unit :=
  Action.change fun disk =>
    if (disk.lookUp? path).isSome then (disk, .ok ())
    else
      match disk.makeDirectories path with
      | (disk, .made) => (disk, .ok ())
      | (disk, .alreadyThere) => (disk, .error .fileSystem)
      | (disk, .failed cause) => (disk, .error cause)

/-- Write the helper unless something is there already; the files that are
written. -/
def exportHelper (directory : String) : Action (List String) := do
  let path := Files.joinTexts directory Solidity.DeployHelper.fileName
  if (← Action.inspect fun disk => .ok (disk.lookUp? path)).isSome then return []
  writeFile path Solidity.DeployHelper.source
  return [path]

/-- Write deployers to files in a directory; the files that are written. -/
def exportEach (directory : String) : List (String × String) → Action (List String)
  | [] => pure []
  | (contract, source) :: rest => do
    let path := Files.joinTexts directory (deployerOf contract ++ ".sol")
    writeFile path source
    return path :: (← exportEach directory rest)

/-- Write the deployers and their helper to files in a directory; the files
that are written. -/
def exportTo (project : Project) (directory : Json) : Action (List String) := do
  match directory with
  | .str directory =>
    let helpers := Files.joinTexts directory "utils"
    ensureDirectory helpers
    return (← exportHelper helpers) ++ (← exportEach directory project.deployers)
  | _ => Action.fail .unexpectedType

end Project

end SolDeployer
