import SolDeployer.Host
import SolDeployer.Json.Encoding
import SolDeployer.Platform.Kind
import SolDeployer.Workspace

/-!
# Platforms

A project on the disk as a build tool sees it: where it begins and where
its artifacts are.
-/

namespace SolDeployer

/-- A project of some kind. The target is the path that the user gave, and
the host is where the artifacts are read. -/
structure Platform where
  kind : Platform.Kind
  target : String
  root : Files.Path
  artifacts : Files.Path
  npxDisabled : Bool
  host : Host
  deriving Inhabited

namespace Platform

/-! ## Where a project begins -/

def firstWith (test : Files.Path → Except Failure Bool) :
    List Files.Path → Except Failure (Option Files.Path)
  | [] => .ok none
  | path :: rest => do if ← test path then return some path else firstWith test rest

/-- Is there a file of one of these names in a directory? -/
def hasAnyFile (disk : Files.Disk) (names : List String) (path : Files.Path) :
    Except Failure Bool :=
  match names with
  | [] => .ok false
  | name :: rest => do
    if ← disk.hasFile (path.child name) then return true else hasAnyFile disk rest path

/-- The directory with the settings of a project that a path belongs to:
the path itself or the nearest one around it. -/
def locateRoot (kind : Kind) (disk : Files.Disk) (target : String) :
    Except Failure (Option Files.Path) := do
  let path ← disk.resolve (.ofText target)
  let isProject := hasAnyFile disk kind.settingsFiles
  match kind with
  | .hardhat => firstWith isProject (path :: path.parents)
  | .foundry =>
    if ← disk.hasDirectory path then
      if ← isProject path then return some path
    firstWith isProject path.parents

/-- Does a path belong to a project of a kind? -/
def isSupported (kind : Kind) (disk : Files.Disk) (target : String) : Except Failure Bool :=
  (locateRoot kind disk target).map Option.isSome

/-! ## Where the artifacts are -/

/-- The directory for artifacts that a project is configured with. The
tool is asked for it if it is there; if its answer cannot be read, the
usual directory is taken. -/
def configuredOut (directory : String) : Action Json := do
  let usual := Json.str "out"
  if !(← Action.look fun workspace => .ok (workspace.hasTool "forge")) then return usual
  let settings := (Files.Path.ofText directory).child "foundry.toml"
  if !(← Action.inspect (·.hasFile settings)) then return usual
  let run ← Action.runCommand ["forge", "config", "--json"] directory
  if run.exit ≠ 0 then
    Action.tell .unreadableProject
    return usual
  match Json.readBytes run.stdout with
  | .error .undecodable => Action.fail .undecodable
  | .error .integerTooLong => Action.fail .integerTooLong
  | .error .tooDeep => Action.fail .tooManySteps
  | .error .malformed =>
    Action.tell .unreadableProject
    return usual
  | .ok (.obj fields) => return ((Entries.get? fields "out").getD usual).orElse usual
  | .ok _ => Action.fail .unexpectedType

/-- The project at a path, with the directory for artifacts that the user
chose or, if this is blank, the one of the kind. -/
def atTarget (kind : Kind) (target : String) (options : Json.Fields) : Action Platform := do
  let located ← Action.inspect fun disk => locateRoot kind disk target
  let root ← match located with
    | some root => pure root
    | none => Action.inspect (·.resolve (.ofText target))
  let chosen := options.getD "out_directory"
  let directory ←
    if !chosen.isBlank then pure chosen
    else
      match kind with
      | .foundry => configuredOut root.text
      | .hardhat => pure (.str "artifacts")
  match directory with
  | .str directory =>
    return {
      kind, target, root
      artifacts := root.join (.ofText directory)
      npxDisabled := !(options.getD "npx_disable").isBlank
      host := .usual }
  | _ => Action.fail .unexpectedType

/-- Build the project with its tool. -/
def build (platform : Platform) : Action Unit :=
  let command := match platform.kind, platform.npxDisabled with
    | .foundry, _ => ["forge", "build"]
    | .hardhat, true => ["hardhat", "compile"]
    | .hardhat, false => ["npx", "hardhat", "compile"]
  Action.runBuild command platform.root.text

end Platform

end SolDeployer
