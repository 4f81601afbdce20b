import SolDeployer.CommandLine.Arguments
import SolDeployer.Project

/-!
# The command line

A run of the program: read the arguments and the file of options, generate
the deployers, write them to files and tell where the libraries go.
-/

namespace SolDeployer.CommandLine

/-- How a run ends: the exit code, and what is printed. -/
structure Exit where
  code : Nat
  output : String
  deriving Repr, DecidableEq

def version : String := "0.1.0"

/-- The value of an action, or the failure that it ended with. -/
def attempt {α : Type} (action : Action α) : Action (Except Failure α) := fun workspace =>
  match action workspace with
  | (report, workspace) => (⟨report.notices, .ok report.result⟩, workspace)

def doAll : List (Action Unit) → Action Unit
  | [] => pure ()
  | action :: rest => do
    action
    doAll rest

/-- The settings of a command line, with those of the file of options put
in where there is one. -/
def readOptions (request : Request) : Action Json.Fields := do
  match request.file with
  | .str file =>
    let found ← Action.look fun workspace => .ok (workspace.disk.lookUp? file)
    match found with
    | some (.file _) =>
      let text ← Action.inspect (·.readText file)
      match Json.read text with
      | .error .integerTooLong => Action.fail .integerTooLong
      | .error .tooDeep => Action.fail .tooManySteps
      | .error _ =>
        Action.tell (.unreadableOptions file)
        return request.settings
      | .ok (.obj fields) =>
        let (settings, unknown) := Settings.merge request.settings fields
        doAll (unknown.map fun (key, value) => Action.tell (.unknownOption file key value.text))
        return settings
      | .ok _ => Action.fail .unexpectedType
    | _ => return request.settings
  | _ => Action.fail .unexpectedType

/-- Is a failure taken for an address that makes no sense? A name without
bytes and a number with too many digits are, too. -/
def isBadAddress : Failure → Bool
  | .create2 _ | .addressSize .. | .undecodable | .integerTooLong => true
  | _ => false

/-- Tell where the libraries of some contracts go: `false` if the deployer
makes no sense as an address. -/
def tellPlaces (project : Project) (deployer : Json) : List String → Action Bool
  | [] => pure true
  | contract :: rest =>
    match project.librariesOf contract with
    | [] => tellPlaces project deployer rest
    | libraries => do
      match ← attempt (Action.report (predict deployer libraries)) with
      | .ok addresses =>
        doAll (addresses.map fun (identifier, place) =>
          Action.tell (.placed contract identifier place))
        tellPlaces project deployer rest
      | .error failure =>
        if isBadAddress failure then
          Action.tell (.badDeployer deployer.text failure)
          return false
        else Action.fail failure

/-- Generate the deployers of some contracts and write them to files: is
everything as it should be? -/
def deployAll (project : Project) (contracts : List String) (settings : Json.Fields) :
    Action Bool := do
  let disk ← Action.look fun workspace => .ok workspace.disk
  let (report, project) := project.generateAll disk contracts
  discard (Action.report report)
  discard (project.exportTo (settings.getD "export_dir"))
  let deployer := settings.getD "deployer"
  let placed ←
    if deployer.isBlank then pure true
    else tellPlaces project deployer (project.deployers.map Prod.fst)
  return placed && project.failures.isEmpty

def perform (request : Request) : Action Exit := do
  let settings ← readOptions request
  match ← attempt (Project.openTarget (settings.getD "target") settings) with
  | .error failure =>
    if failure.concernsContract then
      Action.tell (.failed failure)
      return ⟨1, ""⟩
    else Action.fail failure
  | .ok project =>
    return ⟨if ← deployAll project request.contracts settings then 0 else 1, ""⟩

/-- Run the program with some arguments. -/
def run (words : List String) : Action Exit :=
  match readArguments words with
  | .ok request => perform request
  | .error .usage => pure ⟨2, ""⟩
  | .error .nothingToDo => pure ⟨1, ""⟩
  | .error .help => pure ⟨0, ""⟩
  | .error .version => pure ⟨0, version ++ "\n"⟩
  | .error .platforms => do
    Action.tell (.platforms (Platform.Kind.all.map fun kind => (kind.info.name, kind.info.url)))
    return ⟨0, ""⟩

end SolDeployer.CommandLine
