import SolDeployer.Files.Disk
import SolDeployer.Notice

/-!
# Workspaces

The disk and the build tools that an operation works with. An action
tells what it does, may fail, and leaves the workspace in a new state;
what it changed before a failure stays changed.
-/

namespace SolDeployer

/-- What a tool does for one command: what it prints, how it exits, and
the files it writes in the directory where it runs. -/
structure ToolRun where
  stdout : List UInt8
  stderr : List UInt8
  exit : Int
  files : List (String × List UInt8)
  deriving Repr, Inhabited

/-- A disk, and the tools by the commands that they understand. -/
structure Workspace where
  disk : Files.Disk
  tools : Entries String ToolRun
  deriving Repr, Inhabited

namespace Workspace

def toolOf (command : String) : String := String.ofList (command.toList.takeWhile (· ≠ ' '))

def hasTool (workspace : Workspace) (tool : String) : Bool :=
  workspace.tools.any fun (command, _) => toolOf command == tool

/-- What a tool does for a command. For one that it does not understand it
prints nothing and exits with 127. -/
def runOf (workspace : Workspace) (command : String) : ToolRun :=
  (workspace.tools.get? command).getD ⟨[], [], 127, []⟩

end Workspace

def Action (α : Type) : Type := Workspace → Report α × Workspace

namespace Action

variable {α β : Type}

/-- One action after another; the second does not begin if the first
fails. -/
def bind (first : Action α) (next : α → Action β) : Action β := fun workspace =>
  match first workspace with
  | (⟨notices, .error failure⟩, workspace) => (⟨notices, .error failure⟩, workspace)
  | (⟨notices, .ok value⟩, workspace) =>
    match next value workspace with
    | (report, workspace) => (⟨notices ++ report.notices, report.result⟩, workspace)

instance : Monad Action where
  pure value := fun workspace => (⟨[], .ok value⟩, workspace)
  bind := bind

def report (report : Report α) : Action α := fun workspace => (report, workspace)

def tell (notice : Notice) : Action Unit := report (.tell [notice])

def fail (failure : Failure) : Action α := report (.fail failure)

def look (question : Workspace → Except Failure α) : Action α := fun workspace =>
  (.ofExcept (question workspace), workspace)

def inspect (question : Files.Disk → Except Failure α) : Action α :=
  look fun workspace => question workspace.disk

def change (operation : Files.Disk → Files.Disk × Except Failure α) : Action α := fun workspace =>
  match operation workspace.disk with
  | (disk, result) => (.ofExcept result, { workspace with disk })

/-- Run a command in a directory. The tool writes its files there. -/
def runCommand (words : List String) (directory : String) : Action ToolRun := do
  let command := " ".intercalate words
  tell (.running command)
  fun workspace =>
    match workspace.disk.locate directory with
    | .error .badCharacter => (.fail .badPath, workspace)
    | .error _ => (.fail .fileSystem, workspace)
    | .ok place =>
      if !workspace.disk.isDirectory place then (.fail .fileSystem, workspace)
      else
        let run := workspace.runOf command
        let disk := run.files.foldl
          (fun disk (path, content) =>
            disk.putFile (Files.Disk.resolveNames place (Files.Path.ofText path).parts) content)
          workspace.disk
        (⟨[], .ok run⟩, { workspace with disk })

/-- Run a build in a directory. What it prints on its error stream is told
only if it succeeds, and is part of the failure otherwise. -/
def runBuild (words : List String) (directory : String) : Action Unit := do
  let tool := words.headD ""
  if !(← look fun workspace => .ok (workspace.hasTool tool)) then fail (.noTool tool)
  let run ← runCommand words directory
  let errors := String.ofList (Text.Utf8.decodeEscaping run.stderr)
  if !run.stdout.isEmpty then
    tell (.output (String.ofList (Text.Utf8.decodeEscaping run.stdout)))
  if run.exit ≠ 0 then fail (.toolFailed (" ".intercalate words) errors)
  if !run.stderr.isEmpty then tell (.errorOutput errors)

end Action

end SolDeployer
