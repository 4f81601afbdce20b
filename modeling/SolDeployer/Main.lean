import SolDeployer.CommandLine

/-!
# The program

Standard input holds the files of the project: a JSON object from paths to
texts. What the run prints, and then the files that it wrote, go to
standard output; what it tells on the way goes to the error stream.
-/

namespace SolDeployer

/-- The directory that a run begins in. -/
def startDirectory : Files.Place := ["project"]

/-- A workspace with the files of an object from paths to texts. There are
no tools. -/
def Workspace.ofFiles (files : Json.Fields) : Workspace where
  disk :=
    files.foldl
      (fun disk (path, content) =>
        disk.putFile (Files.Disk.resolveNames startDirectory (Files.Path.ofText path).parts)
          (Text.Utf8.encode content.text.toList))
      { nodes := [(startDirectory, .directory)], current := startDirectory }
  tools := []

/-- The files on a disk that are not the same on another one: paths from the
start directory, and contents. -/
def Files.Disk.changedSince (disk before : Files.Disk) : List (String × List UInt8) :=
  (disk.filesFrom []).filterMap fun place =>
    match disk.node? place with
    | some (.file content) =>
      if before.node? place == some (.file content) then none
      else some ("/".intercalate (place.drop startDirectory.length), content)
    | _ => none

/-- A written file as it is printed: a line with its path, and its text. -/
def printedFile (path : String) (content : List UInt8) : String :=
  "==> " ++ path ++ " <==\n" ++ String.ofList (Text.Utf8.decodeEscaping content) ++ "\n"

def Level.name : Level → String
  | .info => "INFO"
  | .warning => "WARNING"
  | .error => "ERROR"

/-- What a run of the program prints on the two streams, and its exit code.
A failure that is not about one contract ends with 1. -/
def runOn (files : Json.Fields) (words : List String) : String × String × Nat :=
  let workspace := Workspace.ofFiles files
  let (report, after) := CommandLine.run words workspace
  let written := (after.disk.changedSince workspace.disk).map fun (path, content) =>
    printedFile path content
  let told := report.notices.map fun notice =>
    notice.level.name ++ ": " ++ notice.message ++ "\n"
  match report.result with
  | .ok ending => (String.join (ending.output :: written), String.join told, ending.code)
  | .error failure => (String.join written, String.join told ++ failure.message ++ "\n", 1)

end SolDeployer

partial def readAll (stream : IO.FS.Stream) (before : String) : IO String := do
  let line ← stream.getLine
  if line.isEmpty then return before else readAll stream (before ++ line)

/-- Read the files, run, and print. -/
def main (words : List String) : IO UInt32 := do
  let input ← readAll (← IO.getStdin) ""
  let files := match SolDeployer.Json.read input.toList with
    | .ok (.obj fields) => fields
    | _ => []
  let (printed, told, code) := SolDeployer.runOn files words
  (← IO.getStderr).putStr told
  (← IO.getStdout).putStr printed
  return code.toUInt32
