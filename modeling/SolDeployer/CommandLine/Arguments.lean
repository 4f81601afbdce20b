import SolDeployer.Settings
import SolDeployer.Text.Digit

/-!
# Arguments of the command line

The words of a command line: names of contracts and flags. A flag may be
shortened as long as only one flag begins that way, and its value may
follow in the same word after an equals sign. The names stand in one
group; after two dashes alone every word is a name.

All words are classified before the first flag takes effect, so a flag
that could be several ends everything. Unknown flags and names outside
the group are noticed only at the end: a flag that ends the run before
goes first.
-/

namespace SolDeployer.CommandLine

/-- What a flag does. -/
inductive Effect where
  /-- Give a setting the value that follows. -/
  | value (setting : String)
  /-- Turn a setting on. -/
  | switch (setting : String)
  /-- Name the file of options. -/
  | file
  | help
  | version
  | platforms
  deriving Repr, DecidableEq

def flags : List (String × Effect) :=
  [("-h", .help), ("--help", .help), ("--config-file", .file), ("--version", .version),
    ("--supported-platforms", .platforms), ("--target", .value "target"),
    ("--framework", .value "framework"), ("--out", .value "out_directory"),
    ("--build", .switch "build"), ("--npx-disable", .switch "npx_disable"),
    ("--solc", .value "solc"), ("--output", .value "export_dir"), ("--pragma", .value "pragma"),
    ("--no-metadata", .switch "no_metadata"), ("--no-disambiguate", .switch "no_disambiguate"),
    ("--deployer", .value "deployer")]

/-! ## Words -/

/-- A word of the command line. -/
inductive Word where
  /-- A name, or the value of a flag. -/
  | plain (text : String)
  /-- Two dashes alone. -/
  | separator
  /-- A flag, and the value in the same word. -/
  | flag (effect : Effect) (value : Option String)
  /-- The short flag for help with more characters after it. -/
  | shortHelp (rest : List Char)
  | unknown
  deriving Repr, DecidableEq

/-- The text before the first equals sign, and the text after it. -/
def splitValue (text : String) : String × Option String :=
  let chars := text.toList
  match chars.dropWhile (· ≠ '=') with
  | [] => (text, none)
  | _ :: value => (String.ofList (chars.takeWhile (· ≠ '=')), some (String.ofList value))

/-- Is the text a negative number? The end of a line may follow. -/
def isNegativeNumber : List Char → Bool
  | '-' :: rest =>
    let whole := rest.takeWhile Text.isDigit
    let isEnd := fun (text : List Char) => text.isEmpty || text == ['\n']
    match rest.dropWhile Text.isDigit with
    | '.' :: places =>
      !(places.takeWhile Text.isDigit).isEmpty && isEnd (places.dropWhile Text.isDigit)
    | after => !whole.isEmpty && isEnd after
  | _ => false

/-- A word that begins with a dash and is no flag. -/
def notAFlag (text : String) : Word :=
  if isNegativeNumber text.toList || text.toList.contains ' ' then .plain text else .unknown

/-- A word that begins with two dashes and is not the name of a flag:
`none` if it could be several flags. -/
def abbreviated (text : String) : Option Word :=
  let (start, value) := splitValue text
  match flags.filter fun (name, _) => start.toList.isPrefixOf name.toList with
  | [] => some (notAFlag text)
  | [(_, effect)] => some (.flag effect value)
  | _ => none

/-- What a word is: `none` if it could be several flags. -/
def classify (text : String) : Option Word :=
  match text.toList with
  | '-' :: second :: rest =>
    match Entries.get? flags text with
    | some effect => some (.flag effect none)
    | none =>
      let (name, value) := splitValue text
      match Entries.get? flags name, second with
      | some effect, '-' => some (.flag effect value)
      | _, '-' => abbreviated text
      | _, 'h' => some (.shortHelp rest)
      | _, _ => some (notAFlag text)
  | _ => some (.plain text)

/-- What the words are, up to the end or to one that could be several
flags. -/
def classifyAll : List String → Option (List Word)
  | [] => some []
  | text :: rest =>
    if text == "--" then some (.separator :: rest.map .plain)
    else
      match classify text with
      | none => none
      | some word => (classifyAll rest).map (word :: ·)

/-! ## Effects -/

/-- How the reading of a command line ends. -/
inductive Ending where
  /-- The words make no sense. -/
  | usage
  /-- There is no name of a contract. -/
  | nothingToDo
  | help
  | version
  | platforms
  deriving Repr, DecidableEq

/-- What a command line asks for. -/
structure Request where
  contracts : List String
  file : Json
  settings : Json.Fields
  deriving Repr, Inhabited

/-- What was read so far. There is something extra if a name stands outside
the group or a flag is unknown. -/
structure Reading where
  contracts : Option (List String)
  file : Json
  settings : Json.Fields
  extra : Bool
  deriving Repr, Inhabited

namespace Reading

/-- Nothing is read yet. -/
def start : Reading := ⟨none, .str Settings.usualFile, Settings.usual, false⟩

/-- What a word gives to a flag. Two dashes alone mark the end of the flags
even there, and leave an empty list of words. -/
def given (word : String) : Json := if word == "--" then .arr [] else .str word

/-- Give a flag its value. -/
def give (reading : Reading) (effect : Effect) (word : String) : Reading :=
  match effect with
  | .value setting => { reading with settings := reading.settings.insert setting (given word) }
  | .file => { reading with file := given word }
  | _ => reading

def addName (reading : Reading) (name : String) : Reading :=
  { reading with contracts := some (reading.contracts.getD [] ++ [name]) }

/-- What is asked for, if everything makes sense. -/
def finish (reading : Reading) : Except Ending Request :=
  if reading.extra then .error .usage
  else
    match reading.contracts.getD [] with
    | [] => .error .nothingToDo
    | contracts => .ok ⟨contracts, reading.file, reading.settings⟩

end Reading

/-- Do the characters after the short flag for help make sense? After an
equals sign or none there is the same flag again, once or more. -/
def isHelp : List Char → Bool
  | '=' :: rest => !rest.isEmpty && rest.all (· == 'h')
  | rest => !rest.isEmpty && rest.all (· == 'h')

/-- What the word before means for a name. -/
inductive Before where
  /-- The name stands for itself. -/
  | nothing
  /-- The group of names goes on. -/
  | group
  /-- The name is the value of a flag. -/
  | flag (effect : Effect)
  deriving Repr, DecidableEq

/-- May a name belong to the group? There is one group only. -/
def Reading.takesName (reading : Reading) (before : Before) : Bool :=
  before == .group || reading.contracts.isNone

def readWords (reading : Reading) : Before → List Word → Except Ending Request
  | .flag _, [] => .error .usage
  | _, [] => reading.finish
  | .flag effect, .plain value :: rest => readWords (reading.give effect value) .nothing rest
  | .flag _, _ :: _ => .error .usage
  | before, .plain name :: rest =>
    if reading.takesName before then readWords (reading.addName name) .group rest
    else readWords { reading with extra := true } .nothing rest
  | before, .separator :: rest =>
    if reading.takesName before then
      readWords { reading with contracts := some (reading.contracts.getD []) } .group rest
    else readWords { reading with extra := true } .nothing rest
  | _, .unknown :: rest => readWords { reading with extra := true } .nothing rest
  | _, .shortHelp text :: _ => .error (if isHelp text then .help else .usage)
  | _, .flag effect value :: rest =>
    match effect, value with
    | .help, none => .error .help
    | .version, none => .error .version
    | .platforms, none => .error .platforms
    | .switch setting, none =>
      readWords { reading with settings := reading.settings.insert setting (.bool true) }
        .nothing rest
    | .value setting, some value => readWords (reading.give (.value setting) value) .nothing rest
    | .file, some value => readWords (reading.give .file value) .nothing rest
    | .value setting, none => readWords reading (.flag (.value setting)) rest
    | .file, none => readWords reading (.flag .file) rest
    | _, some _ => .error .usage

def readArguments (words : List String) : Except Ending Request :=
  match classifyAll words with
  | none => .error .usage
  | some words => readWords .start .nothing words

end SolDeployer.CommandLine
