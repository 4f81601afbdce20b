import SolDeployer.Abi.TypeText
import SolDeployer.Artifact
import SolDeployer.Failure
import SolDeployer.Host
import SolDeployer.Json.Encoding
import SolDeployer.Trailer

/-!
# Reading artifacts

An artifact is read from a document. There are two layouts: one keeps the
bytecode and its link references in an object, the other has them side by
side. The parts are read in a fixed order and the first defect is told:
interface, bytecode, link references, digits of the bytecode, metadata.
How deep the reader follows what is nested is up to the `Host`.
-/

namespace SolDeployer.Artifact

/-- A document as it arrives. -/
inductive Document where
  | text (content : List Char)
  | bytes (content : List UInt8)
  | object (fields : Json.Fields)

def defective {α : Type} (defect : Defect) : Except Failure α := .error (.malformed defect)

/-- A value that is there, or else a defect. -/
def orDefect {α : Type} (defect : Defect) : Option α → Except Failure α
  | some value => .ok value
  | none => defective defect

namespace Document

/-- The object that a document holds. -/
def fields (document : Document) (levels : Nat) : Except Failure Json.Fields :=
  match document with
  | .object fields => .ok fields
  | .text content => ofRead (Json.read content levels)
  | .bytes content => ofRead (Json.readBytes content levels)
where
  /-- The object that was read, if one was. -/
  ofRead : Except Json.ReadError Json → Except Failure Json.Fields
    | .ok (.obj fields) => .ok fields
    | .ok _ => defective .notAnObject
    | .error .tooDeep => .error .tooManySteps
    | .error _ => defective .notJson

end Document

/-! ## Interface -/

/-- The fields of the objects in a list, if nothing else is in it. -/
def objects? : List Json → Option (List Json.Fields)
  | [] => some []
  | .obj fields :: rest => (objects? rest).map (fields :: ·)
  | _ :: _ => none

def readInterface (contract : String) (levels : Nat) : Json → Except Failure (List Abi.Entry)
  | .null => .ok []
  | .arr items =>
    match objects? items with
    | none => defective .interface
    | some entries =>
      match entries.mapM (Abi.Entry.ofFields levels) with
      | .ok abi => .ok abi
      | .error .unexpected => defective (.shape contract)
      | .error .tooDeep => .error .tooManySteps
  | _ => defective .interface

/-! ## Bytecode and link references -/

/-- The bytecode and the link references of a document in either layout,
both as they are found. -/
def codeOf (fields : Json.Fields) : Json × Json :=
  let beside := (fields.getD "linkReferences").orElse (.obj [])
  match fields.getD "bytecode" with
  | .obj code =>
    let references := Json.Fields.getD code "linkReferences"
    ((Json.Fields.getD code "object").orElse (.str ""),
      if references.isNull then beside else references)
  | code => (code.orElse (.str ""), beside)

/-- The digits of a bytecode in small letters, without `0x`. -/
def readBytecode : Json → Except Failure (List Char)
  | .str text => .ok (Text.lower (addressDigits text.toList))
  | _ => defective .bytecodeType

def readOffset (library : LibraryId) (reference : Json) (field : String) :
    Except Failure Int :=
  match reference with
  | .obj fields =>
    match Entries.get? fields field with
    | none => defective (.missingOffset library field)
    | some (.int value) => .ok value
    | some (.bool value) => .ok (if value then 1 else 0)
    | some (.float (.infinite _)) => .error .infinite
    | some (.float value) => orDefect (.badOffset library) value.truncate?
    | some (.str text) => orDefect (.badOffset library) (Text.integer? 10 text.toList)
    | some _ => defective (.badOffset library)
  | _ => defective (.badOffset library)

def readSlot (library : LibraryId) (reference : Json) : Except Failure Slot := do
  let start ← readOffset library reference "start"
  let length ← readOffset library reference "length"
  return ⟨start, length⟩

/-- The link references of a library. -/
def readSlots (library : LibraryId) : Json → Except Failure (List Slot)
  | .arr references => references.mapM (readSlot library)
  | _ => defective (.referencesOfLibrary library)

def readFileLinks (file : String) : Json → Except Failure (Entries String (List Slot))
  | .obj libraries =>
    libraries.mapM fun (name, references) =>
      (readSlots ⟨file, name⟩ references).map (name, ·)
  | _ => defective (.referencesOfFile file)

def readLinks : Json → Except Failure LinkReferences
  | .obj files =>
    files.mapM fun (file, libraries) => (readFileLinks file libraries).map (file, ·)
  | _ => defective .references

/-- The first character that is not a digit, and its index. -/
def stray? (chars : List Char) : Option (Char × Nat) :=
  chars.zipIdx.find? fun (c, _) => !Hex.isLowerDigit c

/-- What is wrong with the characters of a bytecode, its slots left out. -/
def bytecodeDefect? (bytecode : List Char) (links : LinkReferences) : Option Defect :=
  if bytecode.length % 2 = 1 then some (.oddLength bytecode.length)
  else (stray? (links.mask bytecode)).map fun (c, index) => .strayCharacter c index

def checkBytecode (bytecode : List Char) (links : LinkReferences) : Except Failure Unit :=
  match bytecodeDefect? bytecode links with
  | some defect => defective defect
  | none => .ok ()

/-! ## Metadata -/

/-- The metadata in a document, no fields at all if they cannot be read.
They may be a document in a text. -/
def readMetadata (fields : Json.Fields) (levels : Nat) : Except Failure Json.Fields := do
  let metadata := fields.getD "metadata"
  let found := if metadata.isNull then fields.getD "rawMetadata" else metadata
  let value ← match found with
    | .str text =>
      match Json.read text.toList levels with
      | .ok value => Except.ok value
      | .error .integerTooLong => .error .integerTooLong
      | .error .tooDeep => .error .tooManySteps
      | .error _ => .ok .null
    | value => .ok value
  match value with
  | .obj metadata =>
    match Entries.get? metadata "settings" with
    | none | some (.obj _) => return metadata
    | some _ => defective .settings
  | _ => return []

/-- The object in a field, without fields if there is no such field. -/
def objectIn? (fields : Json.Fields) (key : String) : Option Json.Fields :=
  match fields.get? key with
  | none => some []
  | some (.obj inner) => some inner
  | some _ => none

/-- The first thing in a value that holds others, null if it holds none. -/
def firstIn? : Json → Option Json
  | .null | .bool false => some .null
  | .obj fields => some ((fields.head?.map fun (key, _) => .str key).getD .null)
  | .arr items => some (items.head?.getD .null)
  | .str text => some ((text.toList.head?.map fun c => .str (String.ofList [c])).getD .null)
  | .bool true => none
  | .int value => if value == 0 then some .null else none
  | .float value => if value.isZero then some .null else none

/-- The file that a contract was compiled from. -/
def sourceOf? (fields metadata : Json.Fields) : Option Json := do
  let settings ← objectIn? metadata "settings"
  let target ← firstIn? (settings.getD "compilationTarget")
  return if target.isNull then fields.getD "sourceName" else target

/-- The text with every `solidity` in it called `solc`. -/
def renamedLanguage (fuel : Nat) (text : List Char) : List Char :=
  match fuel, text with
  | 0, _ => text
  | _, [] => []
  | fuel + 1, c :: rest =>
    match Abi.TypeText.after? "solidity".toList (c :: rest) with
    | some rest => "solc".toList ++ renamedLanguage fuel rest
    | none => c :: renamedLanguage fuel rest

def compilerName (language : String) : String :=
  let text := Text.lower language.toList
  String.ofList (renamedLanguage text.length text)

/-- The value, or a text in its place if it is null. -/
def orText (value : Json) (text : Option String) : Json :=
  if value.isNull then (text.map Json.str).getD .null else value

/-- The compiler settings in the metadata, and what a decoder finds in the
trailer of the bytecode. -/
def compilerOf? (decode : List UInt8 → Option Cbor.Map) (metadata : Json.Fields)
    (bytecode : List Char) : Option Compiler := do
  let settings ← objectIn? metadata "settings"
  let optimizer ← objectIn? settings "optimizer"
  let compiler ← objectIn? metadata "compiler"
  let output ← objectIn? settings "metadata"
  let language ← match Entries.get? metadata "language" with
    | none => some "Solidity"
    | some (.str language) => some language
    | some _ => none
  let trailer := Trailer.foundBy decode bytecode
  return {
    name := compilerName language
    version := orText (compiler.getD "version") (trailer.bind Trailer.solcVersion?)
    optimizerRuns := optimizer.getD "runs"
    viaIR := settings.getD "viaIR"
    evmVersion := settings.getD "evmVersion"
    bytecodeHash := orText (output.getD "bytecodeHash") (trailer.map Trailer.hashKind) }

/-! ## Artifacts -/

/-- The artifact of a contract, from the fields of its document. -/
def ofFields (fields : Json.Fields) (contract : String) (host : Host) :
    Except Failure Artifact := do
  let abi ← readInterface contract host.paramLevels (fields.getD "abi")
  let (code, references) := codeOf fields
  let bytecode ← readBytecode code
  let links ← readLinks references
  checkBytecode bytecode links
  let metadata ← readMetadata fields host.levels
  let source ← orDefect (.shape contract) (sourceOf? fields metadata)
  let compiler ← orDefect (.shape contract) (compilerOf? host.decode metadata bytecode)
  return { contract, abi, bytecode, links, source, compiler }

/-- The artifact of a contract, from its document. -/
def read (document : Document) (contract : String) (host : Host := .usual) :
    Except Failure Artifact := do
  ofFields (← document.fields host.levels) contract host

end SolDeployer.Artifact
