import SolDeployer.Failure

/-!
# Notices

What an operation tells its user on the way, and the reports that
collect it. An operation that fails has still told what came before.
-/

namespace SolDeployer

/-- How much a notice matters. -/
inductive Level where
  | info
  | warning
  | error
  deriving Repr, DecidableEq

/-- Something that is told while an operation goes on. -/
inductive Notice where
  /-- A slot holds the placeholder of another library. -/
  | mismatch (mismatch : Mismatch)
  /-- A contract uses one name for several libraries. -/
  | sharedName (contract name : String) (count : Nat)
  /-- A parameter of a constructor has a name that generated code uses. -/
  | nameClash (contract name : String)
  /-- The libraries of a contract are resolved. -/
  | resolved (contract : String) (libraries : List String)
  /-- A contract of a batch failed. -/
  | contractFailed (contract : String) (failure : Failure)
  /-- A file is written. -/
  | written (path : String)
  /-- A build begins. -/
  | building (platform : String)
  /-- A command begins. -/
  | running (command : String)
  /-- A command printed something. -/
  | output (text : String)
  /-- A command printed something although it succeeded. -/
  | errorOutput (text : String)
  /-- The settings of a project cannot be read. -/
  | unreadableProject
  /-- The options of a project cannot be read. -/
  | unreadableOptions (path : String)
  /-- A file of options has a name that means nothing. -/
  | unknownOption (path key value : String)
  /-- The platforms are listed by name and address. -/
  | platforms (listing : List (String × String))
  /-- The run failed. -/
  | failed (failure : Failure)
  /-- The address of a library is known. -/
  | placed (contract library address : String)
  /-- Addresses cannot be computed for a deployer. -/
  | badDeployer (deployer : String) (failure : Failure)
  deriving Repr, DecidableEq

namespace Notice

/-- How much the notice matters. -/
def level : Notice → Level
  | .mismatch _ | .sharedName .. | .nameClash .. => .warning
  | .contractFailed .. | .errorOutput _ | .unreadableProject | .unreadableOptions _ => .error
  | .failed _ | .badDeployer .. => .error
  | _ => .info

def message : Notice → String
  | .mismatch cause => cause.message
  | .sharedName contract name count =>
    contract ++ " links " ++ toString count ++ " different libraries named " ++ name ++
      ", the generated initcode will not compile"
  | .nameClash contract name =>
    contract ++ " constructor parameter " ++ name ++
      " clashes with a name of the generated deployer, it will not compile"
  | .resolved contract libraries =>
    "[" ++ contract ++ "] Resolved " ++ toString libraries.length ++ " library dep(s): " ++
      ", ".intercalate libraries
  | .contractFailed contract failure => "Error [" ++ contract ++ "]: " ++ failure.message
  | .written path => "Generated " ++ path
  | .building platform => "Running " ++ platform ++ " build..."
  | .running command => "'" ++ command ++ "' running"
  | .output text => text
  | .errorOutput text => text
  | .unreadableProject =>
    "Impossible to read the foundry config, using out: " ++ Failure.detail
  | .unreadableOptions path =>
    "Impossible to read " ++ path ++ ", please check the file " ++ Failure.detail
  | .unknownOption path key value => path ++ " has an unknown key: " ++ key ++ " : " ++ value
  | .platforms listing =>
    "\n" ++ "\n".intercalate (listing.map fun (name, url) => "- " ++ name ++ ": " ++ url)
  | .failed failure => failure.message
  | .placed contract library address => "[" ++ contract ++ "] " ++ library ++ " -> " ++ address
  | .badDeployer deployer failure => "Invalid deployer " ++ deployer ++ ": " ++ failure.message

end Notice

/-- What an operation told, and how it ended. -/
structure Report (α : Type) where
  notices : List Notice
  result : Except Failure α

namespace Report

variable {α β : Type}

/-- An operation that tells nothing. -/
def ofExcept (result : Except Failure α) : Report α := ⟨[], result⟩

/-- An operation that only tells something. -/
def tell (notices : List Notice) : Report Unit := ⟨notices, .ok ()⟩

/-- An operation that only fails. -/
def fail (failure : Failure) : Report α := ⟨[], .error failure⟩

/-- One operation after another; the second does not begin if the first
fails. -/
def bind (first : Report α) (next : α → Report β) : Report β :=
  match first.result with
  | .error failure => ⟨first.notices, .error failure⟩
  | .ok value => ⟨first.notices ++ (next value).notices, (next value).result⟩

instance : Monad Report where
  pure value := ⟨[], .ok value⟩
  bind := bind

end Report

end SolDeployer
