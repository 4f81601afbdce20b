import SolDeployer.Failure

/-!
# Kinds of platforms

The build tools whose projects can be read.
-/

namespace SolDeployer.Platform

/-- What is told of a platform. The number ranks the platforms; a platform
with the number zero is not there yet. -/
structure Info where
  name : String
  url : String
  rank : Int
  deriving Repr, DecidableEq, Inhabited

namespace Info

/-- What a platform lacks to be usable. -/
def missing? (info : Info) : Option PlatformPart :=
  if info.name == "" then some .name
  else if info.url == "" then some .projectUrl
  else if info.rank = 0 then some .type
  else none

end Info

/-- A build tool. -/
inductive Kind where
  | foundry
  | hardhat
  deriving Repr, DecidableEq, Inhabited

namespace Kind

def all : List Kind := [.foundry, .hardhat]

def info : Kind → Info
  | .foundry => ⟨"Foundry", "https://github.com/foundry-rs/foundry", 1⟩
  | .hardhat => ⟨"Hardhat", "https://github.com/nomiclabs/hardhat", 2⟩

/-- The name of a kind, as the user sees it. -/
def name (kind : Kind) : String := kind.info.name

/-- The files with the settings of a project; one of them is enough. -/
def settingsFiles : Kind → List String
  | .foundry => ["foundry.toml"]
  | .hardhat =>
    ["hardhat.config.js", "hardhat.config.ts", "hardhat.config.cjs", "hardhat.config.mjs"]

/-- The kind of a name, in letters of any case. -/
def ofName? (name : String) : Option Kind :=
  let lowered := fun (text : String) => Text.lower text.toList
  all.find? fun kind => lowered kind.name == lowered name

end Kind

end SolDeployer.Platform
