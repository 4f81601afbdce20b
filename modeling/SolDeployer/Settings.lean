import SolDeployer.Deployer

/-!
# Settings

What a user may choose on the command line or in a file of options, and
what is chosen otherwise.
-/

namespace SolDeployer.Settings

/-- The settings by name, with their usual values. -/
def usual : Json.Fields :=
  [("target", .str "."), ("framework", .null), ("out_directory", .null),
    ("export_dir", .str "./deployers"), ("build", .bool false), ("npx_disable", .bool false),
    ("pragma", .str Deployer.defaultPragma), ("solc", .null), ("no_metadata", .bool false),
    ("no_disambiguate", .bool false), ("deployer", .null)]

/-- The file of options that is read if the user names no other. -/
def usualFile : String := "forge_pack.config.json"

/-- Are two values the same text, the same truth value or both null? -/
def same : Json → Json → Bool
  | .null, .null => true
  | .bool a, .bool b => a == b
  | .str a, .str b => a == b
  | _, _ => false

def isUsual (settings : Json.Fields) (name : String) : Bool :=
  same (settings.getD name) (usual.getD name)

/-- The settings with those of a file put in where they have their usual
values, and the fields of the file that are no settings. -/
def merge (settings file : Json.Fields) : Json.Fields × Json.Fields :=
  file.foldl
    (fun (merged, unknown) (name, value) =>
      if !usual.contains name then (merged, unknown ++ [(name, value)])
      else if isUsual merged name then (merged.insert name value, unknown)
      else (merged, unknown))
    (settings, [])

end SolDeployer.Settings
