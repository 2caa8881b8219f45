import SettingCatalog.CommandLine.Arguments

/-!
What the program says about itself.
-/

namespace SettingCatalog

open CommandLine

namespace CommandLine

def Parameter.describe : Parameter → String
  | .config => "TOML configuration file; flags below override its values"
  | .root => "Root of the codebase; `sourceFile` paths are relative to it"
  | .scan => "Sub-path of the root to scan"
  | .endpoint => "Parsing service address (host:port)"
  | .treeDir => "Directory of pre-exported JSON trees mirroring the root"
  | .cacheDir => "Persistent tree cache directory"
  | .output => "Output file path (`-` for stdout)"
  | .format => "Output format [possible values: "
      ++ Text.joinTexts ", " (ExportFormat.all.map ExportFormat.name) ++ "]"
  | .extension => "Source file extension to scan"
  | .settingType => "Base type name of setting fields"
  | .propertyAnchor => "Qualifier that marks property flag references"
  | .jobs => "Worker threads (0 = half the cores)"

def Switch.describe : Switch → String
  | .failFast => "Abort on the first file whose tree cannot be obtained"
  | .verbose => "Debug logging"
  | .quiet => "Errors only"
  | .help => "Print help"
  | .version => "Print version"

end CommandLine

namespace Program

def name : String := "setting-miner"

def versionText : String := name ++ " 0.1.0\n"

def letter : Option Char → String
  | some c => "  -" ++ c.toString ++ ", "
  | none => "      "

def optionRows : List (String × String) :=
  Parameter.all.map (fun p => (letter p.short? ++ p.shown, p.describe))
    ++ Switch.all.map fun s => (letter s.short? ++ s.shown, s.describe)

def alignRows (rows : List (String × String)) : List String :=
  let width := rows.foldl (fun w r => max w r.1.length) 0
  rows.map fun r => r.1 ++ "".pushn ' ' (width + 2 - r.1.length) ++ r.2

def helpText : String :=
  "Setting Miner - Extracts typed Setting declarations (key, type, default, properties) from "
    ++ "Java UASTs.\n\nUsage: " ++ name ++ " [OPTIONS]\n\nOptions:\n"
    ++ String.join ((alignRows optionRows).map (· ++ "\n"))

end Program

end SettingCatalog
