import SettingCatalog.Files.OsError
import SettingCatalog.Files.Path
import SettingCatalog.Setting.Export
import SettingCatalog.Setting.Vocabulary
import SettingCatalog.Source.Backoff
import SettingCatalog.Text.Blank

/-!
The configuration of a run, and what it must satisfy.
-/

namespace SettingCatalog

open Vocabulary

structure Config where
  serviceEndpoint : Option String
  /-- Recorded paths start from this directory. -/
  rootDirectory : String
  scanPath : Option String
  fileExtension : String
  outputPath : String
  settingTypeName : String
  propertyAnchorName : String
  treeDir : Option String
  cacheDir : Option String
  /-- The number of workers; zero leaves it to the machine. -/
  jobs : UInt64
  retries : UInt32
  retryBackoffMs : UInt64
  timeoutMs : UInt64
  failFast : Bool
  format : ExportFormat
deriving DecidableEq, Repr

inductive InvalidConfig where
  | emptySettingType
  | emptyAnchor
  | emptyExtension
  | emptyOutput
  | endpointWithoutPort (endpoint : String)
deriving DecidableEq, Repr

namespace InvalidConfig

def message : InvalidConfig → String
  | emptySettingType => "setting_type_name must not be empty"
  | emptyAnchor => "property_anchor_name must not be empty"
  | emptyExtension => "file_extension must not be empty"
  | emptyOutput => "output_path must not be empty"
  | endpointWithoutPort endpoint =>
    "service_endpoint must be host:port, got `" ++ endpoint ++ "`"

end InvalidConfig

namespace Config

def standard : Config where
  serviceEndpoint := none
  rootDirectory := "."
  scanPath := none
  fileExtension := defaultExtension
  outputPath := "settings.json"
  settingTypeName := defaultSettingType
  propertyAnchorName := defaultAnchor
  treeDir := none
  cacheDir := none
  jobs := 1
  retries := 3
  retryBackoffMs := 200
  timeoutMs := 30000
  failFast := false
  format := .json

def bareExtension (s : String) : String := FilePath.bareExtension (Text.trim s)

/-- The configuration with its extension brought to the form `.ext`, if all its values are
allowed. The first value that is not allowed is reported. -/
def validate (c : Config) : Except InvalidConfig Config :=
  if Text.isBlankText c.settingTypeName then .error .emptySettingType
  else if Text.isBlankText c.propertyAnchorName then .error .emptyAnchor
  else if bareExtension c.fileExtension = "" then .error .emptyExtension
  else if Text.isBlankText c.outputPath then .error .emptyOutput
  else match c.serviceEndpoint with
    | some e =>
      if e.toList.contains ':' then
        .ok { c with fileExtension := "." ++ bareExtension c.fileExtension }
      else .error (.endpointWithoutPort e)
    | none => .ok { c with fileExtension := "." ++ bareExtension c.fileExtension }

def scanRoot (c : Config) : String :=
  match c.scanPath with
  | some sub => FilePath.join c.rootDirectory sub
  | none => c.rootDirectory

def retryPolicy (c : Config) : RetryPolicy := ⟨c.retries, c.retryBackoffMs⟩

end Config

end SettingCatalog
