import SettingCatalog.Config.Basic
import SettingCatalog.Files.System
import SettingCatalog.Text.Quoted
import SettingCatalog.Toml.Document

/-!
Configurations from TOML files. Keys that are left out keep their standard values; other keys than
those of a configuration are refused. Of several faults the first in the order of the document is
reported.
-/

namespace SettingCatalog

namespace Config

inductive Wanted where
  | text
  | path
  | bool
  | count
  | word
  | longWord
deriving DecidableEq, Repr

namespace Wanted

def describe : Wanted → String
  | text => "a string"
  | path => "path string"
  | bool => "a boolean"
  | count => "usize"
  | word => "u32"
  | longWord => "u64"

end Wanted

def describeItem : Toml.Item → String
  | .text s => "string " ++ Text.quoted s
  | .integer n => "integer `" ++ toString n ++ "`"
  | .real x => "floating point `" ++ x.describe ++ "`"
  | .bool b => "boolean `" ++ (if b then "true" else "false") ++ "`"
  | .array _ => "sequence"
  | .tables _ => "sequence"
  | _ => "map"

inductive Fault where
  | unknownKey (key : String)
  | kind (found : String) (wanted : Wanted)
  | range (found : Int) (wanted : Wanted)
  | unknownFormat (name : String)
  | formatKind
  | formatElements (several : Bool)
  | formatContent (table : Bool)
  | formatValue (found : String)
deriving DecidableEq, Repr

def keyNames : List String :=
  ["service_endpoint", "root_directory", "scan_path", "file_extension", "output_path",
    "setting_type_name", "property_anchor_name", "tree_dir", "cache_dir", "jobs", "retries",
    "retry_backoff_ms", "timeout_ms", "fail_fast", "format"]

def listNames (names : List String) : String :=
  Text.joinTexts ", " (names.map fun n => "`" ++ n ++ "`")

namespace Fault

def message : Fault → String
  | unknownKey key =>
    "unknown field `" ++ key ++ "`, expected one of " ++ listNames keyNames
  | kind found wanted => "invalid type: " ++ found ++ ", expected " ++ wanted.describe
  | range found wanted =>
    "invalid value: integer `" ++ toString found ++ "`, expected " ++ wanted.describe
  | unknownFormat name =>
    "unknown variant `" ++ name ++ "`, expected one of "
      ++ listNames (ExportFormat.all.map ExportFormat.name)
  | formatKind => "wanted string or table"
  | formatElements several =>
    if several then "wanted exactly 1 element, more than 1 element"
    else "wanted exactly 1 element, found 0 elements"
  | formatContent table => if table then "expected empty table" else "expected empty array"
  | formatValue found => "expected table, found " ++ found

end Fault

def textOf (wanted : Wanted) : Toml.Item → Except Fault String
  | .text s => .ok s
  | item => .error (.kind (describeItem item) wanted)

def boolOf : Toml.Item → Except Fault Bool
  | .bool b => .ok b
  | item => .error (.kind (describeItem item) .bool)

def natOf (wanted : Wanted) (bound : Nat) : Toml.Item → Except Fault Nat
  | .integer n =>
    if 0 ≤ n ∧ n < bound then .ok n.toNat else .error (.range n wanted)
  | item => .error (.kind (describeItem item) wanted)

def formatOfName (name : String) : Except Fault ExportFormat :=
  match ExportFormat.ofName? name with
  | some f => .ok f
  | none => .error (.unknownFormat name)

/-- A format given as the only key of a table, with nothing under it. -/
def formatOfTable (t : Toml.Table) : Except Fault ExportFormat :=
  match t.entries with
  | [] => .error (.formatElements false)
  | [(name, item)] => do
    let f ← formatOfName name
    match item with
    | .array items => if items.isEmpty then return f else .error (.formatContent true)
    | .tables ts => if ts.isEmpty then return f else .error (.formatContent false)
    | .inline t => if t.entries.isEmpty then return f else .error (.formatContent true)
    | .table t => if t.entries.isEmpty then return f else .error (.formatContent true)
    | item => .error (.formatValue item.kindName)
  | _ => .error (.formatElements true)

def formatOf : Toml.Item → Except Fault ExportFormat
  | .text name => formatOfName name
  | .inline t => formatOfTable t
  | .table t => formatOfTable t
  | _ => .error .formatKind

def setKey (key : String) (item : Toml.Item) (c : Config) : Except Fault Config :=
  match key with
  | "service_endpoint" => do return { c with serviceEndpoint := some (← textOf .text item) }
  | "root_directory" => do return { c with rootDirectory := ← textOf .path item }
  | "scan_path" => do return { c with scanPath := some (← textOf .path item) }
  | "file_extension" => do return { c with fileExtension := ← textOf .text item }
  | "output_path" => do return { c with outputPath := ← textOf .text item }
  | "setting_type_name" => do return { c with settingTypeName := ← textOf .text item }
  | "property_anchor_name" => do return { c with propertyAnchorName := ← textOf .text item }
  | "tree_dir" => do return { c with treeDir := some (← textOf .path item) }
  | "cache_dir" => do return { c with cacheDir := some (← textOf .path item) }
  | "jobs" => do return { c with jobs := UInt64.ofNat (← natOf .count UInt64.size item) }
  | "retries" => do return { c with retries := UInt32.ofNat (← natOf .word UInt32.size item) }
  | "retry_backoff_ms" => do
    return { c with retryBackoffMs := UInt64.ofNat (← natOf .longWord UInt64.size item) }
  | "timeout_ms" => do
    return { c with timeoutMs := UInt64.ofNat (← natOf .longWord UInt64.size item) }
  | "fail_fast" => do return { c with failFast := ← boolOf item }
  | "format" => do return { c with format := ← formatOf item }
  | key => .error (.unknownKey key)

def ofTable (t : Toml.Table) : Except Fault Config :=
  t.entries.foldlM (fun c e => setKey e.1 e.2 c) standard

end Config

inductive ConfigError where
  | unreadable (path : String) (cause : OsError)
  | malformed (path : String)
  | fault (path : String) (cause : Config.Fault)
  | invalid (cause : InvalidConfig)
deriving DecidableEq, Repr

namespace ConfigError

def message : ConfigError → String
  | unreadable path cause => "failed to read config file " ++ path ++ ": " ++ cause.message
  | malformed path => "invalid config file " ++ path
  | fault path _ => "invalid config file " ++ path
  | invalid cause => "invalid configuration: " ++ cause.message

def chain (e : ConfigError) : List String :=
  e.message :: match e with
    | unreadable _ cause => [cause.message]
    | _ => []

end ConfigError

def Config.ofFile (fs : FileSystem) (path : String) : Except ConfigError Config :=
  match fs.readText path with
  | .error e => .error (.unreadable path e)
  | .ok text =>
    match Toml.parse? text with
    | none => .error (.malformed path)
    | some t =>
      match Config.ofTable t with
      | .ok c => .ok c
      | .error f => .error (.fault path f)

end SettingCatalog
