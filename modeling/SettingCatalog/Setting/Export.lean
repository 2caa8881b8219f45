import SettingCatalog.Setting.Record
import SettingCatalog.Text.Join

/-!
Lists of records as text: JSON on one line, JSON with one item a line, or a table with one record
a line and columns separated by tabs.
-/

namespace SettingCatalog

open Json Text

inductive ExportFormat where
  | json
  | jsonPretty
  | text
deriving DecidableEq, Repr

namespace ExportFormat

def all : List ExportFormat := [json, jsonPretty, text]

def name : ExportFormat → String
  | json => "json"
  | jsonPretty => "json-pretty"
  | text => "text"

def ofName? (s : String) : Option ExportFormat := all.find? fun f => f.name == s

end ExportFormat

namespace Export

/-- A character inside a column: what separates columns and lines is escaped. -/
def escapeChar (c : Char) : List Char :=
  if c = '\\' then ['\\', '\\']
  else if c = '\t' then ['\\', 't']
  else if c = '\n' then ['\\', 'n']
  else [c]

def escape (s : String) : String := String.ofList (s.toList.flatMap escapeChar)

def header : List String := ["location", "name", "variable", "type", "default", "properties"]

def columns (r : Record) : List String :=
  [r.sourceFile ++ ":" ++ toString r.sourceLine.toNat, escape r.name, escape r.rawName,
    escape r.valueType, escape r.defaultValue, joinTexts "," r.properties]

def lines (records : List Record) : List String :=
  (header :: records.map columns).map (joinTexts "\t")

def table (records : List Record) : String :=
  String.join ((lines records).map (· ++ "\n"))

def jsonOf (records : List Record) : Value := .array (records.map Record.toJson)

def render : ExportFormat → List Record → String
  | .json, records => (jsonOf records).compact
  | .jsonPretty, records => (jsonOf records).pretty 0 ++ "\n"
  | .text, records => table records

end Export

end SettingCatalog
