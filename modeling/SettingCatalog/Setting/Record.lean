import SettingCatalog.Json.Reader
import SettingCatalog.Json.Value

/-!
What is found in a source file: records of settings, and diagnostics for the declarations that
give none.
-/

namespace SettingCatalog

open Json

structure Record where
  /-- The key of the setting. -/
  name : String
  /-- The variable that holds it. -/
  rawName : String
  valueType : String
  properties : List String
  defaultValue : String
  sourceLine : UInt32
  sourceFile : String
deriving DecidableEq, Repr

namespace Record

/-- A record as a JSON object; an empty list of flags is left out. -/
def toJson (r : Record) : Value :=
  .object
    ([("name", .text r.name), ("rawName", .text r.rawName), ("type", .text r.valueType)]
      ++ (if r.properties.isEmpty then []
        else [("properties", .array (r.properties.map Value.text))])
      ++ [("defaultValue", .text r.defaultValue), ("sourceLine", .ofNat r.sourceLine.toNat),
        ("sourceFile", .text r.sourceFile)])

structure Draft where
  name : Option String
  rawName : Option String
  valueType : Option String
  properties : Option (List String)
  defaultValue : Option String
  sourceLine : Option UInt32
  sourceFile : Option String

namespace Draft

def empty : Draft := ⟨none, none, none, none, none, none, none⟩

def finish (d : Draft) : Record :=
  ⟨d.name.getD "", d.rawName.getD "", d.valueType.getD "", d.properties.getD [],
    d.defaultValue.getD "", d.sourceLine.getD 0, d.sourceFile.getD ""⟩

end Draft

def schema : Schema Draft where
  name := "SettingRecord"
  fields :=
    [.required "name" [] text (·.name) fun d v => { d with name := some v },
     .required "rawName" [] text (·.rawName) fun d v => { d with rawName := some v },
     .required "type" [] text (·.valueType) fun d v => { d with valueType := some v },
     .elective "properties" [] (list text) (·.properties)
       fun d v => { d with properties := some v },
     .required "defaultValue" [] text (·.defaultValue)
       fun d v => { d with defaultValue := some v },
     .required "sourceLine" [] word (·.sourceLine) fun d v => { d with sourceLine := some v },
     .required "sourceFile" [] text (·.sourceFile) fun d v => { d with sourceFile := some v }]

def read : Reader Record := fun bs => do
  let (d, rest) ← schema.read .empty bs
  return (d.finish, rest)

def decodeAll (bs : Bytes) : Except Fault (List Record) := whole (list read) bs

end Record

inductive Shortcoming where
  | insufficientArguments (found : Nat)
deriving DecidableEq, Repr

structure Diagnostic where
  sourceFile : String
  sourceLine : UInt32
  rawName : Option String
  kind : Shortcoming
deriving DecidableEq, Repr

namespace Diagnostic

def message (d : Diagnostic) : String :=
  match d.kind with
  | .insufficientArguments found =>
    d.sourceFile ++ ":" ++ toString d.sourceLine.toNat ++ ": problem with "
      ++ d.rawName.getD "<unnamed>" ++ ": expected at least 3 arguments, found " ++ toString found

end Diagnostic

end SettingCatalog
