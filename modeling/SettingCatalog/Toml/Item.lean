import SettingCatalog.Number.Shortest

/-!
TOML documents: tables of named items in the order in which they are given.
-/

namespace SettingCatalog.Toml

inductive Real where
  | finite (negative : Bool) (x : Binary64)
  | infinite (negative : Bool)
  | notANumber
deriving DecidableEq, Repr

namespace Real

def describe : Real → String
  | finite negative x =>
    (if negative then "-" else "") ++ x.write Decimal.plainLayout
  | infinite negative => if negative then "-inf" else "inf"
  | notANumber => "NaN"

end Real

structure TableOf (α : Type) where
  /-- Only mentioned on the way to another table, so far. -/
  implicit : Bool
  /-- Made by a key with points. -/
  dotted : Bool
  entries : List (String × α)

namespace TableOf

variable {α : Type}

def get? (t : TableOf α) (key : String) : Option α := t.entries.lookup key

def replace (key : String) (value : α) : List (String × α) → List (String × α)
  | [] => []
  | (k, v) :: rest => if k = key then (k, value) :: rest else (k, v) :: replace key value rest

/-- The table with a value under a key: in the place of the one before, or at the end. -/
def put (t : TableOf α) (key : String) (value : α) : TableOf α :=
  match t.get? key with
  | some _ => { t with entries := replace key value t.entries }
  | none => { t with entries := t.entries ++ [(key, value)] }

def erase (t : TableOf α) (key : String) : TableOf α :=
  { t with entries := t.entries.filter fun e => e.1 != key }

end TableOf

inductive Item where
  | text (s : String)
  | integer (n : Int)
  | real (x : Real)
  | bool (b : Bool)
  | dateTime
  | array (items : List Item)
  /-- A table in braces. -/
  | inline (table : TableOf Item)
  /-- A table under a header or made by keys with points. -/
  | table (table : TableOf Item)
  /-- Tables under repeated headers in double brackets. -/
  | tables (tables : List (TableOf Item))

abbrev Table := TableOf Item

namespace Table

def explicit : Table := ⟨false, false, []⟩

end Table

namespace Item

def kindName : Item → String
  | text _ => "string"
  | integer _ => "integer"
  | real _ => "float"
  | bool _ => "boolean"
  | dateTime => "datetime"
  | array _ => "array"
  | inline _ => "inline table"
  | table _ => "table"
  | tables _ => "array of tables"

end Item

end SettingCatalog.Toml
