import SettingCatalog.Number.Shortest
import SettingCatalog.Text.Quoted

/-!
Why a JSON text is refused: it ends too early, it is not JSON, or its value has another shape than
the one that is wanted.
-/

namespace SettingCatalog.Json

/-- A number as it was read: an integer that fits a machine word, or an approximation. -/
inductive Number where
  | natural (n : Nat)
  | negative (n : Nat)
  | real (negative : Bool) (x : Binary64)
deriving DecidableEq, Repr

namespace Number

def describe : Number → String
  | natural n => "integer `" ++ toString n ++ "`"
  | negative n => "integer `-" ++ toString n ++ "`"
  | real neg x =>
    "floating point `" ++ (if neg then "-" else "") ++ x.write Decimal.shortLayout ++ "`"

end Number

inductive Found where
  | null
  | bool (b : Bool)
  | number (n : Number)
  | text (s : String)
  | sequence
  | map
deriving DecidableEq, Repr

namespace Found

def describe : Found → String
  | null => "null"
  | bool b => "boolean `" ++ (if b then "true" else "false") ++ "`"
  | number n => n.describe
  | text s => "string " ++ Text.quoted s
  | sequence => "sequence"
  | map => "map"

end Found

inductive Wanted where
  | text
  | word
  | map
  | sequence
  | record (name : String)
  | elements (name : String) (count : Nat)
deriving DecidableEq, Repr

namespace Wanted

def describe : Wanted → String
  | text => "a string"
  | word => "u32"
  | map => "a map"
  | sequence => "a sequence"
  | record name => "struct " ++ name
  | elements name count => "struct " ++ name ++ " with " ++ toString count ++ " elements"

end Wanted

inductive Mismatch where
  | missing (field : String)
  | duplicate (field : String)
  | kind (found : Found) (wanted : Wanted)
  | value (found : Number) (wanted : Wanted)
  | length (found : Nat) (wanted : Wanted)
deriving DecidableEq, Repr

namespace Mismatch

def message : Mismatch → String
  | missing field => "missing field `" ++ field ++ "`"
  | duplicate field => "duplicate field `" ++ field ++ "`"
  | kind found wanted => "invalid type: " ++ found.describe ++ ", expected " ++ wanted.describe
  | value found wanted => "invalid value: " ++ found.describe ++ ", expected " ++ wanted.describe
  | length found wanted =>
    "invalid length " ++ toString found ++ ", expected " ++ wanted.describe

end Mismatch

inductive Fault where
  /-- The text ends inside a value. -/
  | truncated
  /-- The text is not JSON, or has something behind its value. -/
  | malformed
  | mismatch (m : Mismatch)
deriving DecidableEq, Repr

end SettingCatalog.Json
