import SettingCatalog.Json.Value
import SettingCatalog.Text.Utf8
import SettingCatalog.Tree.Node

/-!
Trees as JSON: an object with all six fields, in a fixed order.
-/

namespace SettingCatalog

open Json

def Attributes.toJson (a : Attributes) : Value :=
  .object (a.entries.map fun e => (e.1, .text e.2))

def Position.toJson (p : Position) : Value :=
  .object [("line", .ofNat p.line.toNat), ("col", .ofNat p.col.toNat)]

namespace Node

mutual

def toJson : Node → Value
  | ⟨tag, token, role, attributes, children, position⟩ =>
    .object
      [("tag", .text tag), ("token", .text token), ("role", .ofText? role),
        ("attributes", attributes.toJson), ("children", .array (toJsonAll children)),
        ("position", match position with
          | none => .null
          | some p => p.toJson)]

def toJsonAll : List Node → List Value
  | [] => []
  | n :: ns => n.toJson :: toJsonAll ns

end

theorem toJsonAll_eq_map (ns : List Node) : toJsonAll ns = ns.map toJson := by
  induction ns with
  | nil => rfl
  | cons n ns ih => simp [toJsonAll, ih]

def encode (n : Node) : String := n.toJson.compact

def encodeBytes (n : Node) : Bytes := Text.Utf8.encode n.encode

end Node

end SettingCatalog
