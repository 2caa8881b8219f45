import SettingCatalog.Tree.Attributes

/-!
Syntax trees: nodes with a tag, a token, a role, attributes, children and a position.

A role may be spelled as a field of its own or as the attribute `internalRole`; `normalize` brings
the second spelling to the first wherever the field is unset.
-/

namespace SettingCatalog

structure Position where
  line : UInt32
  col : UInt32
deriving DecidableEq, Repr, Inhabited

structure Node where
  tag : String
  token : String
  role : Option String
  attributes : Attributes
  children : List Node
  position : Option Position

namespace Node

def roleAttribute : String := "internalRole"

def ofTag (tag : String) : Node := ⟨tag, "", none, .empty, [], none⟩

instance : Inhabited Node := ⟨ofTag ""⟩

def withToken (n : Node) (token : String) : Node := { n with token := token }

def withRole (n : Node) (role : String) : Node := { n with role := some role }

def withAttribute (n : Node) (name value : String) : Node :=
  { n with attributes := n.attributes.insert name value }

def withChildren (n : Node) (children : List Node) : Node :=
  { n with children := n.children ++ children }

def withChild (n : Node) (child : Node) : Node := n.withChildren [child]

def atPosition (n : Node) (line col : UInt32) : Node := { n with position := some ⟨line, col⟩ }

def attributeValue (n : Node) (name : String) : Option String := n.attributes.get? name

def line (n : Node) : UInt32 := (n.position.map Position.line).getD 0

/-- The role of a node, by whichever spelling; the field goes first. -/
def spelledRole (role : Option String) (attributes : Attributes) : Option String :=
  role.or (attributes.get? roleAttribute)

mutual

def normalize : Node → Node
  | ⟨tag, token, role, attributes, children, position⟩ =>
    ⟨tag, token, spelledRole role attributes, attributes, normalizeAll children, position⟩

def normalizeAll : List Node → List Node
  | [] => []
  | n :: ns => n.normalize :: normalizeAll ns

end

mutual

def size : Node → Nat
  | ⟨_, _, _, _, children, _⟩ => 1 + sizeAll children

def sizeAll : List Node → Nat
  | [] => 0
  | n :: ns => n.size + sizeAll ns

end

theorem size_eq (n : Node) : n.size = 1 + sizeAll n.children := by
  cases n with
  | mk => rw [size]

theorem normalizeAll_eq_map (ns : List Node) : normalizeAll ns = ns.map normalize := by
  induction ns with
  | nil => rfl
  | cons n ns ih => simp [normalizeAll, ih]

end Node

end SettingCatalog
