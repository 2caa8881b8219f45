import SettingCatalog.Json.Reader
import SettingCatalog.Tree.Node

/-!
Trees from JSON. A node is an object whose fields go by either of two names, or an array of the
fields by position; only the tag is required, and `null` stands for an empty token, map or list.
-/

namespace SettingCatalog

open Json

namespace Position

structure Draft where
  line : Option UInt32
  col : Option UInt32

def schema : Schema Draft where
  name := "Position"
  fields :=
    [.elective "line" ["Line"] word (·.line) fun d v => { d with line := some v },
     .elective "col" ["Col"] word (·.col) fun d v => { d with col := some v }]

def read : Reader Position := fun bs => do
  let (d, rest) ← schema.read ⟨none, none⟩ bs
  return (⟨d.line.getD 0, d.col.getD 0⟩, rest)

end Position

namespace Node

structure Draft where
  tag : Option String
  token : Option String
  role : Option (Option String)
  attributes : Option Attributes
  children : Option (List Node)
  position : Option (Option Position)

namespace Draft

def empty : Draft := ⟨none, none, none, none, none, none⟩

def finish (d : Draft) : Node :=
  ⟨d.tag.getD "", d.token.getD "", d.role.getD none, d.attributes.getD .empty,
    d.children.getD [], d.position.getD none⟩

end Draft

/-- Reads attributes; of several values of one name the last one counts. -/
def readAttributes : Reader Attributes :=
  dictionary (fun name value a => a.insert name value) Attributes.empty

def schema (child : Reader Node) : Schema Draft where
  name := "Node"
  fields :=
    [.required "tag" ["InternalType"] text (·.tag) fun d v => { d with tag := some v },
     .elective "token" ["Token"] (nullableOr "" text) (·.token)
       fun d v => { d with token := some v },
     .elective "role" ["Role"] (nullable text) (·.role) fun d v => { d with role := some v },
     .elective "attributes" ["Properties"] (nullableOr .empty readAttributes) (·.attributes)
       fun d v => { d with attributes := some v },
     .elective "children" ["Children"] (nullableOr [] (list child)) (·.children)
       fun d v => { d with children := some v },
     .elective "position" ["StartPosition"] (nullable Position.read) (·.position)
       fun d v => { d with position := some v }]

def read : Nat → Reader Node
  | 0, _ => .error .truncated
  | depth + 1, bs => do
    let (d, rest) ← (schema (read depth)).read .empty bs
    return (d.finish, rest)

def parse (bs : Bytes) : Except Fault Node := whole (read (bs.length + 1)) bs

/-- The tree that a JSON text holds, with every role in its field. -/
def decode (bs : Bytes) : Except Fault Node := do
  let n ← parse bs
  return n.normalize

end Node

end SettingCatalog
