import SettingCatalog.Source.Error
import SettingCatalog.Source.Store
import SettingCatalog.Tree.Decode
import SettingCatalog.Tree.Encode

/-!
A cache of trees. An entry is kept in a store under the path of its source file, and counts as long
as that file has the time and the size it had; any other entry is replaced. Entries hold the JSON
text of a tree, so what is read back is the normalized tree.
-/

namespace SettingCatalog

/-- The time of the last change of a file, in nanoseconds since 1970, and its size. -/
structure Metadata where
  modified : Int
  size : Nat
deriving DecidableEq, Repr

/-- The metadata of an item. A folder is shown with the size of one block; neither folders nor
devices have a time here. -/
def Item.metadata? : Item → Option Metadata
  | .file content modified => some ⟨modified, content.length⟩
  | .folder _ => some ⟨0, 4096⟩
  | .device _ => some ⟨0, 0⟩
  | .link _ => none

structure Fingerprint where
  modified : UInt64
  size : UInt64
deriving DecidableEq, Repr

/-- There is no fingerprint from before 1970. -/
def Metadata.fingerprint? (m : Metadata) : Option Fingerprint :=
  if 0 ≤ m.modified then some ⟨UInt64.ofNat m.modified.toNat, UInt64.ofNat m.size⟩ else none

def FileSystem.fingerprint? (fs : FileSystem) (path : String) : Option Fingerprint :=
  match fs.find path with
  | .ok item => item.metadata?.bind Metadata.fingerprint?
  | .error _ => none

structure CacheEntry where
  version : UInt32
  fingerprint : Fingerprint
  tree : Bytes
deriving DecidableEq, Repr

structure EntryLayout where
  serialize : CacheEntry → Except String Bytes
  deserialize : Bytes → Except String CacheEntry

structure Cache (σ : Type) where
  store : Store σ
  layout : EntryLayout

namespace Cache

variable {π σ τ : Type}

def version : UInt32 := 1

def keyOf (path : String) : Bytes := Text.Utf8.encode path

def treeIn? (c : Cache σ) (f : Fingerprint) (value : Bytes) : Option Node :=
  match c.layout.deserialize value with
  | .ok e =>
    if e.version = version ∧ e.fingerprint = f then (Node.decode e.tree).toOption else none
  | .error _ => none

/-- Looks for the tree of a path. A store that cannot tell has none, and there is none for a file
without a fingerprint. -/
def lookup (c : Cache σ) (path : String) :
    Option Fingerprint → OpenStore σ → Option Node × OpenStore σ
  | none, x => (none, x)
  | some f, x =>
    match c.store.get (keyOf path) x with
    | (.ok value?, x) => (value?.bind (c.treeIn? f), x)
    | (.error _, x) => (none, x)

def keep (c : Cache σ) (path : String) (f : Fingerprint) (tree : Node) (x : OpenStore σ) :
    Except String Unit × OpenStore σ :=
  match c.layout.serialize ⟨version, f, tree.encodeBytes⟩ with
  | .ok value => c.store.insert (keyOf path) value x
  | .error e => (.error e, x)

/-- The store behind an answer. It does not matter whether a tree can be kept. -/
def remember (c : Cache σ) (path : String) :
    Option Fingerprint → Except TreeError Node → OpenStore σ → OpenStore σ
  | some f, .ok tree, x => (c.keep path f tree x).2
  | _, _, x => x

/-- A source behind a cache. Only a missing or outdated entry has the source asked, and only a file
with a fingerprint is kept. `file` leads to the file of a path, whose entry is kept under the text
`key`. -/
def acquireBy (c : Cache σ) (key file : π → String)
    (inner : FileSystem → π → τ → Except TreeError Node × τ) (path : π) :
    OpenStore σ × τ → Except TreeError Node × OpenStore σ × τ := fun (x, s) =>
  let fingerprint := x.files.fingerprint? (file path)
  match c.lookup (key path) fingerprint x with
  | (some tree, x) => (.ok tree, x, s)
  | (none, x) =>
    let (result, s) := inner x.files path s
    (result, c.remember (key path) fingerprint result x, s)

def acquire (c : Cache σ) (inner : FileSystem → TreeSource τ) : TreeSource (OpenStore σ × τ) :=
  c.acquireBy id id inner

end Cache

end SettingCatalog
