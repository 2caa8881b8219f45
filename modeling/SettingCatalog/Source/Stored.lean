import SettingCatalog.Files.System
import SettingCatalog.Source.Error
import SettingCatalog.Tree.Decode

/-!
Trees that were stored as JSON files, next to their sources or in a folder of their own that has
the same layout.
-/

namespace SettingCatalog

inductive TreeLayout where
  | sidecar
  | mirrored (root folder : String)
deriving DecidableEq, Repr

namespace TreeLayout

def suffix : String := ".json"

/-- The file that holds the tree of a source file. Sources outside the root have it next to
them. -/
def treePath : TreeLayout → String → String
  | sidecar, source => source ++ suffix
  | mirrored root folder, source =>
    let inside := FilePath.relative root source
    (if FilePath.isAbsolute inside then source else FilePath.join folder inside) ++ suffix

end TreeLayout

def decodeFile (path : String) (content : Bytes) : Except TreeError Node :=
  match Node.decode content with
  | .ok tree => .ok tree
  | .error fault => .error (.undecodable path fault)

/-- The tree that a file holds. A device in its place has nothing to read, and a folder cannot be
mapped into memory. -/
def readTreeFile (fs : FileSystem) (path : String) : Except TreeError Node :=
  match fs.find path with
  | .error e => .error (.unreadable path e)
  | .ok (.file content _) => decodeFile path content
  | .ok (.device _) => decodeFile path []
  | .ok _ => .error (.unreadable path .noDevice)

def TreeLayout.acquire (layout : TreeLayout) (fs : FileSystem) (source : String) :
    Except TreeError Node :=
  readTreeFile fs (layout.treePath source)

end SettingCatalog
