import SettingCatalog.Files.System

/-!
The source files below a path: depth first, the items of a folder in the order of their names,
without the folders whose name begins with a dot.
-/

namespace SettingCatalog

inductive WalkError where
  | notFound (path : String)
  | unreadable (path : String) (cause : OsError)
deriving DecidableEq, Repr

namespace WalkError

def chain : WalkError → List String
  | notFound path => ["Source path not found: " ++ path]
  | unreadable path cause => ["Failed to read directory " ++ path, cause.message]

def message (e : WalkError) : String := Text.joinTexts ": " e.chain

end WalkError

namespace FileSystem

def sortedNames (items : List (String × Item)) : List String :=
  (items.map Prod.fst).mergeSort fun a b => decide (a ≤ b)

def isHidden (name : String) : Bool := name.toList.head? == some '.'

def hasExtension (extension path : String) : Bool :=
  FilePath.extension? path == some (FilePath.bareExtension extension)

/-- The matching files at or below a path. The bound is on the depth. -/
def collect (fs : FileSystem) (extension : String) : Nat → String → List String
  | 0, _ => []
  | depth + 1, path =>
    match fs.find path with
    | .ok (.folder items) =>
      (sortedNames items).flatMap fun name =>
        let child := FilePath.join path name
        match fs.find child with
        | .ok (.folder _) => if isHidden name then [] else collect fs extension depth child
        | _ => if hasExtension extension child then [child] else []
    | _ => if hasExtension extension path then [path] else []

/-- The source files at or below an existing path. A path has more bytes than folders, so its
length bounds the depth. -/
def walk (fs : FileSystem) (extension root : String) : Except WalkError (List String) :=
  match fs.find root with
  | .error _ => .error (.notFound root)
  | .ok (.device _) => .error (.unreadable root .notADirectory)
  | .ok _ => .ok (fs.collect extension pathLimit root)

end FileSystem

end SettingCatalog
