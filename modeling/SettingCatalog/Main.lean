import SettingCatalog.Command.FolderStore
import SettingCatalog.Program.Run

/-!
The command. It takes a picture of the working directory, and of what else the command line and the
configuration name; it runs the program on the picture, and carries out what the program has come
to. A link is seen as what it leads to, unless it stays in the working directory. There is no
network.
-/

namespace SettingCatalog.Command

def loadFile (entry : IO.FS.DirEntry) : IO Item := do
  let time := (← entry.path.metadata).modified
  let content ← IO.FS.readBinFile entry.path
  return .file content.toList (time.sec * 1000000000 + time.nsec.toNat)

def loadLink (top : String) (level : Nat) (entry : IO.FS.DirEntry) : IO (Option Item) := do
  let target := (← IO.FS.realPath entry.path).toString
  match FilePath.relativeTo? top target with
  | some inside => return some (.link ("." ++ String.join (List.replicate level "/..")
      ++ "/" ++ inside))
  | none =>
    try
      return some (← loadFile entry)
    catch _ => return none

def loadItems (top : String) : Nat → Nat → Array IO.FS.DirEntry → IO (List (String × Item))
  | 0, _, _ => return []
  | depth + 1, level, entries => do
    let mut items := []
    for entry in entries do
      match (← entry.path.symlinkMetadata).type with
      | .dir =>
        let below ← loadItems top depth (level + 1) (← entry.path.readDir)
        items := (entry.fileName, .folder below) :: items
      | .file => items := (entry.fileName, ← loadFile entry) :: items
      | .symlink =>
        match ← loadLink top level entry with
        | some item => items := (entry.fileName, item) :: items
        | none => pure ()
      | .other => items := (entry.fileName, .device .null) :: items
    return items.reverse

def addressOf (path : String) : List String :=
  (FilePath.segments path).filter fun s => !FilePath.isIdle s

/-- The working directory, with nothing around it. -/
def loadWorkingDirectory : IO FileSystem := do
  let here ← IO.FS.realPath (← IO.currentDir)
  let items ← loadItems here.toString FileSystem.pathLimit 0 (← here.readDir)
  let address := addressOf here.toString
  return ⟨Item.put (.folder items) address (.folder []), address⟩

def loadItem (path : String) : IO Item := do
  let entry : IO.FS.DirEntry := ⟨path, ""⟩
  match (← entry.path.metadata).type with
  | .dir => return .folder (← loadItems path FileSystem.pathLimit 0 (← entry.path.readDir))
  | .file => loadFile entry
  | _ => return .device .null

def loadAbsolute (fs : FileSystem) (path : String) : IO FileSystem := do
  if FilePath.isAbsolute path then
    try
      return fs.putAt (← loadItem path) (addressOf path)
    catch _ => return fs
  else return fs

def folderOf (path : String) : String :=
  "/" ++ FilePath.ofSegments (addressOf path).dropLast

/-- The paths that a configuration names outside of the working directory. -/
def pathsOf (c : Config) : List String :=
  [c.scanRoot] ++ c.treeDir.toList ++ c.cacheDir.toList ++ [c.outputPath]

/-- The picture of all that matters to a command line. -/
def load (args : List String) : IO FileSystem := do
  let fs ← loadWorkingDirectory
  let fs ← match CommandLine.parse args with
    | .ok a => a.config.toList.foldlM loadAbsolute fs
    | .error _ => pure fs
  match Program.config? args fs with
  | none => return fs
  | some c =>
    let fs ← (pathsOf c).foldlM loadAbsolute fs
    let folder := folderOf c.outputPath
    let entry : IO.FS.DirEntry := ⟨folder, ""⟩
    if FilePath.isAbsolute c.outputPath && !fs.exists? folder && (← entry.path.isDir) then
      return fs.putAt (.folder []) (addressOf folder)
    else return fs

def host : Program.Host FolderStore.Entries where
  network := Network.offline
  processors := 1
  pool _ := .ok ()
  schedule := Schedule.inOrder
  cache folder := ⟨FolderStore.store folder, .packed⟩
  now := 0

def saveStore (fs : FileSystem) (folder : String) : IO Unit := do
  for path in [FolderStore.settingsIn folder, FolderStore.entriesIn folder] do
    match fs.read path with
    | .ok content =>
      IO.FS.createDirAll (FolderStore.blobsIn folder)
      IO.FS.writeBinFile path ⟨content.toArray⟩
    | .error _ => pure ()

def run (args : List String) : IO UInt32 := do
  let fs ← load args
  let outcome := Program.run host args ⟨fs, ⟨0, []⟩⟩
  match outcome.written with
  | some (path, content) => IO.FS.writeBinFile path ⟨content.toArray⟩
  | none => pure ()
  match (Program.config? args fs).bind Config.cacheDir with
  | some folder => saveStore outcome.world.files folder
  | none => pure ()
  (← IO.getStdout).putStr outcome.stdout
  for line in outcome.stderr do
    (← IO.getStderr).putStrLn line
  return outcome.status.code

end SettingCatalog.Command

def main (args : List String) : IO UInt32 := SettingCatalog.Command.run args
