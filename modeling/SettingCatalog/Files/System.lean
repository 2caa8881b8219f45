import SettingCatalog.Files.OsError
import SettingCatalog.Files.Path
import SettingCatalog.Text.Utf8

/-!
A file system as a value: folders of files, folders, symbolic links and devices below a root. An
address lists the names from the root down to an item. `locate` finds the place that a path leads
to, following links on its way; the other operations act on that place.
-/

namespace SettingCatalog

inductive Device where
  | null
  | full
  | standardOutput
deriving DecidableEq, Repr

inductive Item where
  /-- A file, with the time of its last change in nanoseconds since 1970. -/
  | file (content : Bytes) (modified : Int)
  | folder (items : List (String × Item))
  | link (target : String)
  | device (d : Device)

namespace Item

instance : Inhabited Item := ⟨folder []⟩

def isFolder : Item → Bool
  | folder _ => true
  | _ => false

def at? : Item → List String → Option Item
  | item, [] => some item
  | folder items, name :: rest =>
    match items.lookup name with
    | some item => item.at? rest
    | none => none
  | _, _ :: _ => none

def putNamed (name : String) (item : Item) : List (String × Item) → List (String × Item)
  | [] => [(name, item)]
  | (n, i) :: rest => if n = name then (n, item) :: rest else (n, i) :: putNamed name item rest

def put (new : Item) : List String → Item → Item
  | [], _ => new
  | name :: rest, folder items =>
    folder (putNamed name (put new rest ((items.lookup name).getD (folder []))) items)
  | name :: rest, _ => folder [(name, put new rest (folder []))]

def remove : List String → Item → Item
  | [], item => item
  | [name], folder items => folder (items.filter fun e => e.1 != name)
  | name :: rest, folder items =>
    match items.lookup name with
    | some item => folder (putNamed name (remove rest item) items)
    | none => folder items
  | _, item => item

end Item

structure FileSystem where
  root : Item
  here : List String

inductive Place where
  | taken (address : List String)
  | free (folder : List String) (name : String)
deriving DecidableEq, Repr

namespace Place

def address : Place → List String
  | taken a => a
  | free folder name => folder ++ [name]

end Place

inductive Purpose where
  | find
  /-- To write a file, which is made if it is not there. Its path ends with its name. -/
  | write
  /-- To make, replace or remove an item under its own name: a link at the end is not followed. -/
  | enter
deriving DecidableEq, Repr

namespace FileSystem

def empty : FileSystem := ⟨.folder [], []⟩

def maxLinks : Nat := 40

def nameLimit : Nat := 255

def pathLimit : Nat := 4096

/-- Goes down from an address along segments; `follow` takes over at a link. -/
def descend (fs : FileSystem) (purpose : Purpose)
    (follow : List String → List String → Except OsError Place) :
    List String → List String → Except OsError Place
  | address, [] => .ok (.taken address)
  | address, s :: segs =>
    match fs.root.at? address with
    | some (.folder items) =>
      let last := segs.all (· == "")
      if FilePath.isIdle s then descend fs purpose follow address segs
      else if s = ".." then descend fs purpose follow address.dropLast segs
      else if last && !segs.isEmpty && purpose = .write then .error .isADirectory
      else if nameLimit < s.utf8ByteSize then .error .nameTooLong
      else match items.lookup s with
        | none => if last then .ok (.free address s) else .error .notFound
        | some (.link target) =>
          if last && purpose = .enter then .ok (.taken (address ++ [s]))
          else follow (if FilePath.isAbsolute target then [] else address)
            (FilePath.segments target ++ segs)
        | some _ => descend fs purpose follow (address ++ [s]) segs
    | some _ => .error .notADirectory
    | none => .error .notFound

def resolve (fs : FileSystem) (purpose : Purpose) : Nat → List String → List String →
    Except OsError Place
  | 0, address, segs => descend fs purpose (fun _ _ => .error .tooManyLinks) address segs
  | links + 1, address, segs => descend fs purpose (resolve fs purpose links) address segs

def pathFault? (path : String) : Option OsError :=
  if path.contains '\x00' then some .nulInName
  else if pathLimit ≤ path.utf8ByteSize then some .nameTooLong
  else if path.isEmpty then some .notFound
  else none

def origin (fs : FileSystem) (path : String) : List String :=
  if FilePath.isAbsolute path then [] else fs.here

def locate (fs : FileSystem) (purpose : Purpose) (path : String) : Except OsError Place :=
  match pathFault? path with
  | some e => .error e
  | none => fs.resolve purpose maxLinks (fs.origin path) (FilePath.segments path)

def find (fs : FileSystem) (path : String) : Except OsError Item := do
  match ← fs.locate .find path with
  | .taken a =>
    match fs.root.at? a with
    | some item => return item
    | none => .error .notFound
  | .free _ _ => .error .notFound

def exists? (fs : FileSystem) (path : String) : Bool := (fs.find path).toBool

def isFolder (fs : FileSystem) (path : String) : Bool :=
  match fs.find path with
  | .ok item => item.isFolder
  | .error _ => false

def read (fs : FileSystem) (path : String) : Except OsError Bytes := do
  match ← fs.find path with
  | .file content _ => return content
  | .device _ => return []
  | _ => .error .isADirectory

def readText (fs : FileSystem) (path : String) : Except OsError String := do
  let content ← fs.read path
  match Text.Utf8.decode? content with
  | some s => return s
  | none => .error .invalidUtf8

def putAt (fs : FileSystem) (item : Item) (address : List String) : FileSystem :=
  { fs with root := Item.put item address fs.root }

def write (fs : FileSystem) (path : String) (content : Bytes) (modified : Int) :
    Except OsError FileSystem := do
  let place ← fs.locate .write path
  match fs.root.at? place.address with
  | some (.folder _) => .error .isADirectory
  | some (.device .full) => if content.isEmpty then return fs else .error .noSpace
  | some (.device _) => return fs
  | _ => return fs.putAt (.file content modified) place.address

def touch (fs : FileSystem) (path : String) (modified : Int) : Except OsError FileSystem := do
  let place ← fs.locate .write path
  match fs.root.at? place.address with
  | some (.folder _) => .error .isADirectory
  | some _ => return fs
  | none => return fs.putAt (.file [] modified) place.address

def enter (fs : FileSystem) (path : String) (item : Item) : Except OsError FileSystem := do
  match ← fs.locate .enter path with
  | .taken _ => .error .alreadyExists
  | .free folder name => return fs.putAt item (folder ++ [name])

def rename (fs : FileSystem) (old new : String) : Except OsError FileSystem := do
  match ← fs.locate .enter old with
  | .free _ _ => .error .notFound
  | .taken a =>
    let place ← fs.locate .enter new
    match fs.root.at? a, fs.root.at? place.address with
    | _, some (.folder _) => .error .isADirectory
    | some item, _ =>
      return { fs with root := Item.put item place.address (Item.remove a fs.root) }
    | none, _ => .error .notFound

def remove (fs : FileSystem) (path : String) : Except OsError FileSystem := do
  match ← fs.locate .enter path with
  | .taken a => return { fs with root := Item.remove a fs.root }
  | .free _ _ => .error .notFound

/-- Makes a folder and those on the way to it, given the segments of its path from the last to the
first, behind the text `start`. A folder that is there stays as it is. -/
def makeFolders (fs : FileSystem) (start : String) : List String → Except OsError FileSystem
  | [] => .ok fs
  | s :: above =>
    let path := start ++ FilePath.ofSegments (s :: above).reverse
    match fs.enter path (.folder []) with
    | .ok fs => .ok fs
    | .error .notFound => do
      let fs ← makeFolders fs start above
      match fs.enter path (.folder []) with
      | .ok fs => return fs
      | .error e => if fs.isFolder path then return fs else .error e
    | .error e => if fs.isFolder path then .ok fs else .error e

def makeFolder (fs : FileSystem) (path : String) : Except OsError FileSystem :=
  if path.isEmpty then .ok fs
  else if FilePath.isAbsolute path then fs.makeFolders "/" (FilePath.segments path).tail.reverse
  else fs.makeFolders "" (FilePath.segments path).reverse

end FileSystem

end SettingCatalog
