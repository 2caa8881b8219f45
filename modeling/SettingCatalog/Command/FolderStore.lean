import SettingCatalog.Number.LittleEndian
import SettingCatalog.Source.Cache

/-!
The store of the command. Its folder has a file with settings, a folder for values that are too
large for the file of the others, and that file. All of it is read when the store is opened and
written when it is flushed or given up.
-/

namespace SettingCatalog

open LittleEndian

namespace EntryLayout

def packed : EntryLayout where
  serialize e := .ok (encode 4 e.version.toNat ++ encode 8 e.fingerprint.modified.toNat ++
    encode 8 e.fingerprint.size.toNat ++ e.tree)
  deserialize bs :=
    if bs.length < 20 then .error "unexpected end"
    else .ok
      { version := .ofNat (decode (bs.take 4))
        fingerprint :=
          ⟨.ofNat (decode ((bs.drop 4).take 8)), .ofNat (decode ((bs.drop 12).take 8))⟩
        tree := bs.drop 20 }

end EntryLayout

namespace FolderStore

inductive Fault where
  | io (cause : OsError)
  | corrupted
deriving DecidableEq, Repr

def Fault.message : Fault → String
  | io cause => "IO error: " ++ cause.message
  | corrupted => "Read corrupted data at file offset None"

abbrev Entries := List (Bytes × Bytes)

namespace Entries

def insert (key value : Bytes) : Entries → Entries
  | [] => [(key, value)]
  | (k, v) :: rest => if k = key then (key, value) :: rest else (k, v) :: insert key value rest

def block (bs : Bytes) : Bytes := encode 8 bs.length ++ bs

def toBytes (es : Entries) : Bytes :=
  encode 8 es.length ++ es.flatMap fun e => block e.1 ++ block e.2

def splitBlock (bs : Bytes) : Bytes × Bytes :=
  (bs.drop 8).splitAt (decode (bs.take 8))

def readEntries : Nat → Bytes → Entries
  | 0, _ => []
  | count + 1, bs =>
    let (key, bs) := splitBlock bs
    let (value, bs) := splitBlock bs
    (key, value) :: readEntries count bs

/-- The entries in the content of a file. Their number is no larger than that of the bytes. -/
def ofBytes (bs : Bytes) : Entries :=
  readEntries (min (decode (bs.take 8)) bs.length) (bs.drop 8)

end Entries

def blobsIn (folder : String) : String := FilePath.join folder "blobs"

def settingsIn (folder : String) : String := FilePath.join folder "conf"

def newSettingsIn (folder : String) : String := FilePath.join folder "conf.tmp"

def entriesIn (folder : String) : String := FilePath.join folder "db"

def settings : Bytes := Text.Utf8.encode "format: binary\nversion: 1\n"

def settingsMark : Nat := 8

/-- The file system with settings written. They take their place under another name. -/
def writeSettings (folder : String) (fs : FileSystem) : Except OsError FileSystem := do
  let fs ← fs.write (newSettingsIn folder) settings 0
  fs.rename (newSettingsIn folder) (settingsIn folder)

def ensureSettings (folder : String) (fs : FileSystem) : Except Fault FileSystem :=
  match fs.read (settingsIn folder) with
  | .error .notFound => (writeSettings folder fs).mapError .io
  | .error e => .error (.io e)
  | .ok content =>
    if content.length ≤ settingsMark then (writeSettings folder fs).mapError .io
    else if content = settings then .ok fs
    else .error .corrupted

def ensureBlobs (folder : String) (fs : FileSystem) : Except Fault FileSystem :=
  if fs.exists? (blobsIn folder) then .ok fs
  else (fs.makeFolder (blobsIn folder)).mapError .io

def prepare : List (FileSystem → Except Fault FileSystem) → FileSystem →
    Except String Unit × FileSystem
  | [], fs => (.ok (), fs)
  | step :: steps, fs =>
    match step fs with
    | .ok fs => prepare steps fs
    | .error e => (.error e.message, fs)

def openIn (folder : String) (fs : FileSystem) : Except String Entries × FileSystem :=
  let (prepared, fs) := prepare
    [ensureBlobs folder, ensureSettings folder,
      fun fs => (fs.touch (entriesIn folder) 0).mapError .io] fs
  (prepared.map fun _ => .ofBytes ((fs.read (entriesIn folder)).toOption.getD []), fs)

def flush (folder : String) (x : OpenStore Entries) : Except String Unit × OpenStore Entries :=
  match x.files.write (entriesIn folder) x.state.toBytes 0 with
  | .ok fs => (.ok (), ⟨x.state, fs⟩)
  | .error e => (.error (Fault.io e).message, x)

def store (folder : String) : Store Entries where
  openIn := openIn folder
  get key x := (.ok (x.state.lookup key), x)
  insert key value x := (.ok (), { x with state := x.state.insert key value })
  size x := x.state.length
  flush := flush folder
  close x := (flush folder x).2.files

end FolderStore

end SettingCatalog
