import SettingCatalog.CommandLine.Configure
import SettingCatalog.CommandLine.Parse
import SettingCatalog.Program.Failure
import SettingCatalog.Program.Help
import SettingCatalog.Run.Pool
import SettingCatalog.Source.Origin

/-!
The program: from a command line and the files of the working directory to what is printed, what is
written, and the status.
-/

namespace SettingCatalog

namespace Config

/-- Where the trees come from. Stored trees go before the service; without either, trees are next
to their sources. -/
def origin (c : Config) : TreeOrigin :=
  match c.treeDir, c.serviceEndpoint with
  | some folder, _ => .stored (.mirrored c.rootDirectory folder)
  | none, some endpoint =>
    .service
      { endpoint := endpoint
        language := Client.defaultLanguage
        timeout := c.timeoutMs
        retry := c.retryPolicy }
  | none, none => .stored .sidecar

/-- The number of workers. It is left to the machine to use half its processors. -/
def workers (c : Config) (processors : Nat) : Nat :=
  if c.jobs = 0 then max 1 (processors / 2) else c.jobs.toNat

def job (c : Config) : Job :=
  ⟨⟨c.settingTypeName, c.propertyAnchorName⟩, c.rootDirectory, c.failFast⟩

end Config

namespace Program

structure Host (σ : Type) where
  network : String → Network
  processors : Nat
  /-- Builds a pool of workers. -/
  pool : Nat → Except (List String) Unit
  /-- The order in which workers act on a number of files. -/
  schedule : Nat → Schedule
  cache : String → Cache σ
  now : Int

structure World where
  files : FileSystem
  traffic : Client.Traffic

inductive Status where
  | success
  | failure
  | incomplete
  | misuse
deriving DecidableEq, Repr

namespace Status

def code : Status → UInt32
  | success => 0
  | failure => 1
  | incomplete => 2
  | misuse => 2

end Status

structure Outcome where
  status : Status
  stdout : String
  stderr : List String
  written : Option (String × Bytes)
  world : World

def standardOutput : String := "-"

def toStandardOutput (c : Config) (fs : FileSystem) : Bool :=
  c.outputPath == standardOutput ||
    match fs.find c.outputPath with
    | .ok (.device .standardOutput) => true
    | _ => false

def reportLines (c : Config) (r : Report) : List String :=
  r.failures.map (fun f => "[FAILED] " ++ f.path ++ ": " ++ f.error.message)
    ++ [r.summary ++ " -> " ++ c.outputPath]

/-- What a run comes to before its store is given up. -/
structure Pass (σ : Type) where
  result : Except Failure Bool
  stdout : String
  stderr : List String
  written : Option (String × Bytes)
  opened : OpenStore σ
  traffic : Client.Traffic

variable {σ τ : Type}

def deliver (host : Host τ) (c : Config) (r : Report) (x : OpenStore σ)
    (traffic : Client.Traffic) : Pass σ :=
  let text := Export.render c.format r.records
  if toStandardOutput c x.files then
    ⟨.ok r.isClean, text, reportLines c r, none, x, traffic⟩
  else
    let content := Text.Utf8.encode text
    match x.files.write c.outputPath content host.now with
    | .error e => ⟨.error (.unwritable c.outputPath e), "", [], none, x, traffic⟩
    | .ok fs =>
      ⟨.ok r.isClean, "", reportLines c r, some (c.outputPath, content), ⟨x.state, fs⟩, traffic⟩

def gather (host : Host τ) (c : Config) (source : TreeSource (OpenStore σ × Client.Traffic))
    (x : OpenStore σ) (traffic : Client.Traffic) :
    Except Failure Report × OpenStore σ × Client.Traffic :=
  match x.files.walk c.fileExtension c.scanRoot with
  | .error e => (.error (.walk e), x, traffic)
  | .ok paths =>
    let (result, rest) := c.job.run host.pool source (c.workers host.processors)
      (host.schedule paths.length) paths (x, traffic)
    (result.mapError .run, rest)

def extract (host : Host τ) (c : Config) (source : TreeSource (OpenStore σ × Client.Traffic))
    (x : OpenStore σ) (traffic : Client.Traffic) : Pass σ :=
  match gather host c source x traffic with
  | (.error f, x, traffic) => ⟨.error f, "", [], none, x, traffic⟩
  | (.ok report, x, traffic) => deliver host c report x traffic

def giveUp (w : World) (f : Failure) : Outcome := ⟨.failure, "", [f.message], none, w⟩

def Pass.conclude (p : Pass σ) (result : Except Failure Bool) (fs : FileSystem) : Outcome :=
  match result with
  | .ok true => ⟨.success, p.stdout, p.stderr, p.written, ⟨fs, p.traffic⟩⟩
  | .ok false => ⟨.incomplete, p.stdout, p.stderr, p.written, ⟨fs, p.traffic⟩⟩
  | .error f => ⟨.failure, p.stdout, p.stderr ++ [f.message], p.written, ⟨fs, p.traffic⟩⟩

/-- The end of the program after a pass over a store. What was inserted is written once the records
are delivered, and the store is given up in any case. -/
def Pass.finish (store : Store σ) (p : Pass σ) : Outcome :=
  match p.result with
  | .error f => p.conclude (.error f) (store.close p.opened)
  | .ok clean =>
    match store.flush p.opened with
    | (.error e, x) => p.conclude (.error (.flush (.cache e))) (store.close x)
    | (.ok (), x) => p.conclude (.ok clean) (store.close x)

def execute (host : Host τ) (c : Config) (w : World) : Outcome :=
  match c.cacheDir with
  | none =>
    let p := extract host c (c.origin.direct host.network) ⟨(), w.files⟩ w.traffic
    p.conclude p.result p.opened.files
  | some folder =>
    let cache := host.cache folder
    match cache.store.openIn w.files with
    | (.error e, fs) => giveUp ⟨fs, w.traffic⟩ (.cache folder (.cache e))
    | (.ok state, fs) =>
      let source := c.origin.cached host.network cache
      (extract host c source ⟨state, fs⟩ w.traffic).finish cache.store

def stop (w : World) : CommandLine.Stop → Outcome
  | .usage e => ⟨.misuse, "", ["error: " ++ e.message], none, w⟩
  | .help => ⟨.success, helpText, [], none, w⟩
  | .version => ⟨.success, versionText, [], none, w⟩

def config? (args : List String) (fs : FileSystem) : Option Config :=
  match CommandLine.parse args with
  | .ok a => (a.configure fs).toOption
  | .error _ => none

def run (host : Host τ) (args : List String) (w : World) : Outcome :=
  match CommandLine.parse args with
  | .error s => stop w s
  | .ok a =>
    match a.configure w.files with
    | .error e => giveUp w (.config e)
    | .ok c => execute host c w

end Program

end SettingCatalog
