import SettingCatalog.Files.Path
import SettingCatalog.Setting.Extract
import SettingCatalog.Source.Error

/-!
What a run over many source files gives. The report lists everything in the order of the files.
-/

namespace SettingCatalog

abbrev FileOutcome := Except TreeError Extraction

structure FileFailure where
  path : String
  error : TreeError
deriving DecidableEq, Repr

structure Report where
  records : List Record
  diagnostics : List Diagnostic
  failures : List FileFailure
  filesScanned : Nat
deriving DecidableEq, Repr

/-- A run that was given up at a file. -/
structure Aborted where
  path : String
  error : TreeError
deriving DecidableEq, Repr

namespace Aborted

def message (a : Aborted) : String := "Failed to obtain tree for " ++ a.path

end Aborted

inductive RunError where
  /-- There is no pool of workers. The texts are what happened and the causes behind it. -/
  | pool (chain : List String)
  | aborted (cause : Aborted)
deriving DecidableEq, Repr

namespace RunError

def chain : RunError → List String
  | pool chain => chain
  | aborted cause => cause.message :: cause.error.chain

end RunError

namespace Report

def empty : Report := ⟨[], [], [], 0⟩

def isClean (r : Report) : Bool := r.failures.isEmpty

def summary (r : Report) : String :=
  toString r.records.length ++ " settings from " ++ toString r.filesScanned ++ " files ("
    ++ toString r.diagnostics.length ++ " skipped declarations, " ++ toString r.failures.length
    ++ " failed files)"

def add (r : Report) (path : String) : FileOutcome → Report
  | .ok x =>
    { r with
      records := r.records ++ x.records
      diagnostics := r.diagnostics ++ x.diagnostics
      filesScanned := r.filesScanned + 1 }
  | .error e =>
    { r with
      failures := r.failures ++ [⟨path, e⟩]
      filesScanned := r.filesScanned + 1 }

end Report

structure Job where
  extractor : Extractor
  root : String
  failFast : Bool
deriving DecidableEq, Repr

namespace Job

def outcome (job : Job) (path : String) (tree : Except TreeError Node) : FileOutcome :=
  tree.map fun t => job.extractor.extract t (FilePath.sourcePath job.root path)

def sequential {σ : Type} (job : Job) (source : TreeSource σ) :
    List String → Report → σ → Except Aborted Report × σ
  | [], report, s => (.ok report, s)
  | path :: paths, report, s =>
    let (tree, s) := source path s
    match job.outcome path tree with
    | .ok x => sequential job source paths (report.add path (.ok x)) s
    | .error e =>
      if job.failFast then (.error ⟨path, e⟩, s)
      else sequential job source paths (report.add path (.error e)) s

/-- Puts the outcomes of files together in their order. A file without an outcome was passed
over. -/
def merge (job : Job) : List (String × Option FileOutcome) → Report → Except Aborted Report
  | [], report => .ok report
  | (_, none) :: rest, report => merge job rest report
  | (path, some (.ok x)) :: rest, report => merge job rest (report.add path (.ok x))
  | (path, some (.error e)) :: rest, report =>
    if job.failFast then .error ⟨path, e⟩ else merge job rest (report.add path (.error e))

end Job

end SettingCatalog
