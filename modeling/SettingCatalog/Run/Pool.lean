import SettingCatalog.Run.Report

/-!
Runs with several workers. A worker that takes up a file looks at a shared flag, gets the tree of
the file, and raises the flag if there is none; where the first failure ends the run, a file that
is taken up under a raised flag is passed over. A schedule lists these actions in the order in
which they happen; actions that are not due are ignored.
-/

namespace SettingCatalog

inductive Progress where
  | waiting
  | taken
  | acquired (outcome : FileOutcome)
  | finished (outcome : FileOutcome)
  | passedOver

namespace Progress

def outcome? : Progress → Option FileOutcome
  | finished outcome => some outcome
  | _ => none

def isDone : Progress → Bool
  | finished _ => true
  | passedOver => true
  | _ => false

end Progress

inductive Action where
  /-- Looks at the flag. -/
  | take (file : Nat)
  | acquire (file : Nat)
  /-- Raises the flag if the file has failed. -/
  | finish (file : Nat)
deriving DecidableEq, Repr

abbrev Schedule := List Action

/-- The files with their progress, the flag, and the state of the source. -/
structure Pool (σ : Type) where
  files : List (String × Progress)
  failed : Bool
  state : σ

namespace Pool

variable {σ : Type}

def ofFiles (paths : List String) (s : σ) : Pool σ := ⟨paths.map (·, .waiting), false, s⟩

def setProgress (p : Pool σ) (i : Nat) (path : String) (progress : Progress) : Pool σ :=
  { p with files := p.files.set i (path, progress) }

def step (job : Job) (source : TreeSource σ) (p : Pool σ) : Action → Pool σ
  | .take i =>
    match p.files[i]? with
    | some (path, .waiting) =>
      p.setProgress i path (if job.failFast && p.failed then .passedOver else .taken)
    | _ => p
  | .acquire i =>
    match p.files[i]? with
    | some (path, .taken) =>
      let (tree, s) := source path p.state
      { p with state := s }.setProgress i path (.acquired (job.outcome path tree))
    | _ => p
  | .finish i =>
    match p.files[i]? with
    | some (path, .acquired outcome) =>
      { p with failed := p.failed || !outcome.toBool }.setProgress i path (.finished outcome)
    | _ => p

def run (job : Job) (source : TreeSource σ) (p : Pool σ) (schedule : Schedule) : Pool σ :=
  schedule.foldl (step job source) p

def isDone (p : Pool σ) : Bool := p.files.all fun f => f.2.isDone

def outcomes (p : Pool σ) : List (String × Option FileOutcome) :=
  p.files.map fun f => (f.1, f.2.outcome?)

end Pool

namespace Schedule

def inOrder (count : Nat) : Schedule :=
  (List.range count).flatMap fun i => [.take i, .acquire i, .finish i]

end Schedule

namespace Job

variable {σ : Type}

def parallel (job : Job) (source : TreeSource σ) (schedule : Schedule) (paths : List String)
    (s : σ) : Except Aborted Report × σ :=
  let p := (Pool.ofFiles paths s).run job source schedule
  (job.merge p.outcomes .empty, p.state)

/-- Runs over files. Only for more than one worker is a pool built, which may fail, and a schedule
needed. -/
def run (job : Job) (build : Nat → Except (List String) Unit) (source : TreeSource σ)
    (workers : Nat) (schedule : Schedule) (paths : List String) (s : σ) :
    Except RunError Report × σ :=
  if workers ≤ 1 then
    let (result, s) := job.sequential source paths .empty s
    (result.mapError .aborted, s)
  else
    match build workers with
    | .error chain => (.error (.pool chain), s)
    | .ok () =>
      let (result, s) := job.parallel source schedule paths s
      (result.mapError .aborted, s)

end Job

end SettingCatalog
