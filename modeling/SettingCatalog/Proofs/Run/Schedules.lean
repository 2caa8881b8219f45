import Mathlib.Data.List.Basic
import SettingCatalog.Run.Pool

/-! Where failures do not end a run, its report does not depend on the workers. Every action keeps
the pool faithful: a file that was asked for has the outcome that its tree gives, and no file is
passed over. So when all files are done with, their outcomes are those of one pass over the list. -/

namespace SettingCatalog

namespace Job

variable (job : Job) (answer : String → Except TreeError Node)

/-! ### One pass over the files -/

def extractions (paths : List String) : List Extraction :=
  paths.filterMap fun path => match answer path with
    | .ok tree => some (job.extractor.extract tree (FilePath.sourcePath job.root path))
    | .error _ => none

def failuresOf (paths : List String) : List FileFailure :=
  paths.filterMap fun path => match answer path with
    | .ok _ => none
    | .error e => some ⟨path, e⟩

def onePass (paths : List String) : Report where
  records := (job.extractions answer paths).flatMap Extraction.records
  diagnostics := (job.extractions answer paths).flatMap Extraction.diagnostics
  failures := failuresOf answer paths
  filesScanned := paths.length

def addAll (report : Report) (paths : List String) : Report :=
  paths.foldl (fun r path => r.add path (job.outcome path (answer path))) report

lemma addAll_eq (report : Report) (paths : List String) :
    job.addAll answer report paths =
      { records := report.records ++ (job.onePass answer paths).records
        diagnostics := report.diagnostics ++ (job.onePass answer paths).diagnostics
        failures := report.failures ++ (job.onePass answer paths).failures
        filesScanned := report.filesScanned + (job.onePass answer paths).filesScanned } := by
  induction paths generalizing report with
  | nil => simp [addAll, onePass, extractions, failuresOf]
  | cons path paths ih =>
    rw [addAll, List.foldl_cons, ← addAll, ih]
    cases h : answer path with
    | ok tree =>
      simp [onePass, extractions, failuresOf, h, outcome, Except.map, Report.add]
      omega
    | error e =>
      simp [onePass, extractions, failuresOf, h, outcome, Except.map, Report.add]
      omega

lemma addAll_empty (paths : List String) :
    job.addAll answer .empty paths = job.onePass answer paths := by
  simp [addAll_eq, Report.empty]

variable {job answer} {σ : Type} {source : TreeSource σ}

def Unbroken (job : Job) (answer : String → Except TreeError Node) (paths : List String) : Prop :=
  job.failFast = true → ∀ path ∈ paths, ∃ tree, answer path = .ok tree

lemma unbroken_of_not_failFast (hf : job.failFast = false) (paths : List String) :
    job.Unbroken answer paths := by
  intro hff
  rw [hf] at hff
  cases hff

lemma Unbroken.tail {path : String} {paths : List String}
    (h : job.Unbroken answer (path :: paths)) : job.Unbroken answer paths :=
  fun hff p hp => h hff p (List.mem_cons_of_mem path hp)

lemma outcome_eq_error_iff {path : String} {tree : Except TreeError Node} {e : TreeError} :
    job.outcome path tree = .error e ↔ tree = .error e := by
  cases tree <;> simp [outcome, Except.map]

lemma Unbroken.failFast_eq {path : String} {paths : List String} {e : TreeError}
    (h : job.Unbroken answer (path :: paths)) (he : job.outcome path (answer path) = .error e) :
    job.failFast = false := by
  rw [outcome_eq_error_iff] at he
  rw [← Bool.not_eq_true]
  intro hff
  obtain ⟨tree, ht⟩ := h hff path List.mem_cons_self
  rw [he] at ht
  cases ht

lemma sequential_eq (hs : ∀ path s, (source path s).1 = answer path) {paths : List String}
    (hu : job.Unbroken answer paths) (report : Report) (s : σ) :
    (job.sequential source paths report s).1 = .ok (job.addAll answer report paths) := by
  induction paths generalizing report s with
  | nil => rfl
  | cons path paths ih =>
    rw [sequential, addAll, List.foldl_cons, ← addAll, ← hs path s]
    dsimp only
    split
    · rename_i x hx
      rw [ih hu.tail, hx]
    · rename_i e he
      rw [hu.failFast_eq (hs path s ▸ he), he]
      exact ih hu.tail _ _

lemma merge_eq {paths : List String} (hu : job.Unbroken answer paths) (report : Report) :
    job.merge (paths.map fun path => (path, some (job.outcome path (answer path)))) report =
      .ok (job.addAll answer report paths) := by
  induction paths generalizing report with
  | nil => rfl
  | cons path paths ih =>
    rw [List.map_cons, addAll, List.foldl_cons, ← addAll]
    cases h : job.outcome path (answer path) with
    | ok x => exact ih hu.tail _
    | error e =>
      rw [merge, hu.failFast_eq h]
      exact ih hu.tail _

end Job

/-! ### Actions of workers -/

namespace Progress

def Fits (outcome : FileOutcome) : Progress → Prop
  | waiting => True
  | taken => True
  | acquired o => o = outcome
  | finished o => o = outcome
  | passedOver => False

@[simp] lemma fits_acquired {outcome o : FileOutcome} : (acquired o).Fits outcome ↔ o = outcome :=
  Iff.rfl

@[simp] lemma fits_finished {outcome o : FileOutcome} : (finished o).Fits outcome ↔ o = outcome :=
  Iff.rfl

end Progress

namespace Pool

variable {σ : Type} {job : Job} {source : TreeSource σ} {answer : String → Except TreeError Node}
  {paths : List String}

structure Faithful (job : Job) (answer : String → Except TreeError Node) (paths : List String)
    (p : Pool σ) : Prop where
  paths : p.files.map Prod.fst = paths
  fits : ∀ f ∈ p.files, f.2.Fits (job.outcome f.1 (answer f.1))

lemma Faithful.ofFiles (s : σ) : Faithful job answer paths (ofFiles paths s) where
  paths := by simp [Pool.ofFiles, Function.comp_def]
  fits f hf := by
    obtain ⟨path, -, rfl⟩ := List.mem_map.mp hf
    trivial

lemma map_fst_setProgress {p : Pool σ} {i : ℕ} {path : String} {old : Progress}
    (hi : p.files[i]? = some (path, old)) (new : Progress) :
    (p.setProgress i path new).files.map Prod.fst = p.files.map Prod.fst := by
  obtain ⟨hlt, hget⟩ := List.getElem?_eq_some_iff.mp hi
  have hlt' : i < (p.files.map Prod.fst).length := by simpa using hlt
  have hpath : (p.files.map Prod.fst)[i] = path := by rw [List.getElem_map, hget]
  rw [Pool.setProgress, List.map_set]
  nth_rewrite 2 [← List.set_getElem_self hlt']
  rw [hpath]

lemma Faithful.setProgress {p : Pool σ} (h : Faithful job answer paths p) {i : ℕ} {path : String}
    {old new : Progress} (hi : p.files[i]? = some (path, old))
    (hn : new.Fits (job.outcome path (answer path))) :
    Faithful job answer paths (p.setProgress i path new) where
  paths := by rw [map_fst_setProgress hi, h.paths]
  fits f hf := by
    rcases List.mem_or_eq_of_mem_set hf with hf | rfl
    · exact h.fits f hf
    · exact hn

lemma step_cases (job : Job) (source : TreeSource σ) (p : Pool σ) (a : Action) :
    p.step job source a = p ∨
    (∃ i path, p.files[i]? = some (path, .waiting) ∧ p.step job source a =
      p.setProgress i path (if job.failFast && p.failed then .passedOver else .taken)) ∨
    (∃ i path, p.files[i]? = some (path, .taken) ∧ p.step job source a =
      { p with state := (source path p.state).2 }.setProgress i path
        (.acquired (job.outcome path (source path p.state).1))) ∨
    ∃ i path, ∃ outcome : FileOutcome, p.files[i]? = some (path, .acquired outcome) ∧
      p.step job source a =
        { p with failed := p.failed || !outcome.toBool }.setProgress i path
          (.finished outcome) := by
  cases a with
  | take i =>
    simp only [step]
    split
    · rename_i path hi
      exact .inr (.inl ⟨i, path, hi, rfl⟩)
    · exact .inl rfl
  | acquire i =>
    simp only [step]
    split
    · rename_i path hi
      exact .inr (.inr (.inl ⟨i, path, hi, rfl⟩))
    · exact .inl rfl
  | finish i =>
    simp only [step]
    split
    · rename_i path outcome hi
      exact .inr (.inr (.inr ⟨i, path, outcome, hi, rfl⟩))
    · exact .inl rfl

lemma Faithful.step (hf : job.failFast = false) (hs : ∀ path s, (source path s).1 = answer path)
    {p : Pool σ} (h : Faithful job answer paths p) (a : Action) :
    Faithful job answer paths (p.step job source a) := by
  rcases step_cases job source p a with he | ⟨i, path, hi, he⟩ | ⟨i, path, hi, he⟩ |
    ⟨i, path, outcome, hi, he⟩
  · rw [he]
    exact h
  · rw [he]
    apply h.setProgress hi
    simp [hf, Progress.Fits]
  · rw [he]
    have hstate : Faithful job answer paths { p with state := (source path p.state).2 } :=
      ⟨h.paths, h.fits⟩
    apply hstate.setProgress hi
    rw [Progress.fits_acquired, hs]
  · rw [he]
    have hflag : Faithful job answer paths { p with failed := p.failed || !outcome.toBool } :=
      ⟨h.paths, h.fits⟩
    apply hflag.setProgress hi
    rw [Progress.fits_finished, ← Progress.fits_acquired]
    exact h.fits (path, .acquired outcome) (List.mem_of_getElem? hi)

lemma Faithful.run (hf : job.failFast = false) (hs : ∀ path s, (source path s).1 = answer path)
    {p : Pool σ} (h : Faithful job answer paths p) (schedule : Schedule) :
    Faithful job answer paths (p.run job source schedule) := by
  induction schedule generalizing p with
  | nil => exact h
  | cons a schedule ih => exact ih (h.step hf hs a)

lemma Faithful.outcomes {p : Pool σ} (h : Faithful job answer paths p) (hd : p.isDone = true) :
    p.outcomes = paths.map fun path => (path, some (job.outcome path (answer path))) := by
  rw [isDone, List.all_eq_true] at hd
  rw [← h.paths, List.map_map, Pool.outcomes]
  apply List.map_congr_left
  rintro ⟨path, progress⟩ hf
  have hfit := h.fits (path, progress) hf
  have hdone := hd (path, progress) hf
  cases progress with
  | finished o =>
    rw [Progress.fits_finished] at hfit
    simp only [Progress.outcome?, Function.comp_apply, hfit]
  | passedOver => exact hfit.elim
  | waiting => cases hdone
  | taken => cases hdone
  | acquired o => cases hdone

/-! ### Every schedule can be completed -/

def DoneAt (p : Pool σ) (i : ℕ) : Prop := ∀ f ∈ p.files[i]?, f.2.isDone = true

lemma DoneAt.setProgress {p : Pool σ} {i j : ℕ} (h : p.DoneAt i) {path : String}
    {old new : Progress} (hj : p.files[j]? = some (path, old)) (hold : old.isDone = false) :
    (p.setProgress j path new).DoneAt i := by
  intro f hf
  have hne : j ≠ i := by
    rintro rfl
    simpa [hold] using h _ hj
  rw [Pool.setProgress, List.getElem?_set_ne hne] at hf
  exact h f hf

lemma DoneAt.step {p : Pool σ} {i : ℕ} (h : p.DoneAt i) (a : Action) :
    (p.step job source a).DoneAt i := by
  rcases step_cases job source p a with he | ⟨j, path, hj, he⟩ | ⟨j, path, hj, he⟩ |
    ⟨j, path, outcome, hj, he⟩
  · rw [he]
    exact h
  · rw [he]
    exact h.setProgress hj rfl
  · rw [he]
    exact DoneAt.setProgress (p := { p with state := (source path p.state).2 }) h hj rfl
  · rw [he]
    exact DoneAt.setProgress (p := { p with failed := p.failed || !outcome.toBool }) h hj rfl

lemma DoneAt.run {p : Pool σ} {i : ℕ} (h : p.DoneAt i) (schedule : Schedule) :
    (p.run job source schedule).DoneAt i := by
  induction schedule generalizing p with
  | nil => exact h
  | cons a schedule ih => exact ih (h.step a)

lemma getElem?_setProgress {p : Pool σ} {i : ℕ} {path : String} {old new : Progress}
    (hi : p.files[i]? = some (path, old)) :
    (p.setProgress i path new).files[i]? = some (path, new) := by
  obtain ⟨hlt, -⟩ := List.getElem?_eq_some_iff.mp hi
  exact List.getElem?_set_self hlt

lemma doneAt_of_getElem? {p : Pool σ} {i : ℕ} {f : String × Progress} (hi : p.files[i]? = some f)
    (hf : f.2.isDone = true) : p.DoneAt i := by
  intro g hg
  rw [hi, Option.mem_some] at hg
  rw [← hg, hf]

lemma doneAt_acquired {p : Pool σ} {i : ℕ} {path : String} {o : FileOutcome}
    (hi : p.files[i]? = some (path, .acquired o)) :
    (p.run job source [.finish i]).DoneAt i := by
  apply doneAt_of_getElem? (f := (path, .finished o)) _ rfl
  simp only [run, List.foldl_cons, List.foldl_nil, step, hi]
  exact getElem?_setProgress hi

lemma doneAt_taken {p : Pool σ} {i : ℕ} {path : String} (hi : p.files[i]? = some (path, .taken)) :
    (p.run job source [.acquire i, .finish i]).DoneAt i := by
  have ha : (p.step job source (.acquire i)).files[i]? =
      some (path, .acquired (job.outcome path (source path p.state).1)) := by
    simp only [step, hi]
    exact getElem?_setProgress hi
  exact doneAt_acquired ha

lemma doneAt_waiting {p : Pool σ} {i : ℕ} {path : String}
    (hi : p.files[i]? = some (path, .waiting)) :
    (p.run job source [.take i, .acquire i, .finish i]).DoneAt i := by
  have ht : (p.step job source (.take i)).files[i]? =
      some (path, if job.failFast && p.failed then .passedOver else .taken) := by
    simp only [step, hi]
    exact getElem?_setProgress hi
  cases hc : job.failFast && p.failed with
  | true =>
    rw [hc] at ht
    exact (doneAt_of_getElem? ht rfl).run _
  | false =>
    rw [hc] at ht
    exact doneAt_taken ht

/-- The three actions on a file bring it to its end from wherever it is. -/
lemma doneAt_actions (p : Pool σ) (i : ℕ) :
    (p.run job source [.take i, .acquire i, .finish i]).DoneAt i := by
  cases hi : p.files[i]? with
  | none =>
    have hd : p.DoneAt i := by simp [DoneAt, hi]
    exact hd.run _
  | some f =>
    obtain ⟨path, progress⟩ := f
    cases progress with
    | waiting => exact doneAt_waiting hi
    | taken =>
      have ht : p.step job source (.take i) = p := by simp [step, hi]
      rw [run, List.foldl_cons, ht]
      exact doneAt_taken hi
    | acquired o =>
      have ht : p.step job source (.take i) = p := by simp [step, hi]
      have ha : p.step job source (.acquire i) = p := by simp [step, hi]
      rw [run, List.foldl_cons, ht, List.foldl_cons, ha]
      exact doneAt_acquired hi
    | finished o => exact (doneAt_of_getElem? hi rfl).run _
    | passedOver => exact (doneAt_of_getElem? hi rfl).run _

lemma run_append (p : Pool σ) (early late : Schedule) :
    p.run job source (early ++ late) = (p.run job source early).run job source late :=
  List.foldl_append

lemma doneAt_inOrder (p : Pool σ) {i count : ℕ} (h : i < count) :
    (p.run job source (.inOrder count)).DoneAt i := by
  induction count with
  | zero => omega
  | succ count ih =>
    rw [Schedule.inOrder, List.range_succ, List.flatMap_append, run_append, ← Schedule.inOrder]
    rcases Nat.lt_succ_iff_lt_or_eq.mp h with hlt | rfl
    · exact (ih hlt).run _
    · exact doneAt_actions _ i

lemma length_files_run (p : Pool σ) (schedule : Schedule) :
    (p.run job source schedule).files.length = p.files.length := by
  induction schedule generalizing p with
  | nil => rfl
  | cons a schedule ih =>
    refine (ih _).trans ?_
    rcases step_cases job source p a with he | ⟨i, path, -, he⟩ | ⟨i, path, -, he⟩ |
      ⟨i, path, outcome, -, he⟩ <;> simp [he, setProgress]

/-- Whatever the workers have done so far, they can go on to the end. -/
theorem exists_completion (job : Job) (source : TreeSource σ) (p : Pool σ) (early : Schedule) :
    ∃ late, (p.run job source (early ++ late)).isDone = true := by
  refine ⟨.inOrder p.files.length, ?_⟩
  rw [run_append, isDone, List.all_eq_true]
  intro f hf
  obtain ⟨i, hi⟩ := List.mem_iff_getElem?.mp hf
  obtain ⟨hlt, -⟩ := List.getElem?_eq_some_iff.mp hi
  rw [length_files_run, length_files_run] at hlt
  exact doneAt_inOrder _ hlt f hi

end Pool

namespace Job

variable {σ : Type} {job : Job} {source : TreeSource σ} {answer : String → Except TreeError Node}

lemma parallel_eq (hf : job.failFast = false) (hs : ∀ path s, (source path s).1 = answer path)
    {paths : List String} {s : σ} {schedule : Schedule}
    (hd : ((Pool.ofFiles paths s).run job source schedule).isDone = true) :
    (job.parallel source schedule paths s).1 = .ok (job.addAll answer .empty paths) := by
  have h : Pool.Faithful job answer paths (Pool.ofFiles paths s) := .ofFiles s
  rw [parallel, (h.run hf hs schedule).outcomes hd]
  exact merge_eq (unbroken_of_not_failFast hf paths) .empty

section Run

variable {build : ℕ → Except (List String) Unit} {workers : ℕ} {schedule : Schedule}
  {paths : List String} {s : σ}

lemma run_of_one (h : workers ≤ 1) :
    job.run build source workers schedule paths s =
      ((job.sequential source paths .empty s).1.mapError .aborted,
        (job.sequential source paths .empty s).2) := by
  rw [run, if_pos h]

lemma run_of_pool (h : 1 < workers) (hbuild : build workers = .ok ()) :
    job.run build source workers schedule paths s =
      ((job.parallel source schedule paths s).1.mapError .aborted,
        (job.parallel source schedule paths s).2) := by
  rw [run, if_neg (Nat.not_le_of_lt h), hbuild]

lemma run_eq_addAll (hf : job.failFast = false) (hs : ∀ path s, (source path s).1 = answer path)
    (hbuild : 1 < workers → build workers = .ok ())
    (hd : 1 < workers → ((Pool.ofFiles paths s).run job source schedule).isDone = true) :
    (job.run build source workers schedule paths s).1 =
      .ok (job.addAll answer .empty paths) := by
  rcases Nat.lt_or_ge 1 workers with hw | hw
  · rw [run_of_pool hw (hbuild hw), parallel_eq hf hs (hd hw)]
    rfl
  · rw [run_of_one hw, sequential_eq hs (unbroken_of_not_failFast hf paths)]
    rfl

end Run

/-- Where failures do not end the run, the report is that of one pass over the files, however many
workers there are and in whatever order they act. It is that of a run one after the other, too. -/
theorem run_eq_onePass (hf : job.failFast = false)
    (hs : ∀ path s, (source path s).1 = answer path) {build : ℕ → Except (List String) Unit}
    (workers : ℕ) (hbuild : 1 < workers → build workers = .ok ()) (schedule : Schedule)
    (paths : List String) (s : σ)
    (hd : 1 < workers → ((Pool.ofFiles paths s).run job source schedule).isDone = true) :
    (job.run build source workers schedule paths s).1 = .ok (job.onePass answer paths) ∧
    (job.run build source workers schedule paths s).1 =
      (job.sequential source paths .empty s).1.mapError .aborted ∧
    ((job.onePass answer paths).isClean = true ↔ failuresOf answer paths = []) ∧
    ∀ early, ∃ late, ((Pool.ofFiles paths s).run job source (early ++ late)).isDone = true := by
  have hrun := run_eq_addAll hf hs hbuild hd
  refine ⟨?_, ?_, ?_, Pool.exists_completion job source _⟩
  · rw [hrun, addAll_empty]
  · rw [hrun, sequential_eq hs (unbroken_of_not_failFast hf paths)]
    rfl
  · rw [Report.isClean, onePass, List.isEmpty_iff]

/-- A file that is listed twice and one without a tree, with the last file taken up first and the
first one finished last. -/
theorem run_eq_onePass_interleaved :
    let job : Job := ⟨.standard, "src", false⟩
    let build : ℕ → Except (List String) Unit := fun _ => .ok ()
    let answer : String → Except TreeError Node := fun path =>
      if path = "src/B.java" then .error (.protocol .closed) else .ok (.ofTag "CompilationUnit")
    let source : TreeSource ℕ := fun path calls => (answer path, calls + 1)
    let paths := ["src/A.java", "src/B.java", "src/A.java"]
    let schedule : Schedule := [.take 2, .take 1, .acquire 1, .take 0, .finish 1, .acquire 0,
      .acquire 2, .finish 2, .finish 0]
    ((Pool.ofFiles paths 0).run job source schedule).isDone = true ∧
      (job.run build source 3 schedule paths 0).1 = .ok (job.onePass answer paths) ∧
      (job.onePass answer paths).failures = [⟨"src/B.java", .protocol .closed⟩] := by
  refine ⟨by decide +kernel, (run_eq_onePass rfl ?_ 3 ?_ _ _ 0 ?_).1, by decide +kernel⟩
  · exact fun _ _ => rfl
  · exact fun _ => rfl
  · exact fun _ => by decide +kernel

end Job

end SettingCatalog
