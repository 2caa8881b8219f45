import SettingCatalog.Proofs.Run.FirstFailure

/-! Runs over sources whose answers depend on what they keep. As long as a run stays among states
with the same answers to its files, it comes to what a run comes to over a source that keeps
nothing. -/

namespace SettingCatalog

variable {σ : Type} {source : TreeSource σ} {answer : String → Except TreeError Node}
  {paths : List String} {inv : σ → Prop} {job : Job}

/-- In the states of a set that the source does not leave, it gives the answers for the paths. -/
structure TreeSource.Answers (source : TreeSource σ) (answer : String → Except TreeError Node)
    (paths : List String) (inv : σ → Prop) : Prop where
  answer_eq : ∀ path ∈ paths, ∀ s, inv s → (source path s).1 = answer path
  inv_state : ∀ path ∈ paths, ∀ s, inv s → inv (source path s).2

lemma TreeSource.Answers.of_acquired
    (h : ∀ path ∈ paths, ∀ s, inv s → (source path s).1 = answer path ∧ inv (source path s).2) :
    source.Answers answer paths inv :=
  ⟨fun path hpath s hs => (h path hpath s hs).1, fun path hpath s hs => (h path hpath s hs).2⟩

def TreeSource.plain (answer : String → Except TreeError Node) : TreeSource Unit :=
  fun path u => (answer path, u)

open TreeSource

lemma TreeSource.plain_answer (answer : String → Except TreeError Node) (path : String) (u : Unit) :
    (plain answer path u).1 = answer path := rfl

namespace Pool

def forget (p : Pool σ) : Pool Unit := ⟨p.files, p.failed, ()⟩

structure Stays (paths : List String) (inv : σ → Prop) (p : Pool σ) : Prop where
  paths_eq : p.files.map Prod.fst = paths
  state : inv p.state

namespace Stays

variable {p : Pool σ}

lemma ofFiles (paths : List String) {s : σ} (hs : inv s) : Stays paths inv (ofFiles paths s) :=
  ⟨by simp [Pool.ofFiles, Function.comp_def], hs⟩

lemma mem (h : Stays paths inv p) {i : ℕ} {path : String} {progress : Progress}
    (hi : p.files[i]? = some (path, progress)) : path ∈ paths :=
  List.mem_of_getElem? (getElem?_paths h.paths_eq hi)

lemma step (job : Job) (h : Stays paths inv p) (hs : Answers source answer paths inv) (a : Action) :
    Stays paths inv (p.step job source a) := by
  refine ⟨(map_fst_step job source p a).trans h.paths_eq, ?_⟩
  rcases step_cases job source p a with he | ⟨i, path, -, he⟩ | ⟨i, path, hi, he⟩ |
    ⟨i, path, outcome, -, he⟩
  · rw [he]
    exact h.state
  · rw [he]
    exact h.state
  · rw [he]
    exact hs.inv_state path (h.mem hi) p.state h.state
  · rw [he]
    exact h.state

lemma forget_step (h : Stays paths inv p) (hs : Answers source answer paths inv) (a : Action) :
    (p.step job source a).forget = p.forget.step job (plain answer) a := by
  cases a with
  | take i =>
    simp only [Pool.step, forget]
    split <;> rfl
  | acquire i =>
    simp only [Pool.step, forget]
    split
    · rename_i path hfile
      simp [hs.answer_eq path (h.mem hfile) _ h.state, plain, setProgress]
    · rfl
  | finish i =>
    simp only [Pool.step, forget]
    split <;> rfl

lemma run (job : Job) (h : Stays paths inv p) (hs : Answers source answer paths inv)
    (schedule : Schedule) :
    Stays paths inv (p.run job source schedule) ∧
      (p.run job source schedule).forget = p.forget.run job (plain answer) schedule := by
  induction schedule generalizing p with
  | nil => exact ⟨h, rfl⟩
  | cons a schedule ih =>
    obtain ⟨hstays, hforget⟩ := ih (h.step job hs a)
    refine ⟨hstays, ?_⟩
    rw [Pool.run, List.foldl_cons, ← Pool.run, hforget, h.forget_step hs a]
    rfl

end Stays

end Pool

namespace Job

variable {build : ℕ → Except (List String) Unit} {workers : ℕ} {schedule : Schedule} {s : σ}

lemma sequential_eq_plain (job : Job) (h : Answers source answer paths inv) {rest : List String}
    (hrest : ∀ path ∈ rest, path ∈ paths) (hs : inv s) (report : Report) :
    (job.sequential source rest report s).1 = (job.sequential (plain answer) rest report ()).1 ∧
      inv (job.sequential source rest report s).2 := by
  induction rest generalizing report s with
  | nil => exact ⟨rfl, hs⟩
  | cons path rest ih =>
    have hpath := hrest path List.mem_cons_self
    have hanswer := h.answer_eq path hpath s hs
    have hinv := h.inv_state path hpath s hs
    have hlater := fun p hp => hrest p (List.mem_cons_of_mem path hp)
    rw [sequential, sequential, plain]
    dsimp only
    rw [hanswer]
    cases job.outcome path (answer path) with
    | ok x => exact ih hlater hinv _
    | error e =>
      dsimp only
      split
      · exact ⟨rfl, hinv⟩
      · exact ih hlater hinv _

/-- A run comes to what it comes to over the source that keeps nothing, and the source ends in a
state of the set. -/
lemma run_eq_plain (job : Job) (schedule : Schedule) (h : Answers source answer paths inv)
    (hs : inv s) (hbuild : 1 < workers → build workers = .ok ()) :
    (job.run build source workers schedule paths s).1 =
        (job.run build (plain answer) workers schedule paths ()).1 ∧
      inv (job.run build source workers schedule paths s).2 := by
  rcases Nat.lt_or_ge 1 workers with hw | hw
  · obtain ⟨hstays, hforget⟩ :=
      (Pool.Stays.ofFiles paths hs).run job h schedule
    have hpool : ((Pool.ofFiles paths s).run job source schedule).forget =
        (Pool.ofFiles paths ()).run job (plain answer) schedule := hforget
    rw [run_of_pool hw (hbuild hw), run_of_pool hw (hbuild hw), parallel, parallel, ← hpool]
    exact ⟨rfl, hstays.state⟩
  · obtain ⟨hresult, hinv⟩ := sequential_eq_plain job h (fun _ hp => hp) hs .empty
    rw [run_of_one hw, run_of_one hw, hresult]
    exact ⟨rfl, hinv⟩

section Runs

variable (h : Answers source answer paths inv) (hs : inv s)
  (hbuild : 1 < workers → build workers = .ok ())
  (hd : 1 < workers → ((Pool.ofFiles paths ()).run job (plain answer) schedule).isDone = true)

include h hs hbuild hd

/-- A run that no failure ends reports on all its files, those without a tree among them. -/
theorem run_reports (hu : job.Unbroken answer paths) :
    (job.run build source workers schedule paths s).1 = .ok (job.onePass answer paths) ∧
      inv (job.run build source workers schedule paths s).2 := by
  obtain ⟨hrun, hinv⟩ := run_eq_plain job schedule h hs hbuild
  refine ⟨?_, hinv⟩
  rw [hrun]
  cases hf : job.failFast with
  | false => rw [run_eq_addAll hf (plain_answer answer) hbuild hd, addAll_empty]
  | true =>
    obtain ⟨result, hresult, hends⟩ := run_ends hf (plain_answer answer) hbuild hd
    rw [hresult]
    cases hends with
    | report => rfl
    | failure hi hpath herror =>
      obtain ⟨tree, htree⟩ := hu hf _ (List.mem_of_getElem? hpath)
      cases herror.symm.trans htree

/-- A run that the first failure ends is given up if there is a file without a tree. -/
theorem run_aborts (hf : job.failFast = true) {path : String} (hpath : path ∈ paths)
    {e : TreeError} (he : answer path = .error e) :
    (∃ error, (job.run build source workers schedule paths s).1 = .error error) ∧
      inv (job.run build source workers schedule paths s).2 := by
  obtain ⟨hrun, hinv⟩ := run_eq_plain job schedule h hs hbuild
  refine ⟨?_, hinv⟩
  rw [hrun]
  obtain ⟨result, hresult, hends⟩ := run_ends hf (plain_answer answer) hbuild hd
  rw [hresult]
  cases hends with
  | report htrees =>
    obtain ⟨tree, htree⟩ := htrees path hpath
    cases he.symm.trans htree
  | failure => exact ⟨_, rfl⟩

end Runs

end Job

end SettingCatalog
