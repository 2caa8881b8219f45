import Mathlib.Data.List.Nodup
import SettingCatalog.Proofs.Run.Schedules

/-! Runs that the first failure ends. Once a worker has seen the flag up it passes files over, and
what is passed over leaves no trace in the report. But the flag is up only when a failure is on
record: a run with a report has asked for every file, and a run that was given up names the first of
the failures it met, in the order of the files. -/

namespace SettingCatalog

variable {σ : Type}

def TreeSource.after (source : TreeSource σ) (s : σ) (paths : List String) : σ :=
  paths.foldl (fun s path => (source path s).2) s

/-! ### What the source is asked for -/

namespace Progress

def isAsked : Progress → Bool
  | acquired _ => true
  | finished _ => true
  | _ => false

def isFailure : Progress → Bool
  | finished (.error _) => true
  | _ => false

lemma isFailure_iff {progress : Progress} :
    progress.isFailure = true ↔ ∃ e, progress = .finished (.error e) := by
  cases progress with
  | finished o => cases o <;> simp [isFailure]
  | _ => simp [isFailure]

lemma isFailure_iff_outcome? {progress : Progress} :
    progress.isFailure = true ↔ ∃ e, progress.outcome? = some (.error e) := by
  cases progress <;> simp [isFailure_iff, outcome?]

end Progress

namespace Pool

variable {job : Job} {source : TreeSource σ} {answer : String → Except TreeError Node}
  {paths : List String} {s : σ} {p : Pool σ}

def due (p : Pool σ) : Action → List ℕ
  | .acquire i =>
    match p.files[i]? with
    | some (_, .taken) => [i]
    | _ => []
  | _ => []

def asked (job : Job) (source : TreeSource σ) : Pool σ → Schedule → List ℕ
  | _, [] => []
  | p, a :: schedule => p.due a ++ asked job source (p.step job source a) schedule

def AskedAt (p : Pool σ) (i : ℕ) : Prop := ∃ f, p.files[i]? = some f ∧ f.2.isAsked = true

lemma getElem?_setProgress_of_ne {i j : ℕ} {path : String} {new : Progress} (hj : j ≠ i) :
    (p.setProgress i path new).files[j]? = p.files[j]? :=
  List.getElem?_set_ne hj.symm

lemma askedAt_setProgress {i : ℕ} {path : String} {old new : Progress}
    (hi : p.files[i]? = some (path, old)) (j : ℕ) :
    (p.setProgress i path new).AskedAt j ↔ j = i ∧ new.isAsked = true ∨ j ≠ i ∧ p.AskedAt j := by
  by_cases hj : j = i
  · subst hj
    simp [AskedAt, getElem?_setProgress hi]
  · simp [AskedAt, getElem?_setProgress_of_ne hj, hj]

lemma askedAt_setProgress_same {i : ℕ} {path : String} {old new : Progress}
    (hi : p.files[i]? = some (path, old)) (hsame : new.isAsked = old.isAsked) (j : ℕ) :
    (p.setProgress i path new).AskedAt j ↔ p.AskedAt j := by
  rw [askedAt_setProgress hi]
  by_cases hj : j = i
  · subst hj
    simp [AskedAt, hi, hsame]
  · simp [hj]

lemma due_cases (job : Job) (source : TreeSource σ) (p : Pool σ) (a : Action) :
    (p.due a = [] ∧ (p.step job source a).state = p.state ∧
      ∀ j, (p.step job source a).AskedAt j ↔ p.AskedAt j) ∨
    ∃ i path, p.due a = [i] ∧ p.files[i]? = some (path, .taken) ∧
      (p.step job source a).state = (source path p.state).2 ∧
      ∀ j, (p.step job source a).AskedAt j ↔ j = i ∨ p.AskedAt j := by
  cases a with
  | take i =>
    left
    refine ⟨rfl, ?_⟩
    simp only [step]
    split
    · rename_i path hi
      refine ⟨rfl, askedAt_setProgress_same hi ?_⟩
      split <;> rfl
    · exact ⟨rfl, fun _ => Iff.rfl⟩
  | acquire i =>
    simp only [due]
    split
    · rename_i path hi
      right
      refine ⟨i, path, rfl, hi, ?_⟩
      simp only [step, hi]
      refine ⟨rfl, fun j => (askedAt_setProgress hi j).trans ?_⟩
      by_cases hj : j = i
      · simp [hj, Progress.isAsked]
      · simp [hj, AskedAt]
    · rename_i hnot
      left
      have hstep : p.step job source (.acquire i) = p := by simp only [step]
      rw [hstep]
      exact ⟨rfl, rfl, fun _ => Iff.rfl⟩
  | finish i =>
    left
    refine ⟨rfl, ?_⟩
    simp only [step]
    split
    · rename_i path outcome hi
      exact ⟨rfl, askedAt_setProgress_same hi rfl⟩
    · exact ⟨rfl, fun _ => Iff.rfl⟩

lemma map_fst_step (job : Job) (source : TreeSource σ) (p : Pool σ) (a : Action) :
    (p.step job source a).files.map Prod.fst = p.files.map Prod.fst := by
  rcases step_cases job source p a with he | ⟨i, path, hi, he⟩ | ⟨i, path, hi, he⟩ |
    ⟨i, path, outcome, hi, he⟩
  · rw [he]
  · rw [he, map_fst_setProgress hi]
  · rw [he]
    exact map_fst_setProgress (p := { p with state := (source path p.state).2 }) hi _
  · rw [he]
    exact map_fst_setProgress (p := { p with failed := p.failed || !outcome.toBool }) hi _

/-- The places are those that the source was asked for, each of them once. -/
structure Traced (source : TreeSource σ) (paths : List String) (s : σ) (places : List ℕ)
    (p : Pool σ) : Prop where
  paths_eq : p.files.map Prod.fst = paths
  mem_iff : ∀ i, i ∈ places ↔ p.AskedAt i
  nodup : places.Nodup
  state : p.state = source.after s (places.filterMap (paths[·]?))

lemma Traced.ofFiles (source : TreeSource σ) (paths : List String) (s : σ) :
    Traced source paths s [] (ofFiles paths s) where
  paths_eq := by simp [Pool.ofFiles, Function.comp_def]
  mem_iff i := by
    simp only [List.not_mem_nil, false_iff]
    rintro ⟨f, hf, hasked⟩
    obtain ⟨path, -, rfl⟩ := List.mem_map.mp (List.mem_of_getElem? hf)
    cases hasked
  nodup := List.nodup_nil
  state := rfl

lemma getElem?_paths {i : ℕ} {path : String} {progress : Progress}
    (hp : p.files.map Prod.fst = paths) (hi : p.files[i]? = some (path, progress)) :
    paths[i]? = some path := by
  rw [← hp, List.getElem?_map, hi]
  rfl

lemma Traced.step {places : List ℕ} (h : Traced source paths s places p) (a : Action) :
    Traced source paths s (places ++ p.due a) (p.step job source a) := by
  have hpaths : (p.step job source a).files.map Prod.fst = paths := by
    rw [map_fst_step, h.paths_eq]
  rcases due_cases job source p a with ⟨hdue, hstate, hasked⟩ | ⟨i, path, hdue, hi, hstate, hasked⟩
  · rw [hdue, List.append_nil]
    refine ⟨hpaths, fun j => ?_, h.nodup, hstate.trans h.state⟩
    rw [h.mem_iff, hasked]
  · have hnew : i ∉ places := by
      rw [h.mem_iff]
      rintro ⟨f, hf, htrue⟩
      rw [hi] at hf
      obtain rfl := Option.some.inj hf
      cases htrue
    rw [hdue]
    refine ⟨hpaths, fun j => ?_, ?_, ?_⟩
    · rw [hasked, List.mem_append, List.mem_singleton, h.mem_iff, or_comm]
    · apply h.nodup.append (List.nodup_singleton i)
      exact List.disjoint_singleton.mpr hnew
    · have hlast : [i].filterMap (paths[·]?) = [path] := by
        simp [getElem?_paths h.paths_eq hi]
      rw [hstate, h.state, List.filterMap_append, hlast, TreeSource.after, TreeSource.after,
        List.foldl_append]
      rfl

lemma Traced.run {places : List ℕ} (h : Traced source paths s places p) (job : Job)
    (schedule : Schedule) :
    Traced source paths s (places ++ p.asked job source schedule) (p.run job source schedule) := by
  induction schedule generalizing p places with
  | nil =>
    rw [asked, List.append_nil]
    exact h
  | cons a schedule ih =>
    rw [asked, ← List.append_assoc]
    exact ih (h.step a)

/-! ### What is on record -/

/-- Outcomes are those that the trees give, files are passed over under the flag only, and the flag
is up only when a failure is on record. -/
structure Recorded (job : Job) (answer : String → Except TreeError Node) (p : Pool σ) : Prop where
  outcome : ∀ f ∈ p.files, ∀ o, f.2 = .acquired o ∨ f.2 = .finished o →
    o = job.outcome f.1 (answer f.1)
  flagged : ∀ f ∈ p.files, f.2 = .passedOver → p.failed = true
  failure : p.failed = true → ∃ f ∈ p.files, ∃ e, f.2 = .finished (.error e)

lemma Recorded.ofFiles (job : Job) (answer : String → Except TreeError Node) (paths : List String)
    (s : σ) : Recorded job answer (ofFiles paths s) where
  outcome f hf o ho := by
    obtain ⟨path, -, rfl⟩ := List.mem_map.mp hf
    simp at ho
  flagged f hf ho := by
    obtain ⟨path, -, rfl⟩ := List.mem_map.mp hf
    cases ho
  failure h := by cases h

lemma mem_setProgress_of_ne {f g : String × Progress} {i : ℕ} (hf : f ∈ p.files)
    (hi : p.files[i]? = some g) (hne : f ≠ g) (path : String) (new : Progress) :
    f ∈ (p.setProgress i path new).files := by
  obtain ⟨j, hj⟩ := List.mem_iff_getElem?.mp hf
  have hji : j ≠ i := by
    rintro rfl
    rw [hi] at hj
    exact hne (Option.some.inj hj).symm
  apply List.mem_of_getElem? (i := j)
  rw [getElem?_setProgress_of_ne hji, hj]

lemma Recorded.setProgress (h : Recorded job answer p) {i : ℕ} {path : String}
    {old new : Progress} {flag : Bool} (hi : p.files[i]? = some (path, old))
    (hold : old.isDone = false) (hflag : p.failed = true → flag = true)
    (hnew : ∀ o, new = .acquired o ∨ new = .finished o → o = job.outcome path (answer path))
    (hpassed : new = .passedOver → flag = true)
    (hfailure : flag = true → p.failed = true ∨ ∃ e, new = .finished (.error e)) (t : σ) :
    Recorded job answer ({ p with failed := flag, state := t }.setProgress i path new) where
  outcome f hf := by
    rcases List.mem_or_eq_of_mem_set hf with hf | rfl
    · exact h.outcome f hf
    · exact hnew
  flagged f hf := by
    rcases List.mem_or_eq_of_mem_set hf with hf | rfl
    · exact fun hp => hflag (h.flagged f hf hp)
    · exact hpassed
  failure hup := by
    rcases hfailure hup with hfailed | ⟨e, rfl⟩
    · obtain ⟨f, hf, e, he⟩ := h.failure hfailed
      refine ⟨f, mem_setProgress_of_ne (p := { p with failed := flag, state := t }) hf hi ?_ path
        new, e, he⟩
      rintro rfl
      rw [show old = _ from he] at hold
      cases hold
    · exact ⟨_, List.mem_of_getElem?
        (getElem?_setProgress (p := { p with failed := flag, state := t }) hi), e, rfl⟩

lemma Recorded.step (hs : ∀ path s, (source path s).1 = answer path)
    (h : Recorded job answer p) (a : Action) : Recorded job answer (p.step job source a) := by
  rcases step_cases job source p a with he | ⟨i, path, hi, he⟩ | ⟨i, path, hi, he⟩ |
    ⟨i, path, outcome, hi, he⟩
  · rw [he]
    exact h
  · rw [he]
    apply h.setProgress hi rfl id (t := p.state)
    · intro o ho
      split at ho <;> simp at ho
    · intro hp
      split at hp
      · rename_i hc
        exact (Bool.and_eq_true_iff.mp hc).2
      · cases hp
    · exact .inl
  · rw [he]
    apply h.setProgress hi rfl id (t := (source path p.state).2)
    · rintro o (ho | ho)
      · rw [← Progress.acquired.inj ho, hs]
      · cases ho
    · intro hp
      cases hp
    · exact .inl
  · rw [he]
    apply h.setProgress hi rfl (t := p.state)
    · intro hp
      rw [hp, Bool.true_or]
    · rintro o (ho | ho)
      · cases ho
      · rw [← Progress.finished.inj ho]
        exact h.outcome _ (List.mem_of_getElem? hi) outcome (.inl rfl)
    · intro hp
      cases hp
    · intro hup
      rcases Bool.or_eq_true_iff.mp hup with hup | hup
      · exact .inl hup
      · cases outcome with
        | ok x => cases hup
        | error e => exact .inr ⟨e, rfl⟩

lemma Recorded.run (hs : ∀ path s, (source path s).1 = answer path) (h : Recorded job answer p)
    (schedule : Schedule) : Recorded job answer (p.run job source schedule) := by
  induction schedule generalizing p with
  | nil => exact h
  | cons a schedule ih => exact ih (h.step hs a)

lemma isDone_of_mem (hd : p.isDone = true) {f : String × Progress} (hf : f ∈ p.files) :
    f.2.isDone = true := by
  rw [isDone, List.all_eq_true] at hd
  exact hd f hf

lemma Recorded.finished (h : Recorded job answer p) (hd : p.isDone = true) {i : ℕ}
    (hi : p.AskedAt i) :
    ∃ path, p.files[i]? = some (path, .finished (job.outcome path (answer path))) := by
  obtain ⟨⟨path, progress⟩, hf, hasked⟩ := hi
  have hmem := List.mem_of_getElem? hf
  have hdone := isDone_of_mem hd hmem
  cases progress with
  | finished o =>
    have ho := h.outcome _ hmem o (.inr rfl)
    exact ⟨path, by rw [hf, ho]⟩
  | waiting => cases hasked
  | taken => cases hasked
  | acquired o => cases hdone
  | passedOver => cases hasked

lemma Recorded.faithful (h : Recorded job answer p) (hp : p.files.map Prod.fst = paths)
    (hnone : ∀ f ∈ p.files, f.2.isFailure = false) : Faithful job answer paths p := by
  refine ⟨hp, fun f hf => ?_⟩
  obtain ⟨path, progress⟩ := f
  cases progress with
  | waiting => trivial
  | taken => trivial
  | acquired o => exact h.outcome _ hf o (.inl rfl)
  | finished o => exact h.outcome _ hf o (.inr rfl)
  | passedOver =>
    -- The flag was up for this file, so a failure is on record.
    obtain ⟨g, hg, e, he⟩ := h.failure (h.flagged _ hf rfl)
    have hfailure := hnone g hg
    rw [he] at hfailure
    cases hfailure

lemma Faithful.finished (h : Faithful job answer paths p) (hd : p.isDone = true)
    {f : String × Progress} (hf : f ∈ p.files) :
    f.2 = .finished (job.outcome f.1 (answer f.1)) := by
  have hfit := h.fits f hf
  have hdone := isDone_of_mem hd hf
  obtain ⟨path, progress⟩ := f
  cases progress with
  | finished o => rw [Progress.fits_finished.mp hfit]
  | passedOver => exact hfit.elim
  | waiting => cases hdone
  | taken => cases hdone
  | acquired o => cases hdone

lemma Faithful.askedAt (h : Faithful job answer paths p) (hd : p.isDone = true) (i : ℕ) :
    p.AskedAt i ↔ i < paths.length := by
  have hlength : p.files.length = paths.length := by rw [← h.paths, List.length_map]
  constructor
  · rintro ⟨f, hf, -⟩
    obtain ⟨hlt, -⟩ := List.getElem?_eq_some_iff.mp hf
    omega
  · intro hlt
    rw [← hlength] at hlt
    refine ⟨p.files[i], List.getElem?_eq_getElem hlt, ?_⟩
    rw [h.finished hd (List.getElem_mem hlt)]
    rfl

lemma Faithful.exists_tree (h : Faithful job answer paths p) (hd : p.isDone = true)
    (hnone : ∀ f ∈ p.files, f.2.isFailure = false) (path : String) (hpath : path ∈ paths) :
    ∃ tree, answer path = .ok tree := by
  rw [← h.paths] at hpath
  obtain ⟨f, hf, rfl⟩ := List.mem_map.mp hpath
  have hfailure := hnone f hf
  rw [h.finished hd hf] at hfailure
  cases ha : answer f.1 with
  | ok tree => exact ⟨tree, rfl⟩
  | error e =>
    rw [ha] at hfailure
    cases hfailure

end Pool

/-! ### How a run ends -/

namespace Job

variable {job : Job} {source : TreeSource σ} {answer : String → Except TreeError Node}
  {paths : List String}

def askedInOrder (job : Job) (source : TreeSource σ) : List String → σ → ℕ
  | [], _ => 0
  | path :: paths, s =>
    match job.outcome path (source path s).1 with
    | .ok _ => askedInOrder job source paths (source path s).2 + 1
    | .error _ => if job.failFast then 1 else askedInOrder job source paths (source path s).2 + 1

def asked (job : Job) (source : TreeSource σ) (workers : ℕ) (schedule : Schedule)
    (paths : List String) (s : σ) : List ℕ :=
  if workers ≤ 1 then List.range (job.askedInOrder source paths s)
  else (Pool.ofFiles paths s).asked job source schedule

lemma filterMap_range (paths : List String) (n : ℕ) :
    (List.range n).filterMap (paths[·]?) = paths.take n := by
  induction paths generalizing n with
  | nil => simp
  | cons path paths ih =>
    cases n with
    | zero => rfl
    | succ n =>
      have hshift : (fun i => (path :: paths)[i]?) ∘ Nat.succ = fun i => paths[i]? := by
        funext i
        exact List.getElem?_cons_succ
      rw [List.range_succ_eq_map, List.filterMap_cons, List.filterMap_map, hshift, ih,
        List.take_succ_cons]
      rfl

lemma sequential_state (paths : List String) (report : Report) (s : σ) :
    (job.sequential source paths report s).2 =
      source.after s (paths.take (job.askedInOrder source paths s)) := by
  induction paths generalizing report s with
  | nil => rfl
  | cons path paths ih =>
    rw [sequential, askedInOrder]
    dsimp only
    cases job.outcome path (source path s).1 with
    | ok x => exact ih _ _
    | error e =>
      cases job.failFast with
      | true => rfl
      | false => exact ih _ _

lemma askedInOrder_eq_length (hs : ∀ path s, (source path s).1 = answer path)
    (hu : job.Unbroken answer paths) (s : σ) : job.askedInOrder source paths s = paths.length := by
  induction paths generalizing s with
  | nil => rfl
  | cons path paths ih =>
    rw [askedInOrder, hs]
    split
    · rw [ih hu.tail, List.length_cons]
    · rename_i e he
      rw [hu.failFast_eq he, if_neg Bool.false_ne_true, ih hu.tail, List.length_cons]

lemma sequential_error (hf : job.failFast = true) (hs : ∀ path s, (source path s).1 = answer path)
    {before : List String} {path : String} {e : TreeError}
    (hb : ∀ p ∈ before, ∃ tree, answer p = .ok tree) (he : answer path = .error e)
    (after : List String) (report : Report) (s : σ) :
    (job.sequential source (before ++ path :: after) report s).1 = .error ⟨path, e⟩ ∧
      job.askedInOrder source (before ++ path :: after) s = before.length + 1 := by
  induction before generalizing report s with
  | nil =>
    have ho : job.outcome path (source path s).1 = .error e := by
      rw [hs, outcome_eq_error_iff, he]
    simp [sequential, askedInOrder, ho, hf]
  | cons first before ih =>
    obtain ⟨tree, ht⟩ := hb first List.mem_cons_self
    have ho : job.outcome first (source first s).1 =
        .ok (job.extractor.extract tree (FilePath.sourcePath job.root first)) := by
      rw [hs, ht]
      rfl
    obtain ⟨hresult, hcount⟩ := ih (fun p hp => hb p (List.mem_cons_of_mem first hp))
      (report.add first (.ok _)) (source first s).2
    rw [List.cons_append, sequential, askedInOrder]
    dsimp only
    rw [ho, hcount]
    exact ⟨hresult, rfl⟩

lemma merge_error (hf : job.failFast = true) {before after : List (String × Option FileOutcome)}
    (hb : ∀ x ∈ before, ∀ e, x.2 ≠ some (.error e)) (path : String) (e : TreeError)
    (report : Report) :
    job.merge (before ++ (path, some (.error e)) :: after) report = .error ⟨path, e⟩ := by
  induction before generalizing report with
  | nil => simp [merge, hf]
  | cons x before ih =>
    obtain ⟨first, outcome⟩ := x
    have hrest := ih fun y hy => hb y (List.mem_cons_of_mem _ hy)
    rcases outcome with - | (e' | x)
    · exact hrest report
    · exact absurd rfl (hb _ List.mem_cons_self e')
    · exact hrest _

lemma exists_first_error (answer : String → Except TreeError Node) (paths : List String) :
    (∀ path ∈ paths, ∃ tree, answer path = .ok tree) ∨
    ∃ before path after e, paths = before ++ path :: after ∧
      (∀ p ∈ before, ∃ tree, answer p = .ok tree) ∧ answer path = .error e := by
  induction paths with
  | nil => exact .inl (by simp)
  | cons path paths ih =>
    cases h : answer path with
    | error e => exact .inr ⟨[], path, paths, e, rfl, by simp, h⟩
    | ok tree =>
      rcases ih with hall | ⟨before, p, after, e, rfl, hb, he⟩
      · exact .inl (List.forall_mem_cons.mpr ⟨⟨tree, h⟩, hall⟩)
      · exact .inr ⟨path :: before, p, after, e, rfl, List.forall_mem_cons.mpr ⟨⟨tree, h⟩, hb⟩, he⟩

/-- The run has a report on all files, or it names the first failure among the files asked for. -/
inductive Ends (job : Job) (answer : String → Except TreeError Node) (paths : List String)
    (places : List ℕ) : Except Aborted Report → Prop
  | report (htrees : ∀ path ∈ paths, ∃ tree, answer path = .ok tree)
      (hplaces : places.Perm (List.range paths.length)) :
      Ends job answer paths places (.ok (job.onePass answer paths))
  | failure {i : ℕ} {path : String} {e : TreeError} (hi : i ∈ places)
      (hpath : paths[i]? = some path) (herror : answer path = .error e)
      (hfirst : ∀ j ∈ places, ∀ p e, paths[j]? = some p → answer p = .error e → i ≤ j) :
      Ends job answer paths places (.error ⟨path, e⟩)

lemma merge_outcomes_error (hf : job.failFast = true) {p : Pool σ}
    {before after : List (String × Progress)} {path : String} {e : TreeError}
    (hfiles : p.files = before ++ (path, .finished (.error e)) :: after)
    (hbefore : ∀ f ∈ before, f.2.isFailure = false) (report : Report) :
    job.merge p.outcomes report = .error ⟨path, e⟩ := by
  rw [Pool.outcomes, hfiles, List.map_append, List.map_cons]
  apply merge_error hf
  intro x hx e' he'
  obtain ⟨f, hmem, rfl⟩ := List.mem_map.mp hx
  have hfailure := Progress.isFailure_iff_outcome?.mpr ⟨e', he'⟩
  rw [hbefore f hmem] at hfailure
  cases hfailure

lemma parallel_ends (hf : job.failFast = true) (hs : ∀ path s, (source path s).1 = answer path)
    {s : σ} {schedule : Schedule}
    (hd : ((Pool.ofFiles paths s).run job source schedule).isDone = true) :
    Ends job answer paths ((Pool.ofFiles paths s).asked job source schedule)
      (job.parallel source schedule paths s).1 := by
  have ht := (Pool.Traced.ofFiles source paths s).run job schedule
  have hr := (Pool.Recorded.ofFiles job answer paths s).run hs schedule
  rw [List.nil_append] at ht
  rw [parallel]
  generalize (Pool.ofFiles paths s).run job source schedule = p at ht hr hd
  generalize (Pool.ofFiles paths s).asked job source schedule = places at ht
  cases hfind : p.files.find? (·.2.isFailure) with
  | none =>
    have hnone : ∀ f ∈ p.files, f.2.isFailure = false := by simpa using hfind
    have hall := hr.faithful ht.paths_eq hnone
    have htrees := hall.exists_tree hd hnone
    rw [hall.outcomes hd, merge_eq fun _ => htrees, addAll_empty]
    apply Ends.report htrees
    rw [List.perm_ext_iff_of_nodup ht.nodup List.nodup_range]
    intro i
    rw [ht.mem_iff, hall.askedAt hd, List.mem_range]
  | some f =>
    obtain ⟨hfailure, before, after, hfiles, hbefore⟩ := List.find?_eq_some_iff_append.mp hfind
    obtain ⟨path, progress⟩ := f
    obtain ⟨e, rfl⟩ := Progress.isFailure_iff.mp hfailure
    have hno : ∀ g ∈ before, g.2.isFailure = false := by simpa using hbefore
    have hat : p.files[before.length]? = some (path, .finished (.error e)) := by simp [hfiles]
    have hown := hr.outcome _ (List.mem_of_getElem? hat) _ (.inr rfl)
    rw [merge_outcomes_error hf hfiles hno]
    apply Ends.failure ((ht.mem_iff _).mpr ⟨_, hat, rfl⟩) (Pool.getElem?_paths ht.paths_eq hat)
      (outcome_eq_error_iff.mp hown.symm)
    intro j hj q e' hq he'
    -- A failure in front of the first one would be among the files before it.
    rw [ht.mem_iff] at hj
    obtain ⟨q', hfile⟩ := hr.finished hd hj
    obtain rfl : q' = q := by
      have hq' := Pool.getElem?_paths ht.paths_eq hfile
      rw [hq] at hq'
      exact (Option.some.inj hq').symm
    by_contra hlt
    rw [hfiles, List.getElem?_append_left (by omega)] at hfile
    have hok := hno _ (List.mem_of_getElem? hfile)
    rw [he'] at hok
    cases hok

lemma sequential_ends (hf : job.failFast = true) (hs : ∀ path s, (source path s).1 = answer path)
    (paths : List String) (s : σ) :
    Ends job answer paths (List.range (job.askedInOrder source paths s))
      (job.sequential source paths .empty s).1 := by
  rcases exists_first_error answer paths with htrees | ⟨before, path, after, e, rfl, hb, he⟩
  · rw [sequential_eq hs fun _ => htrees, addAll_empty, askedInOrder_eq_length hs fun _ => htrees]
    exact .report htrees (.refl _)
  · obtain ⟨hresult, hcount⟩ := sequential_error hf hs hb he after .empty s
    rw [hresult, hcount]
    refine .failure (i := before.length) (by simp) (by simp) he fun j _ p e' hp he' => ?_
    by_contra hlt
    rw [List.getElem?_append_left (by omega)] at hp
    obtain ⟨tree, htree⟩ := hb p (List.mem_of_getElem? hp)
    rw [he'] at htree
    cases htree

section Run

variable {build : ℕ → Except (List String) Unit} {workers : ℕ} {schedule : Schedule} {s : σ}

lemma run_ends (hf : job.failFast = true) (hs : ∀ path s, (source path s).1 = answer path)
    (hbuild : 1 < workers → build workers = .ok ())
    (hd : 1 < workers → ((Pool.ofFiles paths s).run job source schedule).isDone = true) :
    ∃ result, (job.run build source workers schedule paths s).1 = result.mapError .aborted ∧
      Ends job answer paths (job.asked source workers schedule paths s) result := by
  rcases Nat.lt_or_ge 1 workers with hw | hw
  · rw [run_of_pool hw (hbuild hw), asked, if_neg (Nat.not_le_of_lt hw)]
    exact ⟨_, rfl, parallel_ends hf hs (hd hw)⟩
  · rw [run_of_one hw, asked, if_pos hw]
    exact ⟨_, rfl, sequential_ends hf hs paths s⟩

lemma run_state (hbuild : 1 < workers → build workers = .ok ()) :
    (job.run build source workers schedule paths s).2 =
      source.after s ((job.asked source workers schedule paths s).filterMap (paths[·]?)) := by
  rcases Nat.lt_or_ge 1 workers with hw | hw
  · rw [run_of_pool hw (hbuild hw), asked, if_neg (Nat.not_le_of_lt hw)]
    exact ((Pool.Traced.ofFiles source paths s).run job schedule).state
  · rw [run_of_one hw, asked, if_pos hw, filterMap_range, sequential_state]

end Run

/-- Where the first failure ends the run, it is given up if and only if some file has no tree,
however many workers there are and in whatever order they act. It names the first failure among the
files that were asked for; a report leaves no file out. -/
theorem run_failFast (hf : job.failFast = true) (hs : ∀ path s, (source path s).1 = answer path)
    {build : ℕ → Except (List String) Unit} (workers : ℕ)
    (hbuild : 1 < workers → build workers = .ok ()) (schedule : Schedule) (paths : List String)
    (s : σ)
    (hd : 1 < workers → ((Pool.ofFiles paths s).run job source schedule).isDone = true) :
    let result := job.run build source workers schedule paths s
    let places := job.asked source workers schedule paths s
    result.2 = source.after s (places.filterMap (paths[·]?)) ∧
    ((∃ error, result.1 = .error error) ↔ ∃ path ∈ paths, ∃ e, answer path = .error e) ∧
    (∀ error, result.1 = .error error → ∃ a, error = .aborted a ∧ answer a.path = .error a.error ∧
      ∃ i ∈ places, paths[i]? = some a.path ∧
        ∀ j ∈ places, ∀ path e, paths[j]? = some path → answer path = .error e → i ≤ j) ∧
    (∀ report, result.1 = .ok report → places.Perm (List.range paths.length) ∧
      report = job.onePass answer paths ∧
      (job.sequential source paths .empty s).1 = .ok report) ∧
    (workers ≤ 1 → ∀ a, result.1 = .error (.aborted a) →
      ∃ before after, paths = before ++ a.path :: after ∧
        (∀ path ∈ before, ∃ tree, answer path = .ok tree) ∧
        places = List.range (before.length + 1)) ∧
    ∀ early, ∃ late, ((Pool.ofFiles paths s).run job source (early ++ late)).isDone = true := by
  intro result places
  obtain ⟨ending, hresult, hends⟩ := run_ends hf hs hbuild hd
  change result.1 = _ at hresult
  refine ⟨run_state hbuild, ?_, ?_, ?_, ?_, Pool.exists_completion job source _⟩
  · rw [hresult]
    cases hends with
    | report htrees =>
      constructor
      · rintro ⟨error, he⟩
        cases he
      · rintro ⟨path, hmem, e, he⟩
        obtain ⟨tree, ht⟩ := htrees path hmem
        rw [he] at ht
        cases ht
    | failure hi hpath herror =>
      exact ⟨fun _ => ⟨_, List.mem_of_getElem? hpath, _, herror⟩, fun _ => ⟨_, rfl⟩⟩
  · intro error he
    rw [hresult] at he
    cases hends with
    | report => cases he
    | failure hi hpath herror hfirst =>
      exact ⟨_, (Except.error.inj he).symm, herror, _, hi, hpath, hfirst⟩
  · intro report hreport
    rw [hresult] at hreport
    cases hends with
    | report htrees hplaces =>
      obtain rfl := Except.ok.inj hreport
      refine ⟨hplaces, rfl, ?_⟩
      rw [sequential_eq hs fun _ => htrees, addAll_empty]
    | failure => cases hreport
  · intro hone a ha
    have hrun : result.1 = (job.sequential source paths .empty s).1.mapError .aborted := by
      change (job.run build source workers schedule paths s).1 = _
      rw [run_of_one hone]
    have hplaces : places = List.range (job.askedInOrder source paths s) := if_pos hone
    rw [hrun] at ha
    rw [hplaces]
    rcases exists_first_error answer paths with htrees | ⟨before, path, after, e, rfl, hb, he⟩
    · rw [sequential_eq hs fun _ => htrees] at ha
      cases ha
    · obtain ⟨hfirst, hcount⟩ := sequential_error hf hs hb he after .empty s
      rw [hfirst] at ha
      obtain rfl := RunError.aborted.inj (Except.error.inj ha)
      exact ⟨before, after, rfl, hb, by rw [hcount]⟩

/-- The file at place 1 fails as well, but it is passed over: at place 3 the same file has raised
the flag. The run names the failure at place 2. -/
theorem run_failFast_overtaken :
    let job : Job := ⟨.standard, "src", true⟩
    let build : ℕ → Except (List String) Unit := fun _ => .ok ()
    let answer : String → Except TreeError Node := fun path =>
      if path = "src/B.java" then .error (.protocol .closed)
      else if path = "src/C.java" then .error (.rejected path "syntax")
      else .ok (.ofTag "CompilationUnit")
    let source : TreeSource ℕ := fun path calls => (answer path, calls + 1)
    let paths := ["src/A.java", "src/B.java", "src/C.java", "src/B.java"]
    let schedule : Schedule := [.take 3, .take 2, .acquire 3, .acquire 2, .take 0, .finish 3,
      .take 1, .acquire 0, .finish 0, .finish 2]
    ((Pool.ofFiles paths 0).run job source schedule).isDone = true ∧
      job.asked source 3 schedule paths 0 = [3, 2, 0] ∧
      (job.run build source 3 schedule paths 0).1 =
        .error (.aborted ⟨"src/C.java", .rejected "src/C.java" "syntax"⟩) ∧
      ∃ i ∈ job.asked source 3 schedule paths 0, paths[i]? = some "src/C.java" ∧
        ∀ j ∈ job.asked source 3 schedule paths 0, ∀ path e, paths[j]? = some path →
          answer path = .error e → i ≤ j := by
  intro job build answer source paths schedule
  have hrun : (job.run build source 3 schedule paths 0).1 =
      .error (.aborted ⟨"src/C.java", .rejected "src/C.java" "syntax"⟩) := by decide +kernel
  have hdone : ((Pool.ofFiles paths 0).run job source schedule).isDone = true := by decide +kernel
  have hs : ∀ path s, (source path s).1 = answer path := fun _ _ => rfl
  have hbuild : 1 < 3 → build 3 = .ok () := fun _ => rfl
  have hall := run_failFast rfl hs 3 hbuild schedule paths 0 fun _ => hdone
  obtain ⟨a, ha, -, hfirst⟩ := hall.2.2.1 _ hrun
  obtain rfl := RunError.aborted.inj ha
  exact ⟨hdone, by decide +kernel, hrun, hfirst⟩

end Job

end SettingCatalog
