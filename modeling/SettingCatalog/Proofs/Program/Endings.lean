import SettingCatalog.Program.Run
import SettingCatalog.Proofs.Config.Filters
import SettingCatalog.Proofs.Files.Writing
import SettingCatalog.Proofs.Source.Overlay

/-! How the program ends. Nothing is written outside the folder of the cache before the trees of all
files are there, so a program that gives up leaves every other file as it was; a program that does
not delivers the records of the files with a tree, and flushing the store after that changes nothing
outside of its folder. -/

namespace SettingCatalog.Program

open FileSystem

/-- How a run begins: which addresses are the cache's own, the files once it is open, what the files
may become while trees are acquired, and the trees that the cache has. A cache has a store that
works. -/
inductive Begins {σ : Type} (host : Host σ) (c : Config) (w : World) :
    (List String → Prop) → FileSystem → (FileSystem → Prop) → (String → Option Node) → Prop
  | plain (hdir : c.cacheDir = none) :
    Begins host c w (fun _ => False) w.files (· = w.files) fun _ => none
  | cached {dir : String} {folder : List String} {holds : Contents → OpenStore σ → Prop}
      {m : Contents} {state : σ} {fs : FileSystem} (hdir : c.cacheDir = some dir)
      (hstore : (host.cache dir).store.Lawful folder holds)
      (hlayout : (host.cache dir).layout.ReadsBack)
      (hopen : (host.cache dir).store.openIn w.files = (.ok state, fs))
      (hopened : Keeps (Within folder) w.files fs) (hm : holds m ⟨state, fs⟩) :
    Begins host c w (Within folder) fs
      (fun fs' => ∃ state', (host.cache dir).store.Reach ⟨state, fs⟩ ⟨state', fs'⟩)
      ((host.cache dir).known m fs.fingerprint?)

/-- The answers of the origin for the paths and their fingerprints do not depend on when they are
asked for. -/
structure Steady {σ : Type} (host : Host σ) (c : Config) (fs : FileSystem)
    (reach : FileSystem → Prop) (paths : List String) (inner : String → Except TreeError Node) :
    Prop where
  answer_eq : ∀ fs', reach fs' → ∀ path ∈ paths, ∀ traffic,
    (c.origin.acquire host.network fs' path traffic).1 = inner path
  fingerprint_eq : ∀ fs', reach fs' → ∀ path ∈ paths, fs'.fingerprint? path = fs.fingerprint? path

/-- The files below the scan root are those, and each has one answer. Workers are to be had, and
they are done with all files. -/
structure Scans {σ : Type} (host : Host σ) (c : Config) (fs : FileSystem)
    (reach : FileSystem → Prop) (known : String → Option Node) (paths : List String)
    (answer : String → Except TreeError Node) : Prop where
  walked : fs.walk c.fileExtension c.scanRoot = .ok paths
  steady : ∃ inner, Steady host c fs reach paths inner ∧ answer = overlay known inner
  pool : 1 < c.workers host.processors → host.pool (c.workers host.processors) = .ok ()
  done : 1 < c.workers host.processors →
    ((Pool.ofFiles paths ()).run c.job (.plain answer) (host.schedule paths.length)).isDone = true

/-- The text can be written where it is to go, and not among the files of the cache. -/
def Accepts {σ : Type} (host : Host σ) (c : Config) (own : List String → Prop) (fs : FileSystem)
    (text : String) : Prop :=
  toStandardOutput c fs = false →
    (∃ fs', fs.write c.outputPath (Text.Utf8.encode text) host.now = .ok fs') ∧
      ∀ a, fs.LeadsTo .write c.outputPath a → ¬ own a

/-- A text on the standard output, or as the content of the output file. The files are `fs` before
and `exported` after it is written; no file but the cache's own is changed after that. -/
structure Delivers (c : Config) (own : List String → Prop) (fs : FileSystem) (text : String)
    (o : Outcome) : Prop where
  printed : toStandardOutput c fs = true →
    o.stdout = text ∧ o.written = none ∧ Keeps own fs o.world.files
  written : toStandardOutput c fs = false →
    o.stdout = "" ∧ o.written = some (c.outputPath, Text.Utf8.encode text) ∧
    (∀ a, fs.LeadsTo .write c.outputPath a → (∀ d, fs.root.at? a ≠ some (.device d)) →
      o.world.files.fileAt? a = some (Text.Utf8.encode text)) ∧
    ∃ exported, Keeps (fs.LeadsTo .write c.outputPath) fs exported ∧
      ((∀ d, fs.find c.outputPath ≠ .ok (.device d)) →
        exported.read c.outputPath = .ok (Text.Utf8.encode text)) ∧
      Keeps own exported o.world.files

/-! ### Stages -/

section Extract

variable {σ τ : Type} {host : Host τ} {c : Config}
  {source : TreeSource (OpenStore σ × Client.Traffic)} {x : OpenStore σ} {traffic : Client.Traffic}
  {paths : List String} {answer : String → Except TreeError Node}
  {inv : OpenStore σ × Client.Traffic → Prop}

lemma extract_of_missing {e : OsError} (hroot : x.files.find c.scanRoot = .error e) :
    extract host c source x traffic =
      ⟨.error (.walk (.notFound c.scanRoot)), "", [], none, x, traffic⟩ := by
  rw [extract, gather, walk, hroot]

variable (hwalk : x.files.walk c.fileExtension c.scanRoot = .ok paths)
  (hsource : source.Answers answer paths inv) (hstart : inv (x, traffic))
  (hpool : 1 < c.workers host.processors → host.pool (c.workers host.processors) = .ok ())
  (hdone : 1 < c.workers host.processors →
    ((Pool.ofFiles paths ()).run c.job (.plain answer) (host.schedule paths.length)).isDone = true)

include hwalk hsource hstart hpool hdone

lemma extract_reports (hu : c.job.Unbroken answer paths) :
    ∃ x' traffic', inv (x', traffic') ∧ extract host c source x traffic =
      deliver host c (c.job.onePass answer paths) x' traffic' := by
  obtain ⟨hrun, hinv⟩ := Job.run_reports hsource hstart hpool hdone hu
  rw [extract, gather, hwalk]
  dsimp only
  generalize c.job.run host.pool source (c.workers host.processors) (host.schedule paths.length)
    paths (x, traffic) = ran at hrun hinv ⊢
  obtain ⟨result, x', traffic'⟩ := ran
  obtain rfl : result = _ := hrun
  exact ⟨x', traffic', hinv, rfl⟩

lemma extract_aborts (hf : c.failFast = true) {path : String} (hpath : path ∈ paths) {e : TreeError}
    (he : answer path = .error e) :
    ∃ f x' traffic', inv (x', traffic') ∧
      extract host c source x traffic = ⟨.error f, "", [], none, x', traffic'⟩ := by
  obtain ⟨⟨error, hrun⟩, hinv⟩ := Job.run_aborts hsource hstart hpool hdone hf hpath he
  rw [extract, gather, hwalk]
  dsimp only
  generalize c.job.run host.pool source (c.workers host.processors) (host.schedule paths.length)
    paths (x, traffic) = ran at hrun hinv ⊢
  obtain ⟨result, x', traffic'⟩ := ran
  obtain rfl : result = _ := hrun
  exact ⟨_, x', traffic', hinv, rfl⟩

end Extract

structure Stage {σ τ : Type} (host : Host τ) (c : Config) (own : List String → Prop)
    (reach : FileSystem → Prop) (known : String → Option Node)
    (source : TreeSource (OpenStore σ × Client.Traffic)) (start : OpenStore σ)
    (finish : Pass σ → Outcome) (works : OpenStore σ → Prop) : Prop where
  start_works : works start
  answers {paths : List String} {inner : String → Except TreeError Node}
    (h : Steady host c start.files reach paths inner) :
    ∃ inv, source.Answers (overlay known inner) paths inv ∧ (∀ traffic, inv (start, traffic)) ∧
      ∀ s, inv s → works s.1 ∧ reach s.1.files ∧ Keeps own start.files s.1.files
  spared {x : OpenStore σ} {fs : FileSystem} (hx : works x)
    (h : Same (fun a => ¬ own a) x.files fs) : works ⟨x.state, fs⟩
  finish_eq (p : Pass σ) (h : works p.opened) :
    ∃ fs, finish p = p.conclude p.result fs ∧ Keeps own p.opened.files fs

lemma execute_cached {σ : Type} {host : Host σ} {c : Config} {w : World} {dir : String} {state : σ}
    {fs : FileSystem} (hdir : c.cacheDir = some dir)
    (hopen : (host.cache dir).store.openIn w.files = (.ok state, fs)) :
    execute host c w =
      (extract host c (c.origin.cached host.network (host.cache dir)) ⟨state, fs⟩
        w.traffic).finish (host.cache dir).store := by
  rw [execute, hdir]
  dsimp only
  rw [hopen]

lemma Begins.exists_stage {σ : Type} {host : Host σ} {c : Config} {w : World}
    {own : List String → Prop} {fs : FileSystem} {reach : FileSystem → Prop}
    {known : String → Option Node} (h : Begins host c w own fs reach known) :
    Keeps own w.files fs ∧ ∃ (τ : Type) (source : TreeSource (OpenStore τ × Client.Traffic))
      (start : OpenStore τ) (finish : Pass τ → Outcome) (works : OpenStore τ → Prop),
      start.files = fs ∧ Stage host c own reach known source start finish works ∧
        execute host c w = finish (extract host c source start w.traffic) := by
  cases h with
  | plain hdir =>
    refine ⟨.refl _ _, Unit, c.origin.direct host.network, ⟨(), w.files⟩,
      fun p => p.conclude p.result p.opened.files, fun _ => True, rfl, ?_, ?_⟩
    · exact
        { start_works := trivial
          answers := fun h =>
            ⟨_, TreeOrigin.direct_answers (h.answer_eq w.files rfl), fun _ => rfl,
              fun s hs => by rw [hs]; exact ⟨trivial, rfl, .refl _ _⟩⟩
          spared := fun _ _ => trivial
          finish_eq := fun p _ => ⟨p.opened.files, rfl, .refl _ _⟩ }
    · rw [execute, hdir]
  | @cached dir folder holds m state fs hdir hstore hlayout hopen hopened hm =>
    refine ⟨hopened, σ, c.origin.cached host.network (host.cache dir), ⟨state, fs⟩,
      Pass.finish (host.cache dir).store, fun x => ∃ m, holds m x, rfl, ?_, ?_⟩
    · exact
        { start_works := ⟨m, hm⟩
          answers := fun h =>
            ⟨_, TreeOrigin.cached_answers hstore hlayout m
                (fun x hx => h.answer_eq x.files ⟨x.state, hx⟩)
                fun x hx => h.fingerprint_eq x.files ⟨x.state, hx⟩,
              fun _ => ⟨.refl, .refl _ _, m, hm, rfl⟩,
              fun s ⟨hreach, hkeeps, m', hm', _⟩ => ⟨⟨m', hm'⟩, ⟨s.1.state, hreach⟩, hkeeps⟩⟩
          spared := fun ⟨m, hx⟩ h => ⟨m, hstore.spared hx h⟩
          finish_eq := fun p ⟨m, hp⟩ => by
            obtain ⟨x, hflush, hx, hkept⟩ := hstore.flush hp
            rw [Pass.finish]
            split
            · rename_i f hresult
              exact ⟨_, by rw [hresult], hstore.close hp⟩
            · rename_i clean hresult
              rw [hflush, hresult]
              exact ⟨_, rfl, hkept.trans (hstore.close hx)⟩ }
    · exact execute_cached hdir hopen

lemma Pass.conclude_ok {σ : Type} (p : Pass σ) (clean : Bool) (fs : FileSystem) :
    p.conclude (.ok clean) fs = ⟨if clean then .success else .incomplete, p.stdout, p.stderr,
      p.written, ⟨fs, p.traffic⟩⟩ := by
  cases clean <;> rfl

namespace Stage

variable {σ τ : Type} {host : Host τ} {c : Config} {own : List String → Prop}
  {reach : FileSystem → Prop} {known : String → Option Node}
  {source : TreeSource (OpenStore σ × Client.Traffic)} {start x : OpenStore σ}
  {finish : Pass σ → Outcome} {works : OpenStore σ → Prop}

lemma gives_up (h : Stage host c own reach known source start finish works) (hx : works x)
    (f : Failure) (traffic : Client.Traffic) :
    let o := finish ⟨.error f, "", [], none, x, traffic⟩
    o.status.code = 1 ∧ o.written = none ∧ Keeps own x.files o.world.files := by
  intro o
  obtain ⟨fs, hfinish, hkeeps⟩ := h.finish_eq ⟨.error f, "", [], none, x, traffic⟩ hx
  have ho : o = _ := hfinish
  rw [ho]
  exact ⟨rfl, rfl, hkeeps⟩

lemma delivers (h : Stage host c own reach known source start finish works) (hx : works x)
    (traffic : Client.Traffic) {r : Report}
    (haccepts : Accepts host c own x.files (Export.render c.format r.records)) :
    let o := finish (deliver host c r x traffic)
    o.status = (if r.isClean then .success else .incomplete) ∧
      Delivers c own x.files (Export.render c.format r.records) o := by
  rw [deliver]
  dsimp only
  cases hout : toStandardOutput c x.files with
  | true =>
    rw [if_pos rfl]
    obtain ⟨fs, hfinish, hkeeps⟩ := h.finish_eq
      ⟨.ok r.isClean, Export.render c.format r.records, reportLines c r, none, x, traffic⟩ hx
    rw [hfinish, Pass.conclude_ok]
    refine ⟨rfl, fun _ => ⟨rfl, rfl, hkeeps⟩, fun hno => ?_⟩
    cases hout.symm.trans hno
  | false =>
    obtain ⟨⟨fs', hwrite⟩, hown⟩ := haccepts hout
    rw [if_neg Bool.false_ne_true, hwrite]
    have hspared := h.spared hx ((same_write hwrite).mono hown)
    obtain ⟨fs, hfinish, hkeeps⟩ := h.finish_eq
      ⟨.ok r.isClean, "", reportLines c r,
        some (c.outputPath, Text.Utf8.encode (Export.render c.format r.records)),
        ⟨x.state, fs'⟩, traffic⟩ hspared
    rw [hfinish, Pass.conclude_ok]
    refine ⟨rfl, fun hyes => ?_, fun _ => ⟨rfl, rfl, fun a ha hdevice => ?_,
      fs', (same_write hwrite).keeps, read_write hwrite, hkeeps⟩⟩
    · cases hout.symm.trans hyes
    · exact (hkeeps a (hown a ha)).trans (fileAt?_write hwrite ha hdevice)

end Stage

lemma validate_failFast {c valid : Config} (h : c.validate = .ok valid) :
    valid.failFast = c.failFast := by
  rw [(Config.validate_eq_ok h).1]

lemma configure_failFast {a : CommandLine.Arguments} {fs : FileSystem} {c : Config}
    (h : a.configure fs = .ok c) :
    ∃ base, a.baseConfig fs = .ok base ∧ c.failFast = (base.failFast || a.failFast) := by
  rw [CommandLine.Arguments.configure] at h
  split at h
  · cases h
  · rename_i base hbase
    refine ⟨base, hbase, ?_⟩
    split at h
    · rename_i valid hvalid
      obtain rfl := Except.ok.inj h
      exact validate_failFast hvalid
    · cases h

lemma isClean_onePass {answer : String → Except TreeError Node} {paths : List String} (job : Job)
    (htrees : ∀ path ∈ paths, ∃ tree, answer path = .ok tree) :
    (job.onePass answer paths).isClean = true := by
  rw [Report.isClean, Job.onePass, Job.failuresOf, List.isEmpty_iff, List.filterMap_eq_nil_iff]
  intro path hpath
  obtain ⟨tree, htree⟩ := htrees path hpath
  rw [htree]

lemma isClean_onePass_of_error {answer : String → Except TreeError Node} {paths : List String}
    (job : Job) {path : String} (hpath : path ∈ paths) {e : TreeError}
    (he : answer path = .error e) : (job.onePass answer paths).isClean = false := by
  have hmem : ⟨path, e⟩ ∈ Job.failuresOf answer paths :=
    List.mem_filterMap.mpr ⟨path, hpath, by rw [he]⟩
  rw [Report.isClean, Job.onePass, List.isEmpty_eq_false_iff]
  exact List.ne_nil_of_mem hmem

section Run

variable {σ : Type} {host : Host σ} {w : World} {args : List String} {a : CommandLine.Arguments}

lemma run_eq_execute (hargs : CommandLine.parse args = .ok a) {c : Config}
    (hconfig : a.configure w.files = .ok c) : run host args w = execute host c w := by
  rw [run, hargs]
  dsimp only
  rw [hconfig]

lemma run_eq_giveUp (hargs : CommandLine.parse args = .ok a) {e : ConfigError}
    (hconfig : a.configure w.files = .error e) : run host args w = giveUp w (.config e) := by
  rw [run, hargs]
  dsimp only
  rw [hconfig]

end Run

/-! ### Whole runs -/

/-- With a configuration that is not valid, without a scan root once the cache is open, or with a
file without a tree where the first failure ends the run, the program gives up and no file outside
the folder of the cache is another than before. Else it delivers the records of the files with a
tree, and says whether that is all files. -/
theorem run_endings {σ : Type} (host : Host σ) {args : List String} {a : CommandLine.Arguments}
    (w : World) (hargs : CommandLine.parse args = .ok a) :
    let o := run host args w
    (∀ e, a.configure w.files = .error e →
      o.status.code = 1 ∧ o.written = none ∧ o.world.files = w.files) ∧
    ∀ c own fs reach known, a.configure w.files = .ok c → Begins host c w own fs reach known →
      (∃ base, a.baseConfig w.files = .ok base ∧ c.failFast = (base.failFast || a.failFast)) ∧
      (∀ e, fs.find c.scanRoot = .error e →
        o.status.code = 1 ∧ o.written = none ∧ Keeps own w.files o.world.files) ∧
      ∀ paths answer, Scans host c fs reach known paths answer →
        let text := Export.render c.format (c.job.onePass answer paths).records
        ((∀ path ∈ paths, ∃ tree, answer path = .ok tree) →
          (∀ fs', reach fs' → Accepts host c own fs' text) →
          o.status.code = 0 ∧ ∃ fs', reach fs' ∧ Delivers c own fs' text o) ∧
        ((∃ path ∈ paths, ∃ e, answer path = .error e) →
          (c.failFast = false → (∀ fs', reach fs' → Accepts host c own fs' text) →
            o.status.code = 2 ∧ ∃ fs', reach fs' ∧ Delivers c own fs' text o) ∧
          (c.failFast = true →
            o.status.code = 1 ∧ o.written = none ∧ Keeps own w.files o.world.files)) := by
  intro o
  constructor
  · intro e he
    have ho : o = giveUp w (.config e) := run_eq_giveUp hargs he
    rw [ho]
    exact ⟨rfl, rfl, rfl⟩
  intro c own fs reach known hconfig hbegins
  obtain ⟨hopened, τ, source, start, finish, works, rfl, hstage, hexecute⟩ :=
    hbegins.exists_stage
  have ho : o = _ := (run_eq_execute hargs hconfig).trans hexecute
  refine ⟨configure_failFast hconfig, fun e he => ?_, fun paths answer hscans => ?_⟩
  · rw [extract_of_missing he] at ho
    obtain ⟨hcode, hwritten, hkeeps⟩ := hstage.gives_up hstage.start_works
      (.walk (.notFound c.scanRoot)) w.traffic
    rw [ho]
    exact ⟨hcode, hwritten, hopened.trans hkeeps⟩
  obtain ⟨inner, hsteady, rfl⟩ := hscans.steady
  obtain ⟨inv, hsource, hstart, hinv⟩ := hstage.answers hsteady
  have hdelivers (hu : c.job.Unbroken (overlay known inner) paths)
      (haccepts : ∀ fs', reach fs' → Accepts host c own fs'
        (Export.render c.format (c.job.onePass (overlay known inner) paths).records)) :
      o.status = (if (c.job.onePass (overlay known inner) paths).isClean then .success
          else .incomplete) ∧
        ∃ fs', reach fs' ∧ Delivers c own fs'
          (Export.render c.format (c.job.onePass (overlay known inner) paths).records) o := by
    obtain ⟨x, traffic, hx, hextract⟩ := extract_reports hscans.walked hsource (hstart w.traffic)
      hscans.pool hscans.done hu
    obtain ⟨hworks, hreach, -⟩ := hinv _ hx
    rw [hextract] at ho
    rw [ho]
    obtain ⟨hstatus, htext⟩ := hstage.delivers hworks traffic (haccepts x.files hreach)
    exact ⟨hstatus, x.files, hreach, htext⟩
  refine ⟨fun htrees haccepts => ?_, fun ⟨path, hpath, e, he⟩ => ⟨fun hf haccepts => ?_,
    fun hf => ?_⟩⟩
  · obtain ⟨hstatus, htext⟩ := hdelivers (fun _ => htrees) haccepts
    rw [isClean_onePass c.job htrees] at hstatus
    rw [hstatus]
    exact ⟨rfl, htext⟩
  · obtain ⟨hstatus, htext⟩ := hdelivers (Job.unbroken_of_not_failFast hf paths) haccepts
    rw [isClean_onePass_of_error c.job hpath he] at hstatus
    rw [hstatus]
    exact ⟨rfl, htext⟩
  · obtain ⟨f, x, traffic, hx, hextract⟩ := extract_aborts hscans.walked hsource
      (hstart w.traffic) hscans.pool hscans.done hf hpath he
    obtain ⟨hworks, -, hkept⟩ := hinv _ hx
    rw [hextract] at ho
    obtain ⟨hcode, hwritten, hkeeps⟩ := hstage.gives_up hworks f traffic
    rw [ho]
    exact ⟨hcode, hwritten, (hopened.trans hkept).trans hkeeps⟩

/-! ### Small runs -/

def loneHost : Host Unit where
  network := Network.offline
  processors := 1
  pool _ := .ok ()
  schedule := Schedule.inOrder
  cache _ := FileStore.cache ["c"]
  now := 0

def noArguments : CommandLine.Arguments :=
  ⟨none, none, none, none, none, none, none, none, none, none, none, none, []⟩

def treeless (items : List (String × Item)) : FileSystem :=
  ⟨.folder [("B.java", .file [] 0), ("c", .folder items),
    ("out.json", .file (Text.Utf8.encode "old") 0)], []⟩

lemma find_source (items : List (String × Item)) :
    (treeless items).find "./B.java" = .ok (.file [] 0) :=
  find_of_taken (by decide) rfl rfl

lemma find_out (items : List (String × Item)) :
    (treeless items).find "out.json" = .ok (.file (Text.Utf8.encode "old") 0) :=
  find_of_taken (by decide) rfl rfl

lemma locate_out (items : List (String × Item)) :
    (treeless items).locate .write "out.json" = .ok (.taken ["out.json"]) := by
  rw [locate_of_isPlain (by decide)]
  rfl

lemma walk_treeless : (treeless []).walk ".java" "." = .ok ["./B.java"] := by
  have hroot : (treeless []).find "." = .ok (treeless []).root :=
    find_of_taken (by decide) rfl rfl
  have hfolder : (treeless []).find "./c" = .ok (.folder []) :=
    find_of_taken (by decide) rfl rfl
  have hout : (treeless []).find "./out.json" = .ok (.file (Text.Utf8.encode "old") 0) :=
    find_of_taken (by decide) rfl rfl
  have hnames : sortedNames [("B.java", .file [] 0), ("c", .folder []),
      ("out.json", .file (Text.Utf8.encode "old") 0)] = ["B.java", "c", "out.json"] :=
    List.mergeSort_of_pairwise (by decide)
  have hnone : sortedNames [] = [] := List.mergeSort_of_pairwise (by decide)
  have hjoin : ["B.java", "c", "out.json"].map (FilePath.join ".") =
      ["./B.java", "./c", "./out.json"] := by decide
  have hjava : hasExtension ".java" "./B.java" = true := by decide
  have hjson : hasExtension ".java" "./out.json" = false := by decide
  have hbelow : (treeless []).collect ".java" (pathLimit - 1) "./c" = [] := by
    rw [show pathLimit - 1 = 4094 + 1 from rfl, collect_folder hfolder, hnone]
    rfl
  simp only [List.map_cons, List.map_nil, List.cons.injEq] at hjoin
  rw [walk_items hroot, hnames]
  simp [listed, hjoin, find_source, hfolder, hout, hjava, hjson, hbelow]

lemma acquire_treeless (items : List (String × Item)) :
    TreeLayout.sidecar.acquire (treeless items) "./B.java" =
      .error (.unreadable "./B.java.json" .notFound) := by
  have htree : (treeless items).find "./B.java.json" = .error .notFound :=
    find_of_free (by decide) rfl
  have hpath : TreeLayout.sidecar.treePath "./B.java" = "./B.java.json" := by decide
  rw [TreeLayout.acquire, hpath, readTreeFile, htree]

lemma reach_treeless {x : OpenStore Unit}
    (h : (FileStore.store ["c"]).Reach ⟨(), treeless []⟩ x) :
    ∃ items, x.files = treeless items := by
  induction h with
  | refl => exact ⟨[], rfl⟩
  | get h key ih => exact ih
  | @insert y h key value ih =>
    obtain ⟨items, hitems⟩ := ih
    simp only [FileStore.store, hitems]
    split
    · exact ⟨items, hitems⟩
    · exact ⟨_, rfl⟩
    · exact ⟨items, hitems⟩

lemma configure_standard {a : CommandLine.Arguments} {fs : FileSystem} {c : Config}
    (hnone : a.config = none) (hvalid : (a.applyTo .standard).validate = .ok c) :
    a.configure fs = .ok c := by
  rw [CommandLine.Arguments.configure, CommandLine.Arguments.baseConfig, hnone]
  dsimp only
  rw [hvalid]

def treelessConfig (cacheDir : Option String) (failFast : Bool) : Config :=
  { Config.standard with cacheDir := cacheDir, outputPath := "out.json", failFast := failFast }

def noTree (_ : String) : Except TreeError Node :=
  .error (.unreadable "./B.java.json" .notFound)

lemma scans_treeless (cacheDir : Option String) (failFast : Bool) {reach : FileSystem → Prop}
    (hreach : ∀ fs, reach fs → ∃ items, fs = treeless items) {known : String → Option Node}
    (hknown : known = fun _ => none) :
    Scans loneHost (treelessConfig cacheDir failFast) (treeless []) reach known ["./B.java"]
      noTree where
  walked := walk_treeless
  steady := by
    subst hknown
    refine ⟨noTree, ⟨fun fs hfs path hpath traffic => ?_, fun fs hfs path hpath => ?_⟩, rfl⟩
    · obtain ⟨items, rfl⟩ := hreach fs hfs
      obtain rfl := List.mem_singleton.mp hpath
      exact acquire_treeless items
    · obtain ⟨items, rfl⟩ := hreach fs hfs
      obtain rfl := List.mem_singleton.mp hpath
      rw [fingerprint?, fingerprint?, find_source, find_source]
  pool _ := rfl
  done h := absurd h (by
    change ¬ 1 < Config.standard.workers 1
    decide)

lemma render_treeless (job : Job) :
    Export.render .json (job.onePass noTree ["./B.java"]).records = "[]" := by
  have hrecords : (job.onePass noTree ["./B.java"]).records = [] := by
    simp [Job.onePass, Job.extractions, noTree]
  rw [hrecords]
  decide

lemma accepts_treeless (cacheDir : Option String) (items : List (String × Item)) (text : String) :
    Accepts loneHost (treelessConfig cacheDir false) (Within ["c"]) (treeless items) text := by
  intro _
  refine ⟨⟨(treeless items).putAt (.file (Text.Utf8.encode text) 0) ["out.json"], ?_⟩, ?_⟩
  · change (treeless items).write "out.json" _ _ = _
    rw [write, locate_out]
    rfl
  · rintro a ⟨place, hplace, rfl⟩
    obtain rfl := Except.ok.inj ((locate_out items).symm.trans hplace)
    decide

/-- Behind a cache and without a tree the output is an empty list. Where the first failure ends the
run, the output file holds what it held. -/
theorem run_endings_treeless :
    let o := run loneHost ["--cache-dir", "c", "--output", "out.json"] ⟨treeless [], ⟨0, []⟩⟩
    let o' := run loneHost ["--output", "out.json", "--fail-fast"] ⟨treeless [], ⟨0, []⟩⟩
    o.status.code = 2 ∧ o.world.files.fileAt? ["out.json"] = some (Text.Utf8.encode "[]") ∧
      o'.status.code = 1 ∧ o'.world.files.fileAt? ["out.json"] = some (Text.Utf8.encode "old") := by
  intro o o'
  have hargs : CommandLine.parse ["--cache-dir", "c", "--output", "out.json"] =
      .ok { noArguments with cacheDir := some "c", output := some "out.json" } := by
    decide +kernel
  have hargs' : CommandLine.parse ["--output", "out.json", "--fail-fast"] =
      .ok { noArguments with output := some "out.json", switches := [.failFast] } := by
    decide +kernel
  have hholds : FileStore.Holds ["c"] (fun _ => none) ⟨(), treeless []⟩ :=
    ⟨⟨[], rfl⟩, fun _ => rfl⟩
  have hbegins : Begins loneHost (treelessConfig (some "c") false) ⟨treeless [], ⟨0, []⟩⟩
      (Within ["c"]) (treeless []) _ _ :=
    .cached rfl (FileStore.store_lawful ["c"]) EntryLayout.packed_readsBack rfl (.refl _ _) hholds
  have hall := ((run_endings loneHost ⟨treeless [], ⟨0, []⟩⟩ hargs).2 _ _ _ _ _
    (configure_standard rfl (by decide +kernel)) hbegins).2.2 _ _
      (scans_treeless (some "c") false (fun fs ⟨_, h⟩ => reach_treeless h)
        (Cache.known_of_empty _ _))
  have hall' := ((run_endings loneHost ⟨treeless [], ⟨0, []⟩⟩ hargs').2 _ _ _ _ _
    (configure_standard rfl (by decide +kernel)) (.plain rfl)).2.2 _ _
      (scans_treeless none true (fun fs h => ⟨[], h⟩) rfl)
  have hfailed : ∃ path ∈ ["./B.java"], ∃ e, noTree path = .error e :=
    ⟨_, List.mem_singleton_self _, _, rfl⟩
  obtain ⟨hcode, fs, ⟨_, hreach⟩, hdelivers⟩ := (hall.2 hfailed).1 rfl fun fs ⟨_, h⟩ => by
    obtain ⟨items, rfl⟩ := reach_treeless h
    exact accepts_treeless (some "c") items _
  obtain ⟨items, rfl⟩ := reach_treeless hreach
  obtain ⟨hcode', -, hkeeps⟩ := (hall'.2 hfailed).2 rfl
  refine ⟨hcode, ?_, hcode', ?_⟩
  · have hout : toStandardOutput (treelessConfig (some "c") false) (treeless items) = false := by
      rw [toStandardOutput, show (treelessConfig (some "c") false).outputPath = "out.json" from rfl,
        find_out]
      decide
    have hfile := (hdelivers.written hout).2.2.1 ["out.json"] ⟨_, locate_out items, rfl⟩
      fun d hd => by cases hd
    rw [hfile, show (treelessConfig (some "c") false).format = .json from rfl, render_treeless]
  · rw [hkeeps ["out.json"] not_false]
    rfl

/-! ### The cache first -/

def cacheOnly : FileSystem :=
  ⟨.folder [("c", .folder [(FileStore.markName, .file [] 0)])], []⟩

lemma openIn_empty : (FileStore.store ["c"]).openIn empty = (.ok (), cacheOnly) := rfl

lemma walk_cacheOnly : cacheOnly.walk ".java" "c" = .ok [] := by
  have hroot : cacheOnly.find "c" = .ok (.folder [(FileStore.markName, .file [] 0)]) :=
    find_of_taken (by decide) rfl rfl
  have hmark : cacheOnly.find "c/conf" = .ok (.file [] 0) :=
    find_of_taken (by decide) rfl rfl
  have hnames : sortedNames [(FileStore.markName, .file [] 0)] = ["conf"] :=
    List.mergeSort_of_pairwise (by decide)
  have hjoin : FilePath.join "c" "conf" = "c/conf" := by decide
  have hextension : hasExtension ".java" "c/conf" = false := by decide
  rw [walk_items hroot, hnames]
  simp [listed, hjoin, hmark, hextension]

def cacheConfig (root output : String) : Config :=
  { Config.standard with rootDirectory := root, cacheDir := some "c", outputPath := output }

/-- The folder that the cache makes can be the scan root, and the output file can be one that the
cache writes. -/
theorem run_cache_first :
    let o := run loneHost ["--root", "c", "--cache-dir", "c", "--output", "-"] ⟨empty, ⟨0, []⟩⟩
    let o' := run loneHost ["--root", "x", "--cache-dir", "c", "--output", "c/conf"]
      ⟨empty, ⟨0, []⟩⟩
    (empty.find "c" = .error .notFound ∧ o.status.code = 0) ∧
      empty.find "x" = .error .notFound ∧ empty.fileAt? ["c", "conf"] = none ∧
        o'.status.code = 1 ∧ o'.world.files.fileAt? ["c", "conf"] ≠ none := by
  intro o o'
  have hargs : CommandLine.parse ["--root", "c", "--cache-dir", "c", "--output", "-"] =
      .ok { noArguments with root := some "c", cacheDir := some "c", output := some "-" } := by
    decide +kernel
  have hargs' : CommandLine.parse ["--root", "x", "--cache-dir", "c", "--output", "c/conf"] =
      .ok { noArguments with root := some "x", cacheDir := some "c", output := some "c/conf" } := by
    decide +kernel
  have hrun : o = execute loneHost (cacheConfig "c" "-") ⟨empty, ⟨0, []⟩⟩ :=
    run_eq_execute hargs (configure_standard rfl (by decide +kernel))
  have hrun' : o' = execute loneHost (cacheConfig "x" "c/conf") ⟨empty, ⟨0, []⟩⟩ :=
    run_eq_execute hargs' (configure_standard rfl (by decide +kernel))
  have hroot : cacheOnly.walk (cacheConfig "c" "-").fileExtension (cacheConfig "c" "-").scanRoot =
      .ok [] := walk_cacheOnly
  have hnoRoot : cacheOnly.find (cacheConfig "x" "c/conf").scanRoot = .error .notFound :=
    find_of_free (by decide) rfl
  refine ⟨⟨find_of_free (by decide) rfl, ?_⟩, find_of_free (by decide) rfl, rfl, ?_⟩
  · rw [hrun, execute_cached rfl openIn_empty, extract, gather, hroot]
    rfl
  · rw [hrun', execute_cached rfl openIn_empty, extract_of_missing hnoRoot]
    exact ⟨rfl, Option.some_ne_none _⟩

end SettingCatalog.Program
