import SettingCatalog.Program.Run
import SettingCatalog.Proofs.Config.Filters
import SettingCatalog.Proofs.Files.Relative

/-! The source that is recorded with a setting, against the file that was walked. Only names are
recorded, so the file is found again from the root directory exactly if it lies below that directory
by names alone. -/

namespace SettingCatalog

open FilePath FileSystem

variable {c : Config} {fs : FileSystem} {file root source : String} {files : List String}
  {cs : List Component}

lemma Extractor.sourceFile_of_mem {x : Extractor} {tree : Node} {r : Record}
    (h : r ∈ (x.extract tree file).records) : r.sourceFile = file := by
  obtain ⟨result, hresult, hr⟩ := List.mem_filterMap.mp h
  obtain ⟨candidate, -, rfl⟩ := List.mem_map.mp hresult
  rw [extractCandidate] at hr
  split at hr
  · rw [← Option.some.inj hr]
  · cases hr

/-- What is recorded names the file, and is a path to it from the root directory. -/
structure Locates (root source file : String) : Prop where
  ne_empty : source ≠ ""
  name : (segments source).getLast? = fileName? file
  same : components (join root source) = components file

lemma locates_names {names : List String} (h : components file = components root ++ names.map .name)
    (hne : names ≠ []) (hnames : ∀ name ∈ names, IsName name) :
    Locates root (ofSegments names) file := by
  have hsegments := segments_ofSegments hne fun s hs => (hnames s hs).no_slash
  obtain ⟨front, last, rfl⟩ := (List.eq_nil_or_concat' names).resolve_left hne
  refine ⟨?_, ?_, by rw [components_join_names hnames, h]⟩
  · intro hempty
    have hcomponents := components_ofSegments_names hnames
    rw [hempty, components_empty] at hcomponents
    simp at hcomponents
  · rw [hsegments, List.getLast?_concat, fileName?, h, List.map_append, List.map_singleton,
      ← List.append_assoc, List.getLast?_concat]

lemma locates_iff (h : components file = components root ++ cs)
    (hcs : ∀ c ∈ cs, c ≠ .root ∧ ∀ name, c = .name name → IsName name) :
    Locates root (sourcePath root file) file ↔ cs ≠ [] ∧ .parent ∉ cs ∧ .current ∉ cs := by
  have hnames : ∀ name ∈ cs.filterMap sourcePart?, IsName name := by
    intro name hname
    obtain ⟨c, hc, hpart⟩ := List.mem_filterMap.mp hname
    cases c with
    | root => exact absurd rfl (hcs _ hc).1
    | name s => exact Option.some.inj hpart ▸ (hcs _ hc).2 s rfl
    | current => cases hpart
    | parent => cases hpart
  rw [sourcePath_eq h]
  constructor
  · rintro ⟨hne, -, hsame⟩
    rw [components_join_names hnames, h] at hsame
    have hcs := List.append_cancel_left hsame
    refine ⟨?_, ?_, ?_⟩
    · rintro rfl
      exact hne rfl
    · rw [← hcs]
      simp
    · rw [← hcs]
      simp
  · rintro ⟨hne, hparent, hcurrent⟩
    have hall : (cs.filterMap sourcePart?).map .name = cs := by
      rw [List.map_filterMap]
      conv_rhs => rw [← List.filterMap_some (l := cs)]
      refine List.filterMap_congr fun c hc => ?_
      cases c with
      | root => exact absurd rfl (hcs _ hc).1
      | name s => rfl
      | current => exact absurd hc hcurrent
      | parent => exact absurd hc hparent
    refine locates_names (by rw [hall, h]) ?_ hnames
    intro hnil
    rw [hnil] at hall
    exact hne hall.symm

/-! ### Files below the path that is scanned -/

lemma exists_components_join {p : String} (hp : isAbsolute p = false) :
    ∃ cs, components (join root p) = components root ++ cs ∧
      (∀ c ∈ cs, c = .current ∨ c = .parent ∨ ∃ name, IsName name ∧ c = .name name) ∧
      (.parent ∈ cs ↔ .parent ∈ components p) ∧
      (.current ∈ cs ↔ root = "" ∧ .current ∈ components p) := by
  have hsteps : ∀ c ∈ (segments p).filterMap component?,
      c = .parent ∨ ∃ name, IsName name ∧ c = .name name := fun c hc => segments_steps hc
  have hno : Component.current ∉ (segments p).filterMap component? := fun hmem => by
    simpa using hsteps _ hmem
  by_cases hroot : root = ""
  · refine ⟨components p, by simp [hroot, join, hp, components_empty], ?_, Iff.rfl, by simp [hroot]⟩
    rcases components_cases hp with hcomponents | hcomponents
    · rw [hcomponents]
      exact fun c hc => .inr (hsteps c hc)
    · rw [hcomponents, List.forall_mem_cons]
      exact ⟨.inl rfl, fun c hc => .inr (hsteps c hc)⟩
  · refine ⟨_, components_join hroot hp, fun c hc => .inr (hsteps c hc), ?_, by simp [hroot, hno]⟩
    rcases components_cases hp with hcomponents | hcomponents <;> simp [hcomponents]

lemma exists_components_scanRoot (hscan : ∀ sub, c.scanPath = some sub → isAbsolute sub = false) :
    ∃ cs, components c.scanRoot = components c.rootDirectory ++ cs ∧
      (∀ c ∈ cs, c = .current ∨ c = .parent ∨ ∃ name, IsName name ∧ c = .name name) ∧
      (.parent ∈ cs ↔ ∃ sub, c.scanPath = some sub ∧ .parent ∈ components sub) ∧
      (.current ∈ cs ↔
        c.rootDirectory = "" ∧ ∃ sub, c.scanPath = some sub ∧ .current ∈ components sub) := by
  rw [Config.scanRoot]
  cases hpath : c.scanPath with
  | none => exact ⟨[], by simp, by simp, by simp, by simp⟩
  | some sub => simpa using exists_components_join (hscan sub hpath)

/-- The file of a walk is found again by what is recorded of it unless it is the root directory
itself, the path that is scanned goes up, or an empty root directory hides the dot that this path
begins with. -/
theorem recorded_locates (hscan : ∀ sub, c.scanPath = some sub → isAbsolute sub = false)
    (hnames : ∀ name, fs.HasNamed name → IsName name)
    (hwalk : fs.walk c.fileExtension c.scanRoot = .ok files) (hfile : file ∈ files) :
    (∀ tree x, c.job.outcome file (.ok tree) = .ok x →
      ∀ r ∈ x.records, r.sourceFile = sourcePath c.rootDirectory file) ∧
    (Locates c.rootDirectory (sourcePath c.rootDirectory file) file ↔
      components file ≠ components c.rootDirectory ∧
      ∀ sub, c.scanPath = some sub → .parent ∉ components sub ∧
        (c.rootDirectory = "" → .current ∉ components sub)) := by
  refine ⟨fun tree x hx r hr => ?_, ?_⟩
  · obtain rfl := Except.ok.inj hx
    exact Extractor.sourceFile_of_mem hr
  · obtain ⟨hne, rfl⟩ := exists_collect_of_walk hwalk
    obtain ⟨-, names, hnamed, rfl⟩ := mem_collect hfile
    have hall : ∀ name ∈ names, IsName name := fun name hname => hnames name (hnamed name hname)
    obtain ⟨cs, hcs, hsteps, hparent, hcurrent⟩ := exists_components_scanRoot hscan
    have hcomponents : components (below c.scanRoot names) =
        components c.rootDirectory ++ (cs ++ names.map .name) := by
      rw [components_below hne hall, hcs, List.append_assoc]
    have hkinds : ∀ c ∈ cs ++ names.map .name, c ≠ .root ∧ ∀ name, c = .name name → IsName name := by
      rw [List.forall_mem_append, List.forall_mem_map]
      refine ⟨fun c hc => ?_, fun name hname => by simpa using hall name hname⟩
      rcases hsteps c hc with rfl | rfl | ⟨name, hname, rfl⟩
      · simp
      · simp
      · simpa using hname
    have hparent' : Component.parent ∈ cs ++ names.map .name ↔ .parent ∈ cs := by simp
    have hcurrent' : Component.current ∈ cs ++ names.map .name ↔ .current ∈ cs := by simp
    rw [locates_iff hcomponents hkinds, hcomponents, Ne, Ne, List.append_right_eq_self, hparent',
      hcurrent', hparent, hcurrent]
    refine and_congr_right fun _ => ⟨fun h sub hsub => ⟨fun hup => ?_, fun hroot hdot => ?_⟩,
      fun h => ⟨?_, ?_⟩⟩
    · exact h.1 ⟨sub, hsub, hup⟩
    · exact h.2 ⟨hroot, sub, hsub, hdot⟩
    · rintro ⟨sub, hsub, hup⟩
      exact (h sub hsub).1 hup
    · rintro ⟨hroot, sub, hsub, hdot⟩
      exact (h sub hsub).2 hroot hdot

/-! ### Two folders side by side -/

def siblings : FileSystem :=
  ⟨.folder [("src", .folder []), ("lib", .folder [("A.java", .file [] 0)])], []⟩

lemma isName_of_siblings {name : String} (h : siblings.HasNamed name) : IsName name := by
  have hmem : name ∈ ["src", "lib", "A.java"] := by
    rcases h.folder_cases with hname | ⟨e, he, h⟩
    · simpa [or_assoc] using List.mem_append_left ["A.java"] hname
    · simp only [List.mem_cons, List.not_mem_nil, or_false] at he
      rcases he with rfl | rfl
      · rcases h.folder_cases with hname | ⟨e, he, h⟩
        · cases hname
        · cases he
      · rcases h.folder_cases with hname | ⟨e, he, h⟩
        · simpa [or_assoc] using List.mem_append_right ["src", "lib"] hname
        · obtain rfl := List.mem_singleton.mp he
          exact absurd h (not_hasNamed_file _ _ _)
  exact (by decide : ∀ name ∈ ["src", "lib", "A.java"], IsName name) name hmem

lemma walk_siblings (hroot : siblings.find root = .ok (.folder [("A.java", .file [] 0)]))
    (hjoin : join root "A.java" = file) (hfile : siblings.find file = .ok (.file [] 0))
    (hends : hasExtension ".java" file = true) : siblings.walk ".java" root = .ok [file] := by
  have hnames : sortedNames [("A.java", .file [] 0)] = ["A.java"] :=
    List.mergeSort_of_pairwise (by decide)
  rw [walk_items hroot, hnames]
  simp [listed, hjoin, hfile, hends]

def scanning (root sub : String) : Config :=
  { Config.standard with rootDirectory := root, scanPath := some sub }

/-- The folder itself, spelled with dots and slashes that do not count. -/
theorem recorded_locates_dotted :
    (∀ sub, (scanning "./lib/" "./.").scanPath = some sub → isAbsolute sub = false) ∧
      (∀ name, siblings.HasNamed name → IsName name) ∧
      siblings.walk ".java" (scanning "./lib/" "./.").scanRoot = .ok ["./lib/././A.java"] ∧
      sourcePath "./lib/" "./lib/././A.java" = "A.java" ∧
      Locates "./lib/" (sourcePath "./lib/" "./lib/././A.java") "./lib/././A.java" := by
  have hscan : ∀ sub, (scanning "./lib/" "./.").scanPath = some sub → isAbsolute sub = false := by
    intro sub hsub
    obtain rfl := Option.some.inj hsub
    decide
  have hroot : siblings.find "./lib/./." = .ok (.folder [("A.java", .file [] 0)]) :=
    find_of_taken (by decide) rfl rfl
  have hfile : siblings.find "./lib/././A.java" = .ok (.file [] 0) :=
    find_of_taken (by decide) rfl rfl
  have hwalk : siblings.walk ".java" (scanning "./lib/" "./.").scanRoot =
      .ok ["./lib/././A.java"] := by
    have hscanRoot : (scanning "./lib/" "./.").scanRoot = "./lib/./." := by decide
    rw [hscanRoot]
    exact walk_siblings hroot (by decide) hfile (by decide)
  have hlocates := (recorded_locates hscan (fun _ => isName_of_siblings) hwalk
    (List.mem_singleton_self _)).2
  refine ⟨hscan, fun _ => isName_of_siblings, hwalk, by decide, hlocates.mpr ⟨by decide, ?_⟩⟩
  intro sub hsub
  obtain rfl := Option.some.inj hsub
  decide

/-- A path that goes up and over to the other folder is recorded without the step up: what is
recorded leads nowhere from the root directory, and with the step it would lead to the file. -/
theorem recorded_beside :
    (scanning "src" "../lib").validate = .ok (scanning "src" "../lib") ∧
      isAbsolute "../lib" = false ∧ (∀ name, siblings.HasNamed name → IsName name) ∧
      siblings.walk (scanning "src" "../lib").fileExtension (scanning "src" "../lib").scanRoot =
        .ok ["src/../lib/A.java"] ∧
      sourcePath "src" "src/../lib/A.java" = "lib/A.java" ∧
      ¬ Locates "src" (sourcePath "src" "src/../lib/A.java") "src/../lib/A.java" ∧
      siblings.find (join "src" "lib/A.java") = .error .notFound ∧
      Locates "src" "../lib/A.java" "src/../lib/A.java" := by
  have hroot : siblings.find "src/../lib" = .ok (.folder [("A.java", .file [] 0)]) :=
    find_of_taken (by decide) rfl rfl
  have hfile : siblings.find "src/../lib/A.java" = .ok (.file [] 0) :=
    find_of_taken (by decide) rfl rfl
  refine ⟨rfl, by decide, fun _ => isName_of_siblings, ?_, by decide,
    fun h => absurd h.same (by decide), ?_, ⟨by decide, by decide, by decide⟩⟩
  · have hscanRoot : (scanning "src" "../lib").scanRoot = "src/../lib" := by decide
    rw [hscanRoot]
    exact walk_siblings hroot (by decide) hfile (by decide)
  · rw [FileSystem.find, locate_of_isPlain (by decide)]
    rfl

end SettingCatalog
