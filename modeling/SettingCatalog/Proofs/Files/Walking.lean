import Mathlib.Data.List.Nodup
import SettingCatalog.Files.Walk
import SettingCatalog.Proofs.Files.Paths
import SettingCatalog.Proofs.Text.Utf8

/-! The source files below a path, in the order of the names that lead to them. In a folder each
item is left out, listed or walked, so the list of a folder is put together from those of its items,
each with the name of its item in front. -/

namespace SettingCatalog.FileSystem

open FilePath

def IsPlain : Item → Prop
  | .file _ _ => True
  | .folder items => (items.map Prod.fst).Nodup ∧ ∀ name ∈ items.map Prod.fst, IsName name
  | _ => False

/-- A tree of files and folders at a path, all of them within reach of the path. -/
structure Readable (fs : FileSystem) (root : String) (tree : Item) : Prop where
  found : fs.find root = .ok tree
  plain : ∀ address item, tree.at? address = some item → IsPlain item
  reached : ∀ address item, tree.at? address = some item → fs.exists? (below root address) = true

/-- The names lead to a file with the extension of the filter, through folders that begin with no
dot. -/
structure IsSource (filter : String) (tree : Item) (names : List String) : Prop where
  file : ∃ content modified, tree.at? names = some (.file content modified)
  seen : ∃ folders name, names = folders ++ [name] ∧
    (∀ folder ∈ folders, folder.toList.head? ≠ some '.') ∧ EndsIn filter name

def Precedes (a b : List String) : Prop := a.map Text.Utf8.encode < b.map Text.Utf8.encode

/-- The list holds what has the property, each once and in order. -/
structure Lists (p : List String → Prop) (files : List (List String)) : Prop where
  mem_iff : ∀ names, names ∈ files ↔ p names
  sorted : files.Pairwise Precedes

variable {fs : FileSystem} {filter path name : String} {items : List (String × Item)} {item : Item}
  {names rest : List String}

lemma Precedes.irrefl (names : List String) : ¬ Precedes names names := List.lt_irrefl _

lemma Precedes.of_lt {a b : String} (h : a < b) (x y : List String) :
    Precedes (a :: x) (b :: y) :=
  List.cons_lt_cons_iff.mpr (.inl (Text.Utf8.encode_lt h))

lemma Precedes.cons {a b : List String} (h : Precedes a b) (name : String) :
    Precedes (name :: a) (name :: b) :=
  List.cons_lt_cons_iff.mpr (.inr ⟨rfl, h⟩)

lemma mem_names_iff : name ∈ items.map Prod.fst ↔ ∃ item, items.lookup name = some item := by
  rw [← Option.isSome_iff_exists, List.lookup_isSome_iff, List.mem_map]
  simp only [beq_iff_eq, @eq_comm _ name]

/-! ### Sources of a folder -/

lemma IsSource.ne_nil {tree : Item} (h : IsSource filter tree names) : names ≠ [] := by
  obtain ⟨folders, name, rfl, -⟩ := h.seen
  simp

lemma IsSource.exists_cons (h : IsSource filter (.folder items) names) :
    ∃ name rest, names = name :: rest ∧ name ∈ items.map Prod.fst := by
  obtain ⟨name, rest, rfl⟩ := List.exists_cons_of_ne_nil h.ne_nil
  obtain ⟨content, modified, hfile⟩ := h.file
  obtain ⟨below, item, hbelow, hitem, -⟩ := Item.exists_items_of_at?_cons hfile
  cases hbelow
  exact ⟨name, rest, rfl, mem_names_iff.mpr ⟨item, hitem⟩⟩

lemma isSource_cons_iff (hitem : items.lookup name = some item) :
    IsSource filter (.folder items) (name :: rest) ↔
      (rest = [] ∧ (∃ content modified, item = .file content modified) ∧ EndsIn filter name) ∨
        name.toList.head? ≠ some '.' ∧ IsSource filter item rest := by
  have hat := Item.at?_of_lookup hitem rest
  constructor
  · rintro ⟨hfile, folders, last, hnames, hseen, hends⟩
    rw [hat] at hfile
    cases folders with
    | nil =>
      rw [List.nil_append, List.cons.injEq] at hnames
      obtain ⟨rfl, rfl⟩ := hnames
      rw [Item.at?_nil] at hfile
      exact .inl ⟨rfl, by simpa using hfile, hends⟩
    | cons folder folders =>
      rw [List.cons_append, List.cons.injEq] at hnames
      obtain ⟨rfl, rfl⟩ := hnames
      rw [List.forall_mem_cons] at hseen
      exact .inr ⟨hseen.1, hfile, folders, last, rfl, hseen.2, hends⟩
  · rintro (⟨rfl, ⟨content, modified, rfl⟩, hends⟩ |
      ⟨hdot, hfile, folders, last, rfl, hseen, hends⟩)
    · exact ⟨⟨content, modified, hat.trans (Item.at?_nil _)⟩, [], name, rfl, by simp, hends⟩
    · exact ⟨hat ▸ hfile, name :: folders, last, rfl, List.forall_mem_cons.mpr ⟨hdot, hseen⟩, hends⟩

lemma not_isSource_file (content : Bytes) (modified : Int) :
    ¬ IsSource filter (.file content modified) names := by
  rintro ⟨⟨content', modified', hfile⟩, folders, name, rfl, -⟩
  cases folders <;> cases hfile

/-! ### The walk through a folder -/

lemma hasExtension_iff : hasExtension filter path = true ↔
    ∃ name, fileName? path = some name ∧ EndsIn filter name := by
  rw [hasExtension, beq_iff_eq, extension?, Option.bind_eq_some_iff]
  refine exists_congr fun name => and_congr_right fun _ => ?_
  rw [extensionOfName?_eq_some_iff, bareExtension, String.toList_ofList]
  constructor
  · rintro ⟨stem, hname, hstem, hdot⟩
    exact ⟨stem, _, hname, hstem, hdot, rfl⟩
  · rintro ⟨stem, ext, hname, hstem, hdot, rfl⟩
    exact ⟨stem, hname, hstem, hdot⟩

lemma hasExtension_join (hpath : path ≠ "") (h : IsName name) :
    hasExtension filter (join path name) = true ↔ EndsIn filter name := by
  rw [hasExtension_iff, h.fileName?_join hpath]
  simp

lemma isHidden_iff : isHidden name = true ↔ name.toList.head? = some '.' := by
  rw [isHidden, beq_iff_eq]

lemma sortedNames_perm (items : List (String × Item)) :
    (sortedNames items).Perm (items.map Prod.fst) := List.mergeSort_perm _ _

lemma pairwise_sortedNames (h : (items.map Prod.fst).Nodup) :
    (sortedNames items).Pairwise (· < ·) := by
  have hle : (sortedNames items).Pairwise (· ≤ ·) := by
    refine (List.pairwise_mergeSort ?_ ?_ (items.map Prod.fst)).imp ?_
    · simpa using fun a b c => le_trans
    · simpa using le_total
    · simp
  have hne : (sortedNames items).Nodup := (sortedNames_perm items).nodup_iff.mpr h
  exact (hle.and hne).imp fun h => lt_of_le_of_ne h.1 h.2

namespace Readable

lemma plain_self (h : Readable fs path item) : IsPlain item := h.plain [] item (Item.at?_nil item)

lemma child (h : Readable fs path (.folder items)) (hitem : items.lookup name = some item) :
    Readable fs (join path name) item := by
  have hat := Item.at?_of_lookup hitem
  have hself : (Item.folder items).at? [name] = some item := (hat []).trans (Item.at?_nil item)
  have hplain := h.plain [name] item hself
  have hname : IsName name := h.plain_self.2 name (mem_names_iff.mpr ⟨item, hitem⟩)
  refine ⟨?_, fun address i hi => h.plain (name :: address) i ((hat address).trans hi),
    fun address i hi => h.reached (name :: address) i ((hat address).trans hi)⟩
  -- No links are in the tree, so the path with the name leads to the item itself.
  apply find_join h.found hname hitem _ (h.reached [name] item hself)
  rintro target rfl
  exact hplain

lemma isName_of_at? {tree : Item} (h : Readable fs path tree) (hitem : tree.at? names = some item) :
    ∀ name ∈ names, IsName name := by
  induction names generalizing path tree with
  | nil => simp
  | cons name names ih =>
    obtain ⟨items, inner, rfl, hinner, hitem⟩ := Item.exists_items_of_at?_cons hitem
    exact List.forall_mem_cons.mpr
      ⟨h.plain_self.2 name (mem_names_iff.mpr ⟨inner, hinner⟩), ih (h.child hinner) hitem⟩

lemma file {content : Bytes} {modified : Int} (h : fs.find path = .ok (.file content modified)) :
    Readable fs path (.file content modified) := by
  have hall {address : List String} {item : Item}
      (hi : (Item.file content modified).at? address = some item) :
      IsPlain item ∧ fs.exists? (below path address) = true := by
    cases address with
    | nil =>
      rw [Item.at?_nil, Option.some.injEq] at hi
      exact ⟨hi ▸ trivial, exists?_iff.mpr ⟨_, h⟩⟩
    | cons name address => cases hi
  exact ⟨h, fun address item hi => (hall hi).1, fun address item hi => (hall hi).2⟩

lemma folder (h : fs.find path = .ok (.folder items)) (hplain : IsPlain (.folder items))
    (hitems : ∀ e ∈ items, Readable fs (join path e.1) e.2) : Readable fs path (.folder items) := by
  have hall {address : List String} {item : Item}
      (hi : (Item.folder items).at? address = some item) :
      IsPlain item ∧ fs.exists? (below path address) = true := by
    cases address with
    | nil =>
      rw [Item.at?_nil, Option.some.injEq] at hi
      exact ⟨hi ▸ hplain, exists?_iff.mpr ⟨_, h⟩⟩
    | cons name address =>
      rw [Item.at?_folder_cons, Option.bind_eq_some_iff] at hi
      obtain ⟨inner, hlookup, hi⟩ := hi
      obtain ⟨front, back, hsplit, -⟩ := List.lookup_eq_some_iff.mp hlookup
      have hinner := hitems (name, inner) (by simp [hsplit])
      exact ⟨hinner.plain address item hi, hinner.reached address item hi⟩
  exact ⟨h, fun address item hi => (hall hi).1, fun address item hi => (hall hi).2⟩

end Readable

def listed (fs : FileSystem) (filter : String) (depth : ℕ) (path name : String) : List String :=
  match fs.find (join path name) with
  | .ok (.folder _) => if isHidden name then [] else fs.collect filter depth (join path name)
  | _ => if hasExtension filter (join path name) then [join path name] else []

lemma collect_folder {depth : ℕ} (h : fs.find path = .ok (.folder items)) :
    fs.collect filter (depth + 1) path =
      (sortedNames items).flatMap (fs.listed filter depth path) := by
  rw [collect, h]
  rfl

def HasNamed (fs : FileSystem) (name : String) : Prop :=
  ∃ address items, fs.root.at? address = some (.folder items) ∧ name ∈ items.map Prod.fst

lemma HasNamed.folder_cases {here : List String} (h : HasNamed ⟨.folder items, here⟩ name) :
    name ∈ items.map Prod.fst ∨ ∃ e ∈ items, HasNamed ⟨e.2, here⟩ name := by
  obtain ⟨address, inner, hat, hname⟩ := h
  cases address with
  | nil =>
    rw [Item.at?_nil, Option.some.injEq] at hat
    exact .inl (Item.folder.inj hat ▸ hname)
  | cons first rest =>
    rw [Item.at?_folder_cons, Option.bind_eq_some_iff] at hat
    obtain ⟨item, hlookup, hat⟩ := hat
    obtain ⟨front, back, rfl, -⟩ := List.lookup_eq_some_iff.mp hlookup
    exact .inr ⟨(first, item), by simp, rest, inner, hat, hname⟩

lemma not_hasNamed_file (content : Bytes) (modified : Int) (here : List String) :
    ¬ HasNamed ⟨.file content modified, here⟩ name := by
  rintro ⟨address, items, hat, -⟩
  cases address <;> cases hat

lemma mem_collect {depth : ℕ} {file : String} (h : file ∈ fs.collect filter depth path) :
    hasExtension filter file = true ∧
      ∃ names, (∀ name ∈ names, fs.HasNamed name) ∧ file = below path names := by
  induction depth generalizing path with
  | zero => simp [collect] at h
  | succ depth ih =>
    by_cases hfolder : ∃ items, fs.find path = .ok (.folder items)
    · obtain ⟨items, hitems⟩ := hfolder
      rw [collect_folder hitems, List.mem_flatMap] at h
      obtain ⟨name, hname, h⟩ := h
      have hnamed : fs.HasNamed name := by
        obtain ⟨address, -, hat⟩ := exists_address_of_find hitems
        exact ⟨address, items, hat, (sortedNames_perm items).mem_iff.mp hname⟩
      have hfile : file ∈ fs.collect filter depth (join path name) ∨
          hasExtension filter file = true ∧ file = join path name := by
        rw [listed] at h
        split at h
        · exact .inl (List.mem_ite_nil_left.mp h).2
        · obtain ⟨hends, hmem⟩ := List.mem_ite_nil_right.mp h
          obtain rfl := List.mem_singleton.mp hmem
          exact .inr ⟨hends, rfl⟩
      rcases hfile with hbelow | ⟨hends, rfl⟩
      · obtain ⟨hends, names, hnames, rfl⟩ := ih hbelow
        exact ⟨hends, name :: names, List.forall_mem_cons.mpr ⟨hnamed, hnames⟩, rfl⟩
      · exact ⟨hends, [name], by simpa using hnamed, rfl⟩
    · rw [collect] at h
      split at h
      · rename_i items hitems
        exact absurd ⟨items, hitems⟩ hfolder
      · obtain ⟨hends, hmem⟩ := List.mem_ite_nil_right.mp h
        obtain rfl := List.mem_singleton.mp hmem
        exact ⟨hends, [], by simp, rfl⟩

lemma exists_collect_of_walk {files : List String} (h : fs.walk filter path = .ok files) :
    path ≠ "" ∧ files = fs.collect filter pathLimit path := by
  rw [walk] at h
  split at h
  · cases h
  · cases h
  · rename_i item hfind
    exact ⟨ne_empty_of_find hfind, (Except.ok.inj h).symm⟩

lemma walk_folder (h : fs.find path = .ok (.folder items)) :
    fs.walk filter path = .ok (fs.collect filter pathLimit path) := by
  rw [walk, h]

lemma walk_items (h : fs.find path = .ok (.folder items)) :
    fs.walk filter path =
      .ok ((sortedNames items).flatMap (fs.listed filter (pathLimit - 1) path)) := by
  rw [walk_folder h, ← collect_folder h]
  rfl

def IsSourceUnder (filter : String) (items : List (String × Item)) (name : String)
    (names : List String) : Prop :=
  IsSource filter (.folder items) names ∧ ∃ rest, names = name :: rest

lemma isSourceUnder_iff (hitem : items.lookup name = some item) :
    IsSourceUnder filter items name names ↔
      names = [name] ∧ (∃ content modified, item = .file content modified) ∧ EndsIn filter name ∨
        name.toList.head? ≠ some '.' ∧
          ∃ rest, IsSource filter item rest ∧ names = name :: rest := by
  constructor
  · rintro ⟨hsource, rest, rfl⟩
    rcases (isSource_cons_iff hitem).mp hsource with ⟨rfl, hfile⟩ | ⟨hdot, hrest⟩
    · exact .inl ⟨rfl, hfile⟩
    · exact .inr ⟨hdot, rest, hrest, rfl⟩
  · rintro (⟨rfl, hfile⟩ | ⟨hdot, rest, hrest, rfl⟩)
    · exact ⟨(isSource_cons_iff hitem).mpr (.inl ⟨rfl, hfile⟩), [], rfl⟩
    · exact ⟨(isSource_cons_iff hitem).mpr (.inr ⟨hdot, hrest⟩), rest, rfl⟩

lemma exists_part_file {depth : ℕ} {content : Bytes} {modified : Int} (hpath : path ≠ "")
    (hname : IsName name) (hitem : items.lookup name = some (.file content modified))
    (hfind : fs.find (join path name) = .ok (.file content modified)) :
    ∃ part, fs.listed filter depth path name = part.map (below path) ∧
      Lists (IsSourceUnder filter items name) part := by
  have hunder (names : List String) :
      IsSourceUnder filter items name names ↔ names = [name] ∧ EndsIn filter name := by
    rw [isSourceUnder_iff hitem]
    simp [not_isSource_file]
  rw [listed, hfind]
  by_cases hends : EndsIn filter name
  · refine ⟨[[name]], ?_, fun names => ?_, List.pairwise_singleton _ _⟩
    · rw [(hasExtension_join hpath hname).mpr hends]
      rfl
    · simp [hunder, hends]
  · refine ⟨[], ?_, fun names => ?_, List.Pairwise.nil⟩
    · have hextension : ¬ hasExtension filter (join path name) = true :=
        fun h => hends ((hasExtension_join hpath hname).mp h)
      simp [hextension]
    · simp [hunder, hends]

lemma exists_part_folder {depth : ℕ} {inner : List (String × Item)}
    (hitem : items.lookup name = some (.folder inner))
    (hfind : fs.find (join path name) = .ok (.folder inner))
    (hinner : ∃ files, fs.collect filter depth (join path name) =
      files.map (below (join path name)) ∧ Lists (IsSource filter (.folder inner)) files) :
    ∃ part, fs.listed filter depth path name = part.map (below path) ∧
      Lists (IsSourceUnder filter items name) part := by
  have hunder (names : List String) : IsSourceUnder filter items name names ↔
      name.toList.head? ≠ some '.' ∧
        ∃ rest, IsSource filter (.folder inner) rest ∧ names = name :: rest := by
    rw [isSourceUnder_iff hitem]
    simp
  rw [listed, hfind]
  by_cases hdot : name.toList.head? = some '.'
  · refine ⟨[], ?_, fun names => ?_, List.Pairwise.nil⟩
    · simp [isHidden_iff.mpr hdot]
    · simp [hunder, hdot]
  · obtain ⟨files, hfiles, hlists⟩ := hinner
    refine ⟨files.map (name :: ·), ?_, fun names => ?_, ?_⟩
    · rw [if_neg (mt isHidden_iff.mp hdot), hfiles, List.map_map]
      rfl
    · rw [hunder, List.mem_map]
      simp only [hlists.mem_iff, hdot, ne_eq, not_false_eq_true, true_and, eq_comm]
    · exact List.pairwise_map.mpr (hlists.sorted.imp fun h => h.cons name)

lemma Lists.flatMap {part : String → List (List String)} (hnodup : (items.map Prod.fst).Nodup)
    (h : ∀ name ∈ sortedNames items, Lists (IsSourceUnder filter items name) (part name)) :
    Lists (IsSource filter (.folder items)) ((sortedNames items).flatMap part) := by
  refine ⟨fun names => ?_, ?_⟩
  · rw [List.mem_flatMap]
    constructor
    · rintro ⟨name, hname, hpart⟩
      exact (((h name hname).mem_iff names).mp hpart).1
    · intro hsource
      obtain ⟨name, rest, rfl, hmem⟩ := hsource.exists_cons
      have hname := (sortedNames_perm items).mem_iff.mpr hmem
      exact ⟨name, hname, ((h name hname).mem_iff _).mpr ⟨hsource, rest, rfl⟩⟩
  · -- Within an item by its own list; between two items their names, which come first, decide.
    refine List.pairwise_flatMap.mpr
      ⟨fun name hname => (h name hname).sorted, (pairwise_sortedNames hnodup).imp_of_mem ?_⟩
    intro a b ha hb hlt x hx y hy
    obtain ⟨-, rest, rfl⟩ := ((h a ha).mem_iff x).mp hx
    obtain ⟨-, rest', rfl⟩ := ((h b hb).mem_iff y).mp hy
    exact .of_lt hlt rest rest'

lemma Lists.nodup {p : List String → Prop} {files : List (List String)} (h : Lists p files) :
    files.Nodup := by
  apply h.sorted.imp
  rintro a _ hab rfl
  exact Precedes.irrefl a hab

lemma exists_lists (filter : String) {depth : ℕ} (h : Readable fs path (.folder items))
    (hdepth : pathLimit ≤ depth + path.utf8ByteSize) :
    ∃ files, fs.collect filter depth path = files.map (below path) ∧
      Lists (IsSource filter (.folder items)) files := by
  induction depth generalizing path items with
  | zero =>
    have hsize := size_lt_of_find h.found
    omega
  | succ depth ih =>
    obtain ⟨hnodup, hnames⟩ := h.plain_self
    have hpath := ne_empty_of_find h.found
    have hpart : ∀ name ∈ sortedNames items, ∃ part,
        fs.listed filter depth path name = part.map (below path) ∧
          Lists (IsSourceUnder filter items name) part := by
      intro name hsorted
      have hmem := (sortedNames_perm items).mem_iff.mp hsorted
      have hname := hnames name hmem
      obtain ⟨item, hitem⟩ := mem_names_iff.mp hmem
      have hchild := h.child hitem
      cases item with
      | file content modified => exact exists_part_file hpath hname hitem hchild.found
      | folder inner =>
        -- The path gets longer with each name, so the bound on the depth is not reached.
        have hsize := hname.size_join hpath
        exact exists_part_folder hitem hchild.found (ih hchild (by omega))
      | link target => exact hchild.plain_self.elim
      | device d => exact hchild.plain_self.elim
    choose! part hlisted hlists using hpart
    refine ⟨(sortedNames items).flatMap part, ?_, .flatMap hnodup hlists⟩
    rw [collect_folder h.found, List.map_flatMap]
    exact List.flatMap_congr hlisted

/-! ### A walk in the order of names -/

def crossing : FileSystem :=
  ⟨.folder [(".git", .folder [("y.java", .file [] 0)]), ("a", .folder [("x.java", .file [] 0)]),
    ("a-b.java", .file [] 0)], []⟩

lemma find_crossing : crossing.find "." = .ok crossing.root ∧
    crossing.find "./a-b.java" = .ok (.file [] 0) ∧
    crossing.find "./a" = .ok (.folder [("x.java", .file [] 0)]) ∧
    crossing.find "./a/x.java" = .ok (.file [] 0) ∧
    crossing.find "./.git" = .ok (.folder [("y.java", .file [] 0)]) ∧
    crossing.find "./.git/y.java" = .ok (.file [] 0) :=
  ⟨find_of_taken (by decide) rfl rfl, find_of_taken (by decide) rfl rfl,
    find_of_taken (by decide) rfl rfl, find_of_taken (by decide) rfl rfl,
    find_of_taken (by decide) rfl rfl, find_of_taken (by decide) rfl rfl⟩

lemma join_crossing : join "." "a-b.java" = "./a-b.java" ∧ join "." "a" = "./a" ∧
    join "./a" "x.java" = "./a/x.java" ∧ join "." ".git" = "./.git" ∧
    join "./.git" "y.java" = "./.git/y.java" := by decide

lemma readable_crossing : Readable crossing "." crossing.root := by
  obtain ⟨hroot, hfile, ha, hx, hgit, hy⟩ := find_crossing
  obtain ⟨jfile, ja, jx, jgit, jy⟩ := join_crossing
  have hinner : Readable crossing "./a" (.folder [("x.java", .file [] 0)]) :=
    .folder ha ⟨by decide, by decide⟩ (by simpa [jx] using Readable.file hx)
  have hhidden : Readable crossing "./.git" (.folder [("y.java", .file [] 0)]) :=
    .folder hgit ⟨by decide, by decide⟩ (by simpa [jy] using Readable.file hy)
  refine .folder hroot ⟨by decide, by decide⟩ ?_
  simp [jfile, ja, jgit, hinner, hhidden, Readable.file hfile]

lemma walk_crossing : crossing.walk ".java" "." = .ok ["./a/x.java", "./a-b.java"] := by
  obtain ⟨hroot, hfile, ha, hx, hgit, hy⟩ := find_crossing
  obtain ⟨jfile, ja, jx, jgit, jy⟩ := join_crossing
  have hnames : sortedNames [(".git", .folder [("y.java", .file [] 0)]),
      ("a", .folder [("x.java", .file [] 0)]), ("a-b.java", .file [] 0)] =
        [".git", "a", "a-b.java"] := List.mergeSort_of_pairwise (by decide)
  have hinner : sortedNames [("x.java", .file [] 0)] = ["x.java"] :=
    List.mergeSort_of_pairwise (by decide)
  have hends : hasExtension ".java" "./a-b.java" = true := by decide
  have hends' : hasExtension ".java" "./a/x.java" = true := by decide
  have hhidden : isHidden ".git" = true := by decide
  have hshown : isHidden "a" = false := by decide
  have hdepth : pathLimit - 1 = 4094 + 1 := rfl
  rw [walk_items hroot, hdepth, hnames]
  simp [listed, collect_folder ha, jfile, ja, jx, jgit, hfile, ha, hx, hgit, hinner, hends, hends',
    hhidden, hshown]

/-- The walk lists the sources below a folder in the order of the names that lead to them, which is
not the order of their paths; of a file it lists the file or nothing. -/
theorem walk_lists_sources (fs : FileSystem) (filter root : String) :
    (∀ items, Readable fs root (.folder items) →
      ∃ files, fs.walk filter root = .ok (files.map (below root)) ∧
        (files.map (below root)).Nodup ∧ Lists (IsSource filter (.folder items)) files) ∧
    (∀ content modified, fs.find root = .ok (.file content modified) →
      fs.walk filter root = .ok [root] ∧ (∃ name, fileName? root = some name ∧ EndsIn filter name) ∨
        fs.walk filter root = .ok [] ∧ ¬ ∃ name, fileName? root = some name ∧ EndsIn filter name) ∧
    ∃ (fs : FileSystem) (items : List (String × Item)) (p q : String),
      Readable fs "." (.folder items) ∧ fs.walk ".java" "." = .ok [p, q] ∧
        Text.Utf8.encode q < Text.Utf8.encode p := by
  refine ⟨fun items h => ?_, fun content modified h => ?_, ?_⟩
  · have hpath := ne_empty_of_find h.found
    obtain ⟨files, hcollect, hlists⟩ := exists_lists filter h (Nat.le_add_right _ _)
    refine ⟨files, ?_, ?_, hlists⟩
    · rw [walk_folder h.found, hcollect]
    · refine List.Nodup.map_on (fun a ha b hb hab => ?_) hlists.nodup
      have hsource {names : List String} (hmem : names ∈ files) :
          names ≠ [] ∧ ∀ name ∈ names, IsName name := by
        have hsource := (hlists.mem_iff names).mp hmem
        obtain ⟨content, modified, hfile⟩ := hsource.file
        exact ⟨hsource.ne_nil, h.isName_of_at? hfile⟩
      exact below_inj hpath (hsource ha).1 (hsource hb).1 (hsource ha).2 (hsource hb).2 hab
  · have hdepth : pathLimit = 4095 + 1 := rfl
    rw [walk, h]
    dsimp only
    rw [hdepth, collect, h]
    dsimp only
    rw [← hasExtension_iff]
    by_cases hextension : hasExtension filter root = true <;> simp [hextension]
  · exact ⟨crossing, _, "./a/x.java", "./a-b.java", readable_crossing, walk_crossing, by decide⟩

theorem walk_lists_sources_crossing :
    (Readable crossing "." crossing.root ∧
      ∃ files, crossing.walk ".java" "." = .ok (files.map (below ".")) ∧
        (files.map (below ".")).Nodup ∧ Lists (IsSource ".java" crossing.root) files) ∧
    crossing.find "./a-b.java" = .ok (.file [] 0) ∧
      (crossing.walk ".java" "./a-b.java" = .ok ["./a-b.java"] ∧
          (∃ name, fileName? "./a-b.java" = some name ∧ EndsIn ".java" name) ∨
        crossing.walk ".java" "./a-b.java" = .ok [] ∧
          ¬ ∃ name, fileName? "./a-b.java" = some name ∧ EndsIn ".java" name) :=
  ⟨⟨readable_crossing, (walk_lists_sources crossing ".java" ".").1 _ readable_crossing⟩,
    find_crossing.2.1, (walk_lists_sources crossing ".java" "./a-b.java").2.1 _ _ find_crossing.2.1⟩

end SettingCatalog.FileSystem
