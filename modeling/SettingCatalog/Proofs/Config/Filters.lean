import Mathlib.Data.List.DropRight
import Mathlib.Tactic.SplitIfs
import SettingCatalog.Config.Basic
import SettingCatalog.Proofs.Files.Walking

/-! Filters that a configuration accepts, against the files that a walk takes for them. A filter is
brought to a dot and an extension without dots before it; a walk looks for what stands behind the
last dot of a name. -/

namespace SettingCatalog

open FilePath FileSystem

variable {c valid : Config} {fs : FileSystem} {root stem name : String}
  {items : List (String × Item)}

namespace Config

lemma validate_eq_ok (h : c.validate = .ok valid) :
    valid = { c with fileExtension := "." ++ bareExtension c.fileExtension } ∧
      bareExtension c.fileExtension ≠ "" := by
  rw [validate] at h
  split_ifs at h with hsetting hanchor hextension houtput
  split at h
  · split at h
    · exact ⟨(Except.ok.inj h).symm, hextension⟩
    · cases h
  · exact ⟨(Except.ok.inj h).symm, hextension⟩

lemma exists_extension (h : c.validate = .ok valid) :
    ∃ ext, valid.fileExtension.toList = '.' :: ext ∧ ext ≠ [] ∧
      valid.fileExtension.toList.dropWhile (· == '.') = ext := by
  obtain ⟨rfl, hne⟩ := validate_eq_ok h
  obtain ⟨ext, hext⟩ : ∃ ext, ext = (bareExtension c.fileExtension).toList := ⟨_, rfl⟩
  have hdrop : ext.dropWhile (· == '.') = ext := by
    rw [hext, bareExtension, FilePath.bareExtension, String.toList_ofList,
      List.dropWhile_idempotent]
  refine ⟨ext, ?_, ?_, ?_⟩
  · rw [String.toList_append, ← hext]
    rfl
  · rw [hext]
    simpa using hne
  · rw [String.toList_append, ← hext]
    exact hdrop

end Config

namespace FileSystem

lemma endsIn_of_validate (h : c.validate = .ok valid) (hstem : stem ≠ "")
    (hdot : '.' ∉ valid.fileExtension.toList.tail) :
    EndsIn valid.fileExtension (stem ++ valid.fileExtension) := by
  obtain ⟨ext, hfilter, -, hdrop⟩ := Config.exists_extension h
  rw [hfilter] at hdot
  refine ⟨stem.toList, ext, ?_, by simpa using hstem, hdot, hdrop.symm⟩
  rw [String.toList_append, hfilter]

lemma not_endsIn_of_validate (h : c.validate = .ok valid)
    (hdot : '.' ∈ valid.fileExtension.toList.tail) : ¬ EndsIn valid.fileExtension name := by
  obtain ⟨ext, hfilter, -, hdrop⟩ := Config.exists_extension h
  rintro ⟨stem, ext', -, -, hnot, hext⟩
  rw [hfilter] at hdot
  rw [hext, hdrop] at hnot
  exact hnot hdot

lemma isName_of_validate (h : c.validate = .ok valid) (hstem : stem ≠ "")
    (hslash : '/' ∉ stem.toList) (hslash' : '/' ∉ valid.fileExtension.toList) :
    IsName (stem ++ valid.fileExtension) := by
  obtain ⟨ext, hfilter, hne, -⟩ := Config.exists_extension h
  refine isName_append hstem hslash ?_ hslash'
  rw [← String.length_toList, hfilter, List.length_cons]
  have hpos := List.length_pos_iff.mpr hne
  omega

/-- A file with an accepted filter behind a stem is collected from its folder if the filter has one
dot. A filter with another one takes no file at all. -/
theorem collects_accepted {content : Bytes} {modified : Int} (hvalid : c.validate = .ok valid)
    (hstem : stem ≠ "") (hslash : '/' ∉ stem.toList)
    (hslash' : '/' ∉ valid.fileExtension.toList) (hroot : fs.find root = .ok (.folder items))
    (hitem : items.lookup (stem ++ valid.fileExtension) = some (.file content modified)) :
    ∃ files, fs.walk valid.fileExtension root = .ok files ∧
      ('.' ∉ valid.fileExtension.toList.tail →
        join root (stem ++ valid.fileExtension) ∈ files) ∧
      ('.' ∈ valid.fileExtension.toList.tail → files = []) := by
  have hname := isName_of_validate hvalid hstem hslash hslash'
  have hne := ne_empty_of_find hroot
  refine ⟨_, walk_items hroot, fun hdot => ?_, fun hdot => ?_⟩
  · rw [List.mem_flatMap]
    refine ⟨_, (sortedNames_perm items).mem_iff.mpr (mem_names_iff.mpr ⟨_, hitem⟩), ?_⟩
    have hends := (hasExtension_join hne hname).mpr (endsIn_of_validate hvalid hstem hdot)
    rw [listed]
    split
    · -- Where the path leads at all, it leads to the file.
      rename_i inner hinner
      have hfile := find_join hroot hname hitem (by simp) (exists?_iff.mpr ⟨_, hinner⟩)
      rw [hinner] at hfile
      cases hfile
    · rw [hends]
      exact List.mem_singleton_self _
  · rw [List.eq_nil_iff_forall_not_mem]
    intro file hfile
    rw [← collect_folder hroot] at hfile
    obtain ⟨last, -, hends⟩ := hasExtension_iff.mp (mem_collect hfile).1
    exact not_endsIn_of_validate hvalid hdot hends

def lone (name : String) : FileSystem := ⟨.folder [(name, .file [] 0)], []⟩

lemma find_lone (name : String) : (lone name).find "." = .ok (.folder [(name, .file [] 0)]) :=
  find_of_taken (by decide) rfl rfl

theorem collects_accepted_java : Config.standard.validate = .ok .standard ∧
    "A" ≠ "" ∧ '/' ∉ "A".toList ∧ '/' ∉ Config.standard.fileExtension.toList ∧
    (lone "A.java").find "." = .ok (.folder [("A.java", .file [] 0)]) ∧
    '.' ∉ Config.standard.fileExtension.toList.tail ∧
    ∃ files, (lone "A.java").walk Config.standard.fileExtension "." = .ok files ∧
      join "." ("A" ++ Config.standard.fileExtension) ∈ files := by
  have hvalid : Config.standard.validate = .ok .standard := rfl
  have hitem : List.lookup ("A" ++ Config.standard.fileExtension)
      [("A.java", Item.file [] 0)] = some (.file [] 0) := rfl
  obtain ⟨files, hwalk, hmem, -⟩ :=
    collects_accepted hvalid (by decide) (by decide) (by decide) (find_lone "A.java") hitem
  exact ⟨hvalid, by decide, by decide, by decide, find_lone "A.java", by decide, files, hwalk,
    hmem (by decide)⟩

/-- Two dots: the filter is accepted, and its file is not collected. -/
theorem collects_no_archive :
    let valid : Config := { Config.standard with fileExtension := ".tar.gz" }
    ({ Config.standard with fileExtension := "tar.gz" } : Config).validate = .ok valid ∧
      "a" ≠ "" ∧ '/' ∉ "a".toList ∧ '/' ∉ valid.fileExtension.toList ∧
      (lone "a.tar.gz").find "." = .ok (.folder [("a.tar.gz", .file [] 0)]) ∧
      "a.tar.gz" = "a" ++ valid.fileExtension ∧
      (lone "a.tar.gz").walk valid.fileExtension "." = .ok [] := by
  refine ⟨rfl, by decide, by decide, by decide, find_lone "a.tar.gz", rfl, ?_⟩
  have hfile : (lone "a.tar.gz").find "./a.tar.gz" = .ok (.file [] 0) :=
    find_of_taken (by decide) rfl rfl
  have hjoin : join "." "a.tar.gz" = "./a.tar.gz" := by decide
  have hends : hasExtension ".tar.gz" "./a.tar.gz" = false := by decide
  have hnames : sortedNames [("a.tar.gz", .file [] 0)] = ["a.tar.gz"] :=
    List.mergeSort_of_pairwise (by decide)
  rw [walk_items (find_lone "a.tar.gz"), hnames]
  simp [listed, hjoin, hfile, hends]

end FileSystem

end SettingCatalog
