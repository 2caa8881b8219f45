import Mathlib.Data.List.Flatten
import Mathlib.Data.List.Perm.Basic
import SettingCatalog.Proofs.Setting.Variables

/-! Extraction part by part. A node that is no field declaration adds nothing of its own, so a tree
gives what its subtrees give, one after the other, however deep they stand. -/

namespace SettingCatalog

open Vocabulary

namespace Extraction

def ofResults (results : List (Except Diagnostic Record)) : Extraction where
  records := results.filterMap Except.toOption
  diagnostics := results.filterMap fun r => match r with
    | .ok _ => none
    | .error d => some d

def join (parts : List Extraction) : Extraction :=
  ⟨parts.flatMap records, parts.flatMap diagnostics⟩

lemma ofResults_append (r s : List (Except Diagnostic Record)) :
    ofResults (r ++ s) = join [ofResults r, ofResults s] := by
  simp [ofResults, join]

lemma ofResults_flatMap {α : Type} (results : α → List (Except Diagnostic Record)) (as : List α) :
    ofResults (as.flatMap results) = join (as.map fun a => ofResults (results a)) := by
  simp [ofResults, join, List.filterMap_flatMap, List.flatMap_map]

lemma join_cons (e : Extraction) (parts : List Extraction) :
    join (e :: parts) = join [e, join parts] := by
  simp [join]

lemma join_singleton (e : Extraction) : join [e] = e := by
  simp [join]

end Extraction

namespace Structural

open Extraction Query

variable (x : Extractor) (file : String)

lemma extract_eq_ofResults (root : Node) :
    x.extract root file =
      ofResults ((nodesWhere [declares x.settingType] root).map (x.extractCandidate · file)) := by
  rw [Extractor.extract, (asks_candidates x).select_eq]
  rfl

def own (n : Node) : Extraction :=
  ofResults (if declares x.settingType n then [x.extractCandidate n file] else [])

lemma extract_node (n : Node) :
    x.extract n file = join (own x file n :: n.children.map (x.extract · file)) := by
  have hown : (if declares x.settingType n then [n] else []).map (x.extractCandidate · file) =
      if declares x.settingType n then [x.extractCandidate n file] else [] := by
    split <;> rfl
  have hchildren : n.children.map (x.extract · file) = n.children.map fun m =>
      ofResults ((nodesWhere [declares x.settingType] m).map (x.extractCandidate · file)) :=
    List.map_congr_left fun m _ => extract_eq_ofResults x file m
  rw [extract_eq_ofResults, nodesWhere_single, List.map_append, hown, List.map_flatMap,
    ofResults_append, ofResults_flatMap, ← hchildren, ← own, ← join_cons]

lemma own_of_not_field {n : Node} (hn : n.tag ≠ fieldDeclaration) : own x file n = ⟨[], []⟩ := by
  have hdeclares : declares x.settingType n = false := by
    simp [declares, tagged, hn]
  rw [own, hdeclares]
  rfl

lemma extract_of_not_field {n : Node} (hn : n.tag ≠ fieldDeclaration) :
    x.extract n file = join (n.children.map (x.extract · file)) := by
  rw [extract_node, own_of_not_field x file hn]
  rfl

lemma records_of_not_field {n : Node} (hn : n.tag ≠ fieldDeclaration) :
    (x.extract n file).records = n.children.flatMap fun m => (x.extract m file).records := by
  rw [extract_of_not_field x file hn]
  exact List.flatMap_map ..

lemma diagnostics_of_not_field {n : Node} (hn : n.tag ≠ fieldDeclaration) :
    (x.extract n file).diagnostics =
      n.children.flatMap fun m => (x.extract m file).diagnostics := by
  rw [extract_of_not_field x file hn]
  exact List.flatMap_map ..

/-! ### Trees around a tree -/

structure Frame where
  node : Node
  before : List Node
  after : List Node
  not_field : node.tag ≠ fieldDeclaration

def Frame.around (f : Frame) (n : Node) : Node :=
  { f.node with children := f.before ++ n :: f.after }

/-- The tree inside the frames, the innermost first. -/
def enclose : List Frame → Node → Node
  | [], n => n
  | f :: frames, n => enclose frames (f.around n)

/-- The subtrees that hang off the way down to the tree, with the tree in its place. -/
def alongside (frames : List Frame) (n : Node) : List Node :=
  frames.reverse.flatMap Frame.before ++ n :: frames.flatMap Frame.after

lemma alongside_cons (f : Frame) (frames : List Frame) (n : Node) :
    alongside (f :: frames) n =
      frames.reverse.flatMap Frame.before ++ (f.around n).children ++
        frames.flatMap Frame.after := by
  simp [alongside, Frame.around]

lemma extract_enclose (frames : List Frame) (n : Node) :
    x.extract (enclose frames n) file = join ((alongside frames n).map (x.extract · file)) := by
  induction frames generalizing n with
  | nil => exact (join_singleton _).symm
  | cons f frames ih =>
    have hgap : x.extract (f.around n) file =
        join ((f.around n).children.map (x.extract · file)) :=
      extract_of_not_field x file f.not_field
    rw [enclose, ih, alongside_cons, alongside, List.map_append, List.map_cons, hgap,
      List.map_append, List.map_append]
    simp [join]

/-- A node that is no field declaration gives what its children give, in their order. So a tree
gives the same at any depth, and children that are reordered or dropped take with them what they
give and nothing else. -/
theorem extract_part_by_part {w : Node} (hw : w.tag ≠ fieldDeclaration) :
    (x.extract w file).records = (w.children.flatMap fun n => (x.extract n file).records) ∧
    (x.extract w file).diagnostics = (w.children.flatMap fun n => (x.extract n file).diagnostics) ∧
    (∀ frames n, x.extract (enclose frames n) file =
      join ((alongside frames n).map (x.extract · file))) ∧
    ∀ ns : List Node,
      let e := x.extract { w with children := ns } file
      e = join (ns.map (x.extract · file)) ∧
      (ns.Perm w.children → e.records.Perm (x.extract w file).records ∧
        e.diagnostics.Perm (x.extract w file).diagnostics) ∧
      (ns.Sublist w.children → e.records.Sublist (x.extract w file).records ∧
        e.diagnostics.Sublist (x.extract w file).diagnostics) := by
  have hrecords := records_of_not_field x file hw
  have hdiagnostics := diagnostics_of_not_field x file hw
  refine ⟨hrecords, hdiagnostics, extract_enclose x file, ?_⟩
  intro ns e
  have hns : ({ w with children := ns } : Node).tag ≠ fieldDeclaration := hw
  have hrecords' : e.records = _ := records_of_not_field x file hns
  have hdiagnostics' : e.diagnostics = _ := diagnostics_of_not_field x file hns
  rw [hrecords, hdiagnostics, hrecords', hdiagnostics']
  refine ⟨extract_of_not_field x file hns, fun hperm => ?_, fun hsub => ?_⟩
  · exact ⟨hperm.flatMap_right _, hperm.flatMap_right _⟩
  · exact ⟨hsub.flatMap _, hsub.flatMap _⟩

def twoVariables : Node :=
  branch "TypeDeclaration" [declaration [constructed "A" "a.key"], declaration [uninitialized "B"]]

theorem extract_twoVariables :
    let x := Extractor.standard
    twoVariables.tag ≠ fieldDeclaration ∧
      (x.extract twoVariables "Pair.java").records =
        (x.extract (declaration [constructed "A" "a.key"]) "Pair.java").records ++
          (x.extract (declaration [uninitialized "B"]) "Pair.java").records ∧
      (x.extract twoVariables "Pair.java").diagnostics =
        (x.extract (declaration [constructed "A" "a.key"]) "Pair.java").diagnostics ++
          (x.extract (declaration [uninitialized "B"]) "Pair.java").diagnostics := by
  have hw : twoVariables.tag ≠ fieldDeclaration := by decide
  obtain ⟨hrecords, hdiagnostics, -⟩ := extract_part_by_part .standard "Pair.java" hw
  exact ⟨hw, by simpa [twoVariables, branch, Node.withChildren, Node.ofTag] using hrecords,
    by simpa [twoVariables, branch, Node.withChildren, Node.ofTag] using hdiagnostics⟩

end Structural

end SettingCatalog
