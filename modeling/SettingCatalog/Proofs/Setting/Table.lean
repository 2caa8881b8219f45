import SettingCatalog.Proofs.Setting.Composition
import SettingCatalog.Proofs.Text.Pieces
import SettingCatalog.Run.Pool
import SettingCatalog.Setting.Export

/-! The table of records. It has a line for each record and six columns in each line exactly if no
separator stands in a column. Four columns are escaped and hold none; the location and the flags
stand as they are. Where these hold none either, the records are read back from the table. -/

namespace SettingCatalog

open Text

/-- What the table shows of a record as it is, without what separates lines and columns. -/
def Record.Plain (r : Record) : Prop :=
  ∀ s ∈ r.sourceFile :: r.properties, '\t' ∉ s.toList ∧ '\n' ∉ s.toList

instance (r : Record) : Decidable r.Plain := by
  unfold Record.Plain
  infer_instance

namespace Export

/-! ### Escaped columns -/

def replaceAll (c : Char) (new s : String) : String :=
  String.ofList (s.toList.flatMap fun d => if d = c then new.toList else [d])

def unescapeChars : List Char → List Char
  | '\\' :: '\\' :: cs => '\\' :: unescapeChars cs
  | '\\' :: 't' :: cs => '\t' :: unescapeChars cs
  | '\\' :: 'n' :: cs => '\n' :: unescapeChars cs
  | c :: cs => c :: unescapeChars cs
  | [] => []

def unescape (s : String) : String := String.ofList (unescapeChars s.toList)

lemma toList_escape (s : String) : (escape s).toList = s.toList.flatMap escapeChar := by
  rw [escape, String.toList_ofList]

/-- The backslashes go first: those of the other replacements stay single. -/
lemma escape_eq_replaceAll (s : String) :
    escape s = replaceAll '\n' "\\n" (replaceAll '\t' "\\t" (replaceAll '\\' "\\\\" s)) := by
  simp only [escape, replaceAll, String.toList_ofList, List.flatMap_assoc]
  congr 1
  refine List.flatMap_congr fun c _ => ?_
  unfold escapeChar
  split
  · simp
  · split
    · simp_all
    · split <;> simp_all

lemma unescapeChars_cons {c : Char} (h : c ≠ '\\') (cs : List Char) :
    unescapeChars (c :: cs) = c :: unescapeChars cs := by
  rw [unescapeChars]
  all_goals exact fun _ hc => absurd hc h

lemma unescapeChars_flatMap (cs : List Char) : unescapeChars (cs.flatMap escapeChar) = cs := by
  induction cs with
  | nil => rfl
  | cons c cs ih =>
    rw [List.flatMap_cons, escapeChar]
    split
    · simp_all [unescapeChars]
    · split
      · simp_all [unescapeChars]
      · split
        · simp_all [unescapeChars]
        · rw [List.singleton_append, unescapeChars_cons ‹_›, ih]

lemma unescape_escape (s : String) : unescape (escape s) = s := by
  rw [unescape, toList_escape, unescapeChars_flatMap, String.ofList_toList]

def IsSeparator (x : Char) : Prop := x = '\t' ∨ x = '\n'

lemma not_mem_escapeChar {x : Char} (hx : IsSeparator x) (c : Char) : x ∉ escapeChar c := by
  unfold escapeChar
  split
  · rcases hx with rfl | rfl <;> decide
  · split
    · rcases hx with rfl | rfl <;> decide
    · split
      · rcases hx with rfl | rfl <;> decide
      · rename_i htab hfeed
        rw [List.mem_singleton]
        rintro rfl
        exact hx.elim htab hfeed

lemma not_mem_escape {x : Char} (hx : IsSeparator x) (s : String) : x ∉ (escape s).toList := by
  rw [toList_escape, List.mem_flatMap]
  rintro ⟨c, -, hc⟩
  exact not_mem_escapeChar hx c hc

/-! ### Separators in columns -/

lemma not_mem_location {x : Char} (hx : IsSeparator x) (r : Record) :
    x ∉ (r.sourceFile ++ ":" ++ toString r.sourceLine.toNat).toList ↔ x ∉ r.sourceFile.toList := by
  have hdigits : x ∉ Nat.toDigits 10 r.sourceLine.toNat := by
    intro h
    have hdigit := Nat.isDigit_of_mem_toDigits (by decide) (by decide) h
    rcases hx with rfl | rfl <;> cases hdigit
  have hcolon : x ≠ ':' := by rcases hx with rfl | rfl <;> decide
  simp [hdigits, hcolon]

lemma not_mem_flags {x : Char} (hx : IsSeparator x) (r : Record) :
    x ∉ (joinTexts "," r.properties).toList ↔ ∀ s ∈ r.properties, x ∉ s.toList := by
  have hcomma : x ≠ ',' := by rcases hx with rfl | rfl <;> decide
  cases hr : r.properties with
  | nil => simp [joinTexts]
  | cons s ss =>
    change x ∉ (joinTexts (String.singleton ',') (s :: ss)).toList ↔ _
    rw [toList_joinTexts, mem_intercalate (by simp) hcomma]
    simp

lemma columns_lack_iff {x : Char} (hx : IsSeparator x) (r : Record) :
    (∀ s ∈ columns r, x ∉ s.toList) ↔ ∀ s ∈ r.sourceFile :: r.properties, x ∉ s.toList := by
  simp only [columns, List.forall_mem_cons, List.not_mem_nil, false_imp_iff, implies_true, and_true,
    not_mem_location hx, not_mem_flags hx, not_mem_escape hx, not_false_eq_true, true_and]

def row (cells : List String) : List Char := ['\t'].intercalate (cells.map String.toList)

def rows (records : List Record) : List (List Char) := (header :: records.map columns).map row

lemma toList_table (records : List Record) :
    (table records).toList = (rows records).flatMap (· ++ ['\n']) := by
  have hrow (cells : List String) :
      (joinTexts "\t" cells ++ "\n").toList = row cells ++ ['\n'] := by
    change (joinTexts (String.singleton '\t') cells ++ "\n").toList = _
    rw [String.toList_append, toList_joinTexts]
    rfl
  rw [table, lines, rows, String.toList_join, List.map_map, List.flatMap_map, List.flatMap_map]
  exact List.flatMap_congr fun cells _ => hrow cells

lemma row_shape_iff {cells : List String} (hne : cells ≠ []) :
    ('\n' ∉ row cells ∧ ((row cells).splitOn '\t').length = cells.length) ↔
      ∀ s ∈ cells, '\t' ∉ s.toList ∧ '\n' ∉ s.toList := by
  have hmap : cells.map String.toList ≠ [] := by simpa using hne
  have htab := length_splitOn_intercalate (x := '\t') hmap
  rw [List.length_map] at htab
  rw [row, htab, mem_intercalate hmap (by decide)]
  simp only [List.mem_map, forall_exists_index, and_imp, forall_apply_eq_imp_iff₂,
    exists_exists_and_eq_and, not_exists, not_and]
  exact ⟨fun h s hs => ⟨h.2 s hs, h.1 s hs⟩,
    fun h => ⟨fun s hs => (h s hs).2, fun s hs => (h s hs).1⟩⟩

lemma columns_plain_iff (r : Record) :
    (∀ s ∈ columns r, '\t' ∉ s.toList ∧ '\n' ∉ s.toList) ↔ r.Plain := by
  rw [Record.Plain]
  simp only [forall_and]
  rw [columns_lack_iff (.inl rfl), columns_lack_iff (.inr rfl)]

lemma rows_shape_iff (records : List Record) :
    (∀ l ∈ rows records, '\n' ∉ l ∧ (l.splitOn '\t').length = 6) ↔ ∀ r ∈ records, r.Plain := by
  have hheader : '\n' ∉ row header ∧ ((row header).splitOn '\t').length = 6 :=
    (row_shape_iff (by decide)).mpr (by decide)
  have hrecord (r : Record) :
      ('\n' ∉ row (columns r) ∧ ((row (columns r)).splitOn '\t').length = 6) ↔ r.Plain :=
    (row_shape_iff (by simp [columns])).trans (columns_plain_iff r)
  simp only [rows, List.map_cons, List.map_map, List.forall_mem_cons, List.forall_mem_map,
    Function.comp_apply, hrecord, hheader, true_and, not_false_eq_true]

/-- So many lines, each ended by a line feed, and six columns in each of them. -/
def WellFormed (text : String) (n : ℕ) : Prop :=
  ∃ ls : List (List Char), ls.length = n ∧ text.toList = ls.flatMap (· ++ ['\n']) ∧
    ∀ l ∈ ls, '\n' ∉ l ∧ (l.splitOn '\t').length = 6

lemma splitOn_lines {ls : List (List Char)} (h : ∀ l ∈ ls, '\n' ∉ l) :
    (ls.flatMap (· ++ ['\n'])).splitOn '\n' = ls ++ [[]] := by
  rw [flatMap_ended]
  apply List.splitOn_intercalate
  · simpa [or_imp, forall_and] using h
  · simp

lemma rows_eq_of_wellFormed {records : List Record} {ls : List (List Char)}
    (hlen : ls.length = records.length + 1)
    (htext : (table records).toList = ls.flatMap (· ++ ['\n'])) (h : ∀ l ∈ ls, '\n' ∉ l) :
    rows records = ls := by
  have hsplit : ((rows records).flatMap (· ++ ['\n'])).splitOn '\n' = ls ++ [[]] := by
    rw [← toList_table, htext, splitOn_lines h]
  -- There are no more line feeds than lines, so none stands within a row.
  have hrows : ∀ l ∈ rows records, '\n' ∉ l := by
    have hne : rows records ++ [[]] ≠ [] := by simp
    have hlength := length_splitOn_intercalate (x := '\n') hne
    rw [← flatMap_ended, hsplit] at hlength
    intro l hl
    exact hlength.mp (by simp [rows, hlen]) l (by simp [hl])
  rw [splitOn_lines hrows] at hsplit
  exact List.append_cancel_right hsplit

lemma WellFormed.plain {records : List Record}
    (h : WellFormed (render .text records) (records.length + 1)) : ∀ r ∈ records, r.Plain := by
  obtain ⟨ls, hlen, htext, hls⟩ := h
  obtain rfl := rows_eq_of_wellFormed hlen htext fun l hl => (hls l hl).1
  exact (rows_shape_iff records).mp hls

/-- The table has a line for each record and the header, and six columns in each line, exactly if
the source files and the flags of the records hold no separator. -/
theorem wellFormed_iff_plain (records : List Record) :
    WellFormed (render .text records) (records.length + 1) ↔ ∀ r ∈ records, r.Plain := by
  refine ⟨WellFormed.plain, fun h => ⟨rows records, ?_, toList_table records, ?_⟩⟩
  · rw [rows, List.length_map, List.length_cons, List.length_map]
  · exact (rows_shape_iff records).mpr h

def rateTree : Node :=
  Structural.declaration [Structural.initialized "RATE" Vocabulary.instanceCreation
    [Structural.word "StringLiteral" "a.rate", Structural.word Vocabulary.numberLiteral "1",
      Structural.word Vocabulary.numberLiteral "2"]]

/-- A tab in the name of a file gives the line of its record a column too many. -/
theorem run_tab_in_file_name :
    let job : Job := ⟨Extractor.standard, "", false⟩
    let build : ℕ → Except (List String) Unit := fun _ => .ok ()
    let source : TreeSource Unit := fun _ s => (.ok rateTree, s)
    ∃ report, (job.run build source 1 [] ["A\tB.java"] ()).1 = .ok report ∧
      ¬ WellFormed (render .text report.records) (report.records.length + 1) := by
  intro job build source
  have hpath : FilePath.sourcePath "" "A\tB.java" = "A\tB.java" := by decide +kernel
  have hextract : Extractor.standard.extract rateTree "A\tB.java" =
      ⟨[⟨"a.rate", "RATE", "Integer", [], "1", 0, "A\tB.java"⟩], []⟩ := by
    simp only [Structural.extract_eq_ofResults, Structural.candidate_eq]
    decide +kernel
  have hrun : (job.run build source 1 [] ["A\tB.java"] ()).1 =
      .ok ⟨[⟨"a.rate", "RATE", "Integer", [], "1", 0, "A\tB.java"⟩], [], [], 1⟩ := by
    simp only [job, source, Job.run, Job.sequential, Job.outcome, Except.map, hpath, hextract]
    rfl
  refine ⟨_, hrun, fun h => ?_⟩
  have hplain := h.plain _ List.mem_cons_self
  revert hplain
  decide

/-! ### Reading the table -/

structure Row where
  name : String
  rawName : String
  valueType : String
  defaultValue : String
  sourceFile : String
  sourceLine : ℕ
  flags : String
deriving DecidableEq, Repr

def Row.ofRecord (r : Record) : Row :=
  ⟨r.name, r.rawName, r.valueType, r.defaultValue, r.sourceFile, r.sourceLine.toNat,
    joinTexts "," r.properties⟩

def readLocation? (cs : List Char) : Option (String × ℕ) :=
  match cs.reverse.dropWhile (· != ':') with
  | [] => none
  | _ :: file =>
    some (.ofList file.reverse, Nat.ofDigitChars 10 (cs.reverse.takeWhile (· != ':')).reverse 0)

def readRow? : List (List Char) → Option Row
  | [location, name, rawName, type, default, flags] =>
    (readLocation? location).map fun (file, line) =>
      ⟨.ofList (unescapeChars name), .ofList (unescapeChars rawName),
        .ofList (unescapeChars type), .ofList (unescapeChars default), file, line, .ofList flags⟩
  | _ => none

def readTable (text : String) : List (Option Row) :=
  ((text.toList.splitOn '\n').dropLast.tail).map fun l => readRow? (l.splitOn '\t')

lemma readLocation?_location (file : String) (n : ℕ) :
    readLocation? (file ++ ":" ++ toString n).toList = some (file, n) := by
  have hdigits : ∀ c ∈ (Nat.toDigits 10 n).reverse, (c != ':') = true := by
    intro c hc
    have hdigit := Nat.isDigit_of_mem_toDigits (by decide) (by decide) (List.mem_reverse.mp hc)
    rw [bne_iff_ne]
    rintro rfl
    cases hdigit
  have hreverse : (file ++ ":" ++ toString n).toList.reverse =
      (Nat.toDigits 10 n).reverse ++ ':' :: file.toList.reverse := by simp
  rw [readLocation?, hreverse, List.dropWhile_append_of_pos hdigits,
    List.takeWhile_append_of_pos hdigits]
  simp

lemma readRow?_columns (r : Record) :
    readRow? ((columns r).map String.toList) = some (Row.ofRecord r) := by
  have unescaped (s : String) : String.ofList (unescapeChars (escape s).toList) = s :=
    unescape_escape s
  simp only [columns, List.map_cons, List.map_nil, readRow?, readLocation?_location,
    Option.map_some, unescaped, String.ofList_toList, Row.ofRecord]

/-- Escaping is three replacements one after the other, and it is undone. Where the source files
and the flags hold no separator, the table gives every record back but the parting of its flags. -/
theorem table_reads_back :
    (∀ s, escape s = replaceAll '\n' "\\n" (replaceAll '\t' "\\t" (replaceAll '\\' "\\\\" s))) ∧
    (∀ s, unescape (escape s) = s) ∧
    (∀ s, '\t' ∉ (escape s).toList ∧ '\n' ∉ (escape s).toList) ∧
    ∀ records : List Record, (∀ r ∈ records, r.Plain) →
      readTable (render .text records) = records.map fun r => some (Row.ofRecord r) := by
  refine ⟨escape_eq_replaceAll, unescape_escape,
    fun s => ⟨not_mem_escape (.inl rfl) s, not_mem_escape (.inr rfl) s⟩, fun records h => ?_⟩
  have hshape := (rows_shape_iff records).mpr h
  have hread : ∀ r ∈ records,
      readRow? ((row (columns r)).splitOn '\t') = some (Row.ofRecord r) := by
    intro r hr
    have hcolumns := (columns_plain_iff r).mpr (h r hr)
    rw [row, List.splitOn_intercalate, readRow?_columns]
    · simpa using fun s hs => (hcolumns s hs).1
    · simp [columns]
  rw [readTable, render, toList_table, splitOn_lines fun l hl => (hshape l hl).1,
    List.dropLast_concat, rows, List.map_cons, List.tail_cons, List.map_map, List.map_map]
  exact List.map_congr_left hread

/-- A file with a colon in its name, and columns that hold tabs as well as what stands for them. -/
theorem table_reads_back_escaped :
    let r : Record := ⟨"a\tb", "A\\tB", "Map\n", ["Final", "a,b"], "\\", 7, "x:1/A.java"⟩
    (∀ r' ∈ [r], r'.Plain) ∧ readTable (render .text [r]) = [some (Row.ofRecord r)] := by
  intro r
  have hplain : ∀ r' ∈ [r], r'.Plain := by decide
  exact ⟨hplain, table_reads_back.2.2.2 [r] hplain⟩

end Export

end SettingCatalog
