import Mathlib.Data.List.DropRight
import SettingCatalog.Proofs.Files.Paths
import SettingCatalog.Proofs.Text.Pieces
import SettingCatalog.Source.Stored

/-! Paths as seen from a base. Where the components of a path begin with those of the base, what is
left has the others; where the path was made by joining names to the base, it is these names. -/

namespace SettingCatalog.FilePath

variable {base file p s : String} {names segs idle : List String} {cs : List Component}

/-! ### Paths made of segments -/

lemma splitChars_lacks {separator : Char} {pending : List Char} (hpending : separator ∉ pending)
    (cs : List Char) : ∀ piece ∈ splitChars separator pending cs, separator ∉ piece := by
  induction cs generalizing pending with
  | nil => simpa [splitChars] using hpending
  | cons c cs ih =>
    rw [splitChars]
    split
    · rw [List.forall_mem_cons]
      exact ⟨by simpa using hpending, ih List.not_mem_nil⟩
    · rename_i hc
      refine ih ?_
      rw [List.mem_cons, not_or]
      exact ⟨Ne.symm hc, hpending⟩

lemma segments_lack (p : String) : ∀ s ∈ segments p, '/' ∉ s.toList := by
  intro s hs
  obtain ⟨piece, hpiece, rfl⟩ := List.mem_map.mp hs
  rw [String.toList_ofList]
  exact splitChars_lacks List.not_mem_nil p.toList piece hpiece

lemma segments_ofSegments (hne : segs ≠ []) (h : ∀ s ∈ segs, '/' ∉ s.toList) :
    segments (ofSegments segs) = segs := by
  induction segs with
  | nil => exact absurd rfl hne
  | cons s segs ih =>
    rw [List.forall_mem_cons] at h
    cases segs with
    | nil =>
      change segments s = [s]
      rw [segments, splitChars_of_not_mem h.1]
      simp
    | cons t segs =>
      change segments (s ++ "/" ++ ofSegments (t :: segs)) = _
      rw [segments_append, ih (List.cons_ne_nil t segs) h.2, segments, splitChars_of_not_mem h.1]
      simp

lemma isAbsolute_of_segments (h : segments p = s :: segs) (hs : s ≠ "") :
    isAbsolute p = false := by
  rw [isAbsolute, beq_eq_false_iff_ne]
  intro hslash
  obtain ⟨cs, hcs⟩ := List.head?_eq_some_iff.mp hslash
  rw [segments, hcs] at h
  exact hs (List.cons.inj h).1.symm

lemma anchor_ofSegments (hs : s ≠ "") (h : ∀ t ∈ s :: segs, '/' ∉ t.toList) :
    anchor (ofSegments (s :: segs)) =
      if s = "." then (some .current, segs) else (none, s :: segs) := by
  have hsegments := segments_ofSegments (List.cons_ne_nil s segs) h
  rw [anchor_eq hsegments, isAbsolute_of_segments hsegments hs]
  rfl

lemma ofSegments_segments (p : String) : ofSegments (segments p) = p := by
  have hjoin (pending cs : List Char) :
      ['/'].intercalate (splitChars '/' pending cs) = pending.reverse ++ cs := by
    induction cs generalizing pending with
    | nil => simp [splitChars]
    | cons c cs ih =>
      rw [splitChars]
      split
      · rename_i hc
        obtain ⟨piece, pieces, hpieces⟩ : ∃ piece pieces, splitChars '/' [] cs = piece :: pieces :=
          List.exists_cons_of_ne_nil (splitChars_ne_nil _ _)
        rw [hpieces, List.intercalate_cons_cons, ← hpieces, ih, hc]
        simp
      · rw [ih]
        simp
  apply String.toList_inj.mp
  have hslash : "/" = String.singleton '/' := rfl
  rw [ofSegments, hslash, Text.toList_joinTexts, segments, List.map_map]
  simpa [Function.comp_def] using hjoin [] p.toList

lemma eq_empty_of_segments (h : segments p = "" :: segs) (hp : isAbsolute p = false) : p = "" := by
  cases segs with
  | nil => rw [← ofSegments_segments p, h]; rfl
  | cons s segs =>
    have habsolute : isAbsolute (ofSegments ("" :: s :: segs)) = true := by
      simp [isAbsolute, ofSegments, Text.joinTexts]
    rw [← h, ofSegments_segments, hp] at habsolute
    cases habsolute

/-! ### Segments without idle ones -/

lemma isIdle_iff : isIdle s = true ↔ s = "" ∨ s = "." := by
  rw [isIdle, Bool.or_eq_true, beq_iff_eq, beq_iff_eq]

lemma component?_eq_none_iff : component? s = none ↔ isIdle s = true := by
  rw [component?]
  split_ifs with hidle hup
  · simp [hidle]
  · simp [hidle]
  · simp [hidle]

lemma trimEnd_append (segs : List String) : trimEnd segs ++ segs.rtakeWhile isIdle = segs :=
  List.rdropWhile_append_rtakeWhile

lemma mem_of_mem_trimEnd (h : s ∈ trimEnd segs) : s ∈ segs :=
  (List.rdropWhile_prefix isIdle segs).mem h

lemma mem_of_mem_trimSegments (h : s ∈ trimSegments segs) : s ∈ segs :=
  (List.dropWhile_sublist isIdle).mem (mem_of_mem_trimEnd h)

lemma filterMap_trimEnd (segs : List String) :
    (trimEnd segs).filterMap component? = segs.filterMap component? := by
  have hend : (segs.rtakeWhile isIdle).filterMap component? = [] :=
    filterMap_component?_of_idle fun s hs => List.mem_rtakeWhile_imp hs
  conv_rhs => rw [← trimEnd_append segs, List.filterMap_append, hend, List.append_nil]

lemma filterMap_trimSegments (segs : List String) :
    (trimSegments segs).filterMap component? = segs.filterMap component? := by
  have hfront : (segs.takeWhile isIdle).filterMap component? = [] :=
    filterMap_component?_of_idle fun s hs => List.mem_takeWhile_imp hs
  rw [trimSegments, filterMap_trimEnd]
  conv_rhs => rw [← List.takeWhile_append_dropWhile (p := isIdle) (l := segs),
    List.filterMap_append, hfront, List.nil_append]

lemma head_of_trimEnd {rest : List String} (h : trimEnd segs = s :: rest) :
    segs.head? = some s := by
  rw [← trimEnd_append segs, h]
  rfl

lemma not_idle_of_trimSegments {rest : List String} (h : trimSegments segs = s :: rest) :
    isIdle s = false := by
  have hnot := List.head?_dropWhile_not isIdle segs
  rw [head_of_trimEnd h] at hnot
  simpa using hnot

lemma trimSegments_append (hidle : ∀ s ∈ idle, isIdle s = true) :
    trimSegments (idle ++ segs) = trimSegments segs := by
  rw [trimSegments, List.dropWhile_append_of_pos hidle, trimSegments]

lemma trimEnd_names (h : ∀ name ∈ names, IsName name) : trimEnd names = names := by
  apply List.rdropWhile_eq_self_iff.mpr
  intro hne
  simp [(h _ (List.getLast_mem hne)).not_idle]

lemma trimSegments_names (h : ∀ name ∈ names, IsName name) : trimSegments names = names := by
  have hdrop : names.dropWhile isIdle = names := by
    rw [List.dropWhile_eq_self_iff]
    intro hpos
    simp [(h _ (List.getElem_mem hpos)).not_idle]
  rw [trimSegments, hdrop, trimEnd_names h]

lemma components_trimSegments (h : ∀ s ∈ segs, '/' ∉ s.toList) :
    components (ofSegments (trimSegments segs)) = segs.filterMap component? := by
  rw [← filterMap_trimSegments]
  cases htrim : trimSegments segs with
  | nil => rfl
  | cons s rest =>
    have hs := not_idle_of_trimSegments htrim
    rw [← Bool.not_eq_true, isIdle_iff, not_or] at hs
    have hlack : ∀ t ∈ s :: rest, '/' ∉ t.toList := fun t ht =>
      h t (mem_of_mem_trimSegments (htrim ▸ ht))
    rw [components, anchor_ofSegments hs.1 hlack, if_neg hs.2]
    rfl

/-! ### What is left behind a base -/

lemma components_empty : components "" = [] := rfl

lemma components_ne_nil (hp : p ≠ "") : components p ≠ [] := by
  obtain ⟨s, segs, hsegments⟩ := List.exists_cons_of_ne_nil (segments_ne_nil p)
  rw [components, anchor_eq hsegments]
  split_ifs with habsolute hdot
  · simp
  · simp
  · have hs : s ≠ "" := by
      rintro rfl
      exact hp (eq_empty_of_segments hsegments (by simpa using habsolute))
    have hidle : isIdle s = false := by
      rw [← Bool.not_eq_true, isIdle_iff, not_or]
      exact ⟨hs, hdot⟩
    rw [List.filterMap_cons, component?, hidle]
    by_cases hup : s = ".." <;> simp [hup]

lemma filterMap_segments_ofSegments (h : ∀ s ∈ segs, '/' ∉ s.toList) :
    (segments (ofSegments segs)).filterMap component? = segs.filterMap component? := by
  cases segs with
  | nil => rfl
  | cons s segs => rw [segments_ofSegments (List.cons_ne_nil s segs) h]

lemma components_withoutTail (p : String) : components (withoutTail p) = components p := by
  obtain ⟨s, segs, hsegments⟩ := List.exists_cons_of_ne_nil (segments_ne_nil p)
  have hlack := segments_lack p
  rw [hsegments] at hlack
  have hlack' : ∀ t ∈ trimEnd segs, '/' ∉ t.toList := fun t ht =>
    hlack t (List.mem_cons_of_mem s (mem_of_mem_trimEnd ht))
  rw [components.eq_def p, withoutTail, anchor_eq hsegments]
  split_ifs with habsolute hdot
  · have hslash : segments ("/" ++ ofSegments (trimEnd segs)) =
        "" :: segments (ofSegments (trimEnd segs)) := segments_append "" _
    have hroot : isAbsolute ("/" ++ ofSegments (trimEnd segs)) = true := by simp [isAbsolute]
    rw [components, anchor_eq hslash, if_pos hroot]
    dsimp only
    rw [filterMap_segments_ofSegments hlack', filterMap_trimEnd]
  · have hanchor : anchor (ofSegments ("." :: trimEnd segs)) = _ :=
      anchor_ofSegments (by decide) (List.forall_mem_cons.mpr ⟨by decide, hlack'⟩)
    rw [components, hanchor, if_pos rfl]
    dsimp only
    rw [filterMap_trimEnd]
  · dsimp only
    rw [← filterMap_trimEnd (s :: segs)]
    cases htrim : trimEnd (s :: segs) with
    | nil => rfl
    | cons t rest =>
      obtain rfl : s = t := Option.some.inj (head_of_trimEnd htrim)
      have hs : s ≠ "" := by
        rintro rfl
        obtain rfl := eq_empty_of_segments hsegments (by simpa using habsolute)
        obtain rfl : segs = [] := (List.cons.inj hsegments).2.symm
        cases htrim
      rw [components, anchor_ofSegments hs fun t ht => hlack t (mem_of_mem_trimEnd (htrim ▸ ht)),
        if_neg hdot]

/-- Segments that give components are stripped by these, up to idle ones behind the last of them. -/
lemma stripSegments_append (front segs : List String) :
    ∃ idle, (∀ s ∈ idle, isIdle s = true) ∧
      stripSegments (front.filterMap component?) (front ++ segs) = some (idle ++ segs) := by
  induction front with
  | nil => exact ⟨[], by simp, by simp [stripSegments]⟩
  | cons s front ih =>
    obtain ⟨idle, hidle, hstrip⟩ := ih
    cases hs : component? s with
    | none =>
      rw [List.filterMap_cons_none hs, List.cons_append]
      cases hfront : front.filterMap component? with
      | nil =>
        refine ⟨s :: front, ?_, by rw [stripSegments, List.cons_append]⟩
        rw [List.forall_mem_cons]
        exact ⟨component?_eq_none_iff.mp hs, fun t ht =>
          component?_eq_none_iff.mp (List.filterMap_eq_nil_iff.mp hfront t ht)⟩
      | cons c cs =>
        refine ⟨idle, hidle, ?_⟩
        rw [stripSegments, hs]
        exact hfront ▸ hstrip
    | some d =>
      refine ⟨idle, hidle, ?_⟩
      rw [List.filterMap_cons_some hs, List.cons_append, stripSegments, hs]
      simpa using hstrip

lemma relativeTo?_of_anchor {first : Option Component} {front : List String} (hbase : base ≠ "")
    (hcomponents : components base = first.toList ++ front.filterMap component?)
    (hanchor : anchor file = (first, front ++ segs)) :
    relativeTo? base file = some (ofSegments (trimSegments segs)) := by
  obtain ⟨idle, hidle, hstrip⟩ := stripSegments_append front segs
  have hne := components_ne_nil hbase
  rw [hcomponents] at hne
  rw [relativeTo?, hcomponents, hanchor]
  cases first with
  | some c => simp [hstrip, trimSegments_append hidle]
  | none =>
    rw [Option.toList_none, List.nil_append] at hne ⊢
    obtain ⟨c, cs, hfront⟩ := List.exists_cons_of_ne_nil hne
    rw [hfront] at hstrip ⊢
    simp [hstrip, trimSegments_append hidle]

lemma anchor_lacks (p : String) : ∀ s ∈ (anchor p).2, '/' ∉ s.toList := by
  obtain ⟨s, segs, hsegments⟩ := List.exists_cons_of_ne_nil (segments_ne_nil p)
  have hlack := segments_lack p
  rw [hsegments] at hlack
  rw [anchor_eq hsegments]
  split_ifs
  · exact (List.forall_mem_cons.mp hlack).2
  · exact (List.forall_mem_cons.mp hlack).2
  · exact hlack

/-- What is left behind a base has the components behind those of the base. -/
theorem components_relative (h : components file = components base ++ cs) :
    components (relative base file) = cs := by
  by_cases hbase : base = ""
  · rw [hbase, components_empty, List.nil_append] at h
    rw [hbase, ← h]
    exact components_withoutTail file
  · have hlack := anchor_lacks file
    rw [components.eq_def file] at h
    cases hanchor : anchor file with
    | mk first segs =>
      rw [hanchor] at h hlack
      obtain ⟨ds, hds, hrest⟩ : ∃ ds, components base = first.toList ++ ds ∧
          segs.filterMap component? = ds ++ cs := by
        cases first with
        | none => exact ⟨components base, rfl, h⟩
        | some c =>
          obtain ⟨d, ds, hds⟩ := List.exists_cons_of_ne_nil (components_ne_nil hbase)
          rw [hds, List.cons_append] at h
          obtain ⟨rfl, hrest⟩ := List.cons.inj h
          exact ⟨ds, hds, hrest⟩
      obtain ⟨front, left, rfl, hfront, hleft⟩ := List.filterMap_eq_append_iff.mp hrest
      rw [relative, relativeTo?_of_anchor hbase (by rw [hds, hfront]) hanchor, Option.getD_some,
        components_trimSegments fun s hs => hlack s (List.mem_append_right front hs), hleft]

lemma sourcePath_eq (h : components file = components base ++ cs) :
    sourcePath base file = ofSegments (cs.filterMap sourcePart?) := by
  rw [sourcePath, components_relative h, ofSegments]

/-! ### Names behind a base -/

section Names

variable (h : ∀ name ∈ names, IsName name)

include h

lemma filterMap_names : names.filterMap component? = names.map .name := by
  rw [← List.filterMap_eq_map]
  exact List.filterMap_congr fun name hname => (h name hname).component?_eq

lemma isAbsolute_ofSegments_names : isAbsolute (ofSegments names) = false := by
  cases names with
  | nil => rfl
  | cons name names =>
    have hsegments := segments_ofSegments (List.cons_ne_nil name names)
      fun s hs => (h s hs).no_slash
    exact isAbsolute_of_segments hsegments (h name List.mem_cons_self).ne_empty

lemma components_ofSegments_names : components (ofSegments names) = names.map .name := by
  rw [← filterMap_names h]
  conv_lhs => rw [← trimSegments_names h]
  exact components_trimSegments fun s hs => (h s hs).no_slash

lemma components_join_names (base : String) :
    components (join base (ofSegments names)) = components base ++ names.map .name := by
  have hp := isAbsolute_ofSegments_names h
  by_cases hbase : base = ""
  · have hjoin : join base (ofSegments names) = ofSegments names := by simp [join, hp, hbase]
    rw [hjoin, hbase, components_empty, List.nil_append, components_ofSegments_names h]
  · rw [components_join hbase hp, filterMap_segments_ofSegments fun s hs => (h s hs).no_slash,
      filterMap_names h]

lemma relative_join_names (base : String) (hne : names ≠ []) :
    relative base (join base (ofSegments names)) = ofSegments names := by
  have hp := isAbsolute_ofSegments_names h
  have hlack : ∀ s ∈ names, '/' ∉ s.toList := fun s hs => (h s hs).no_slash
  by_cases hbase : base = ""
  · obtain ⟨name, rest, rfl⟩ := List.exists_cons_of_ne_nil hne
    have hname := h name List.mem_cons_self
    have hdot : name ≠ "." := by
      rintro rfl
      cases hname.not_idle
    have hjoin : join base (ofSegments (name :: rest)) = ofSegments (name :: rest) := by
      simp [join, hp, hbase]
    rw [hjoin, hbase]
    change withoutTail _ = _
    rw [withoutTail, anchor_ofSegments hname.ne_empty hlack, if_neg hdot]
    dsimp only
    rw [trimEnd_names h]
  · obtain ⟨first, front, hanchor, hcomponents⟩ := anchor_join hbase hp
    rw [segments_ofSegments hne hlack] at hanchor
    rw [relative, relativeTo?_of_anchor hbase hcomponents hanchor, trimSegments_names h,
      Option.getD_some]

lemma sourcePath_join_names (base : String) :
    sourcePath base (join base (ofSegments names)) = ofSegments names := by
  rw [sourcePath_eq (components_join_names h base), List.filterMap_map]
  exact congrArg ofSegments (List.filterMap_some (l := names))

end Names

lemma segments_steps {c : Component} (hc : c ∈ (segments p).filterMap component?) :
    c = .parent ∨ ∃ name, IsName name ∧ c = .name name := by
  obtain ⟨s, hs, hcomponent⟩ := List.mem_filterMap.mp hc
  rw [component?] at hcomponent
  split_ifs at hcomponent with hidle hup
  · exact .inl (Option.some.inj hcomponent).symm
  · exact .inr ⟨s, ⟨segments_lack p s hs, by simpa using hidle, by simpa using hup⟩,
      (Option.some.inj hcomponent).symm⟩

lemma components_cases (hp : isAbsolute p = false) :
    components p = (segments p).filterMap component? ∨
      components p = .current :: (segments p).filterMap component? := by
  obtain ⟨s, segs, hsegments⟩ := List.exists_cons_of_ne_nil (segments_ne_nil p)
  rw [components, anchor_eq hsegments, hp, if_neg Bool.false_ne_true, hsegments]
  split_ifs with hdot
  · rw [List.filterMap_cons_none (component?_eq_none_iff.mpr (isIdle_iff.mpr (.inr hdot)))]
    exact .inr rfl
  · exact .inl rfl

/-! ### Stored trees -/

lemma ofSegments_concat_append (front : List String) (last suffix : String) :
    ofSegments (front ++ [last]) ++ suffix = ofSegments (front ++ [last ++ suffix]) := by
  induction front with
  | nil => rfl
  | cons s front ih =>
    obtain ⟨t, rest, hrest⟩ := List.exists_cons_of_ne_nil (l := front ++ [last]) (by simp)
    obtain ⟨t', rest', hrest'⟩ :=
      List.exists_cons_of_ne_nil (l := front ++ [last ++ suffix]) (by simp)
    rw [List.cons_append, List.cons_append]
    rw [hrest, hrest'] at ih ⊢
    change s ++ "/" ++ ofSegments (t :: rest) ++ suffix = s ++ "/" ++ ofSegments (t' :: rest')
    rw [String.append_assoc, ih]

lemma join_append {p suffix : String} (hp : isAbsolute p = false)
    (hp' : isAbsolute (p ++ suffix) = false) : join base p ++ suffix = join base (p ++ suffix) := by
  rw [join, join, hp, hp', if_neg Bool.false_ne_true, if_neg Bool.false_ne_true]
  split
  · rw [String.append_assoc]
  · rw [String.append_assoc]

lemma components_treePath (root folder : String) {front : List String} {last : String}
    (h : ∀ name ∈ front ++ [last], IsName name) :
    components ((TreeLayout.mirrored root folder).treePath
        (join root (ofSegments (front ++ [last])))) =
      components folder ++ (front ++ [last ++ ".json"]).map .name := by
  have hsuffixed : ∀ name ∈ front ++ [last ++ ".json"], IsName name := by
    rw [List.forall_mem_append, List.forall_mem_singleton] at h ⊢
    exact ⟨h.1, isName_append h.2.ne_empty h.2.no_slash (by decide) (by decide)⟩
  have hp := isAbsolute_ofSegments_names h
  have hp' := isAbsolute_ofSegments_names hsuffixed
  rw [← ofSegments_concat_append] at hp'
  rw [TreeLayout.treePath, relative_join_names h root (by simp), hp, if_neg Bool.false_ne_true,
    TreeLayout.suffix, join_append hp hp', ofSegments_concat_append,
    components_join_names hsuffixed]

/-- Names below the root are what is recorded of a file, and they lead to its tree from the folder
of trees. No two files below the root share what is recorded or the place of the tree. -/
theorem mirrored_like_recorded (root folder : String) {names : List String} (hne : names ≠ [])
    (h : ∀ name ∈ names, IsName name) :
    let file := join root (ofSegments names)
    let layout := TreeLayout.mirrored root folder
    sourcePath root file = ofSegments names ∧
      layout.treePath file = join folder (sourcePath root file) ++ ".json" ∧
      ∀ others, others ≠ [] → (∀ name ∈ others, IsName name) → others ≠ names →
        sourcePath root (join root (ofSegments others)) ≠ sourcePath root file ∧
          components (layout.treePath (join root (ofSegments others))) ≠
            components (layout.treePath file) := by
  intro file layout
  have hsource : sourcePath root file = ofSegments names := sourcePath_join_names h root
  refine ⟨hsource, ?_, fun others hne' h' hdiffer => ⟨?_, ?_⟩⟩
  · have hp := isAbsolute_ofSegments_names h
    rw [hsource, TreeLayout.treePath, relative_join_names h root hne, hp,
      if_neg Bool.false_ne_true, TreeLayout.suffix]
  · rw [hsource, sourcePath_join_names h' root]
    intro hsame
    apply hdiffer
    rw [← segments_ofSegments hne' fun s hs => (h' s hs).no_slash, hsame,
      segments_ofSegments hne fun s hs => (h s hs).no_slash]
  · obtain ⟨front, last, rfl⟩ := (List.eq_nil_or_concat' names).resolve_left hne
    obtain ⟨front', last', rfl⟩ := (List.eq_nil_or_concat' others).resolve_left hne'
    rw [components_treePath root folder h, components_treePath root folder h']
    intro hsame
    have hinjective : Function.Injective Component.name := fun a b hab => Component.name.inj hab
    have hnames := hinjective.list_map (List.append_cancel_left hsame)
    obtain ⟨hfront, hlast⟩ := List.append_singleton_inj.mp hnames
    rw [String.append_left_inj] at hlast
    exact hdiffer (by rw [hfront, hlast])

theorem mirrored_like_recorded_dotted :
    (["org", "A.java"] ≠ [] ∧ ∀ name ∈ ["org", "A.java"], IsName name) ∧
      (["org", ".java"] ≠ [] ∧ ∀ name ∈ ["org", ".java"], IsName name) ∧
      join "./src/.//" (ofSegments ["org", "A.java"]) = "./src/.//org/A.java" ∧
      sourcePath "./src/.//" (join "./src/.//" (ofSegments ["org", "A.java"])) =
        ofSegments ["org", "A.java"] ∧
      sourcePath "./src/.//" (join "./src/.//" (ofSegments ["org", ".java"])) ≠
        sourcePath "./src/.//" (join "./src/.//" (ofSegments ["org", "A.java"])) :=
  ⟨by decide, by decide, by decide,
    (mirrored_like_recorded "./src/.//" "" (by decide) (by decide)).1,
    ((mirrored_like_recorded "./src/.//" "" (by decide) (by decide)).2.2 ["org", ".java"]
      (by decide) (by decide) (by decide)).1⟩

end SettingCatalog.FilePath
