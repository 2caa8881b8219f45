import Mathlib.Data.List.TakeWhile
import SettingCatalog.Proofs.Files.Writing

/-! Names behind paths. A path with a name behind it leads to the item of that name in the folder
that the path leads to. -/

namespace SettingCatalog

namespace FilePath

variable {separator : Char} {pending cs : List Char} {base name p : String}

/-! ### Segments -/

lemma splitChars_append (before behind : List Char) :
    splitChars separator pending (before ++ separator :: behind) =
      splitChars separator pending before ++ splitChars separator [] behind := by
  induction before generalizing pending with
  | nil => simp [splitChars]
  | cons c cs ih =>
    rw [List.cons_append, splitChars, splitChars]
    split <;> simp [ih]

lemma splitChars_of_not_mem (h : separator ∉ cs) :
    splitChars separator pending cs = [pending.reverse ++ cs] := by
  induction cs generalizing pending with
  | nil => simp [splitChars]
  | cons c cs ih =>
    rw [List.mem_cons, not_or] at h
    rw [splitChars, if_neg (Ne.symm h.1), ih h.2]
    simp

lemma segments_append (before behind : String) :
    segments (before ++ "/" ++ behind) = segments before ++ segments behind := by
  have hchars : (before ++ "/" ++ behind).toList = before.toList ++ '/' :: behind.toList := by simp
  rw [segments, hchars, splitChars_append, List.map_append, segments, segments]

structure IsName (name : String) : Prop where
  no_slash : '/' ∉ name.toList
  not_idle : isIdle name = false
  ne_up : name ≠ ".."

instance (name : String) : Decidable (IsName name) :=
  decidable_of_iff ('/' ∉ name.toList ∧ isIdle name = false ∧ name ≠ "..")
    ⟨fun h => ⟨h.1, h.2.1, h.2.2⟩, fun h => ⟨h.no_slash, h.not_idle, h.ne_up⟩⟩

namespace IsName

variable (h : IsName name)

include h

lemma ne_empty : name ≠ "" := by
  rintro rfl
  cases h.not_idle

lemma segments_eq : segments name = [name] := by
  rw [segments, splitChars_of_not_mem h.no_slash]
  simp

lemma not_isAbsolute : isAbsolute name = false := by
  have hslash := h.no_slash
  rw [isAbsolute]
  cases hname : name.toList with
  | nil => rfl
  | cons c cs =>
    rw [hname, List.mem_cons, not_or] at hslash
    simpa using Ne.symm hslash.1

lemma component?_eq : component? name = some (.name name) := by
  simp [component?, h.not_idle, h.ne_up]

end IsName

lemma isName_append {suffix : String} (hne : name ≠ "") (hslash : '/' ∉ name.toList)
    (hsuffix : 2 ≤ suffix.length) (hslash' : '/' ∉ suffix.toList) : IsName (name ++ suffix) := by
  have hlength (s : String) (hs : s.length ≤ 2) : name ++ suffix ≠ s := by
    rintro rfl
    have hname : 0 < name.length := by
      rwa [Nat.pos_iff_ne_zero, Ne, String.length_eq_zero_iff]
    rw [String.length_append] at hs
    omega
  refine ⟨?_, ?_, hlength ".." (by decide)⟩
  · rw [String.toList_append, List.mem_append, not_or]
    exact ⟨hslash, hslash'⟩
  · rw [isIdle, Bool.or_eq_false_iff, beq_eq_false_iff_ne, beq_eq_false_iff_ne]
    exact ⟨hlength "" (by decide), hlength "." (by decide)⟩

/-- A path that ends with a slash gets what is joined to it in the place of its last segment, which
is empty. -/
lemma exists_join_eq (hbase : base ≠ "") :
    ∃ front, (base = front ∨ base = front ++ "/") ∧
      ∀ p, isAbsolute p = false → join base p = front ++ "/" ++ p := by
  by_cases hend : base.toList.getLast? = some '/'
  · obtain ⟨front, hfront⟩ := List.getLast?_eq_some_iff.mp hend
    have hslash : base = String.ofList front ++ "/" := String.toList_inj.mp (by simp [hfront])
    refine ⟨String.ofList front, .inr hslash, fun p hp => ?_⟩
    rw [join, hp, ← hslash]
    simp [hend]
  · refine ⟨base, .inl rfl, fun p hp => ?_⟩
    rw [join, hp]
    simp [hend, hbase]

lemma segments_join (hbase : base ≠ "") :
    ∃ front idle, front ≠ [] ∧ (∀ s ∈ idle, isIdle s = true) ∧ segments base = front ++ idle ∧
      ∀ p, isAbsolute p = false → segments (join base p) = front ++ segments p := by
  obtain ⟨front, hfront, hjoin⟩ := exists_join_eq hbase
  have hp (p : String) (hp : isAbsolute p = false) :
      segments (join base p) = segments front ++ segments p := by
    rw [hjoin p hp, segments_append]
  rcases hfront with rfl | rfl
  · exact ⟨segments base, [], segments_ne_nil base, by simp, by simp, hp⟩
  · refine ⟨segments front, [""], segments_ne_nil front, by simp [isIdle], ?_, hp⟩
    have hslash := segments_append front ""
    rw [String.append_empty] at hslash
    exact hslash

lemma exists_join_append (hbase : base ≠ "") (hp : isAbsolute p = false) :
    ∃ between, join base p = base ++ (between ++ p) := by
  obtain ⟨front, hfront, hjoin⟩ := exists_join_eq hbase
  rw [hjoin p hp]
  rcases hfront with rfl | rfl
  · exact ⟨"/", String.append_assoc⟩
  · exact ⟨"", by rw [String.empty_append]⟩

lemma isAbsolute_join (hbase : base ≠ "") (hp : isAbsolute p = false) :
    isAbsolute (join base p) = isAbsolute base := by
  obtain ⟨between, hjoin⟩ := exists_join_append hbase hp
  rw [isAbsolute, isAbsolute, hjoin, String.toList_append, List.head?_append,
    Option.or_of_isSome (by simpa using hbase)]

/-! ### Components -/

lemma anchor_eq {s : String} {segs : List String} (h : segments p = s :: segs) :
    anchor p = if isAbsolute p then (some .root, segs)
      else if s = "." then (some .current, segs) else (none, s :: segs) := by
  rw [anchor, h]
  simp only [beq_iff_eq]

lemma filterMap_component?_of_idle {idle : List String} (h : ∀ s ∈ idle, isIdle s = true) :
    idle.filterMap component? = [] := by
  rw [List.filterMap_eq_nil_iff]
  intro s hs
  rw [component?, if_pos (h s hs)]

lemma anchor_join (hbase : base ≠ "") (hp : isAbsolute p = false) :
    ∃ first front, anchor (join base p) = (first, front ++ segments p) ∧
      components base = first.toList ++ front.filterMap component? := by
  obtain ⟨front, idle, hfront, hidle, hsegments, hjoin⟩ := segments_join hbase
  obtain ⟨s, front, rfl⟩ := List.exists_cons_of_ne_nil hfront
  have hjoined := hjoin p hp
  rw [List.cons_append] at hsegments hjoined
  rw [components, anchor_eq hsegments, anchor_eq hjoined, isAbsolute_join hbase hp]
  have hnone := filterMap_component?_of_idle hidle
  split_ifs
  · exact ⟨some .root, front, rfl, by simp [hnone]⟩
  · exact ⟨some .current, front, rfl, by simp [hnone]⟩
  · exact ⟨none, s :: front, rfl, by
      rw [← List.cons_append, List.filterMap_append, hnone, List.append_nil]⟩

lemma components_join (hbase : base ≠ "") (hp : isAbsolute p = false) :
    components (join base p) = components base ++ (segments p).filterMap component? := by
  obtain ⟨first, front, hanchor, hcomponents⟩ := anchor_join hbase hp
  rw [components, hanchor, hcomponents, List.filterMap_append, List.append_assoc]

namespace IsName

variable (h : IsName name) (hbase : base ≠ "")

include h hbase

lemma components_join : components (join base name) = components base ++ [.name name] := by
  rw [FilePath.components_join hbase h.not_isAbsolute, h.segments_eq]
  simp [h.component?_eq]

lemma join_ne_empty : join base name ≠ "" := by
  obtain ⟨between, hjoin⟩ := exists_join_append hbase h.not_isAbsolute
  simp [hjoin, hbase]

lemma size_join : base.utf8ByteSize < (join base name).utf8ByteSize := by
  obtain ⟨between, hjoin⟩ := exists_join_append hbase h.not_isAbsolute
  rw [hjoin, String.utf8ByteSize_append]
  apply Nat.lt_add_of_pos_right
  rw [Nat.pos_iff_ne_zero, Ne, String.utf8ByteSize_eq_zero_iff]
  simp [h.ne_empty]

lemma segments_join_join {other : String} (hother : IsName other) :
    segments (join (join base name) other) = segments (join base name) ++ [other] := by
  obtain ⟨front, -, -, -, -, hjoin⟩ := segments_join hbase
  obtain ⟨front', hfront', hjoin'⟩ := exists_join_eq (h.join_ne_empty hbase)
  rw [hjoin' other hother.not_isAbsolute, segments_append, hother.segments_eq]
  rcases hfront' with hsame | hslash
  · rw [hsame]
  · -- The path ends with the name, which is not empty, so not with a slash.
    have hlast := hjoin name h.not_isAbsolute
    rw [h.segments_eq] at hlast
    have hempty := segments_append front' ""
    rw [String.append_empty, ← hslash, hlast] at hempty
    have hname : name = "" := (List.append_singleton_inj.mp hempty).2
    exact absurd hname h.ne_empty

lemma fileName?_join : fileName? (join base name) = some name := by
  rw [fileName?, h.components_join hbase, List.getLast?_concat]

end IsName

def below (path : String) (names : List String) : String := names.foldl join path

lemma segments_below (hbase : base ≠ "") {first : String} {rest : List String}
    (h : ∀ name ∈ first :: rest, IsName name) :
    segments (below base (first :: rest)) = segments (join base first) ++ rest := by
  induction rest generalizing base first with
  | nil => simp [below]
  | cons second rest ih =>
    rw [List.forall_mem_cons, List.forall_mem_cons] at h
    have hbelow := ih (h.1.join_ne_empty hbase) (List.forall_mem_cons.mpr h.2)
    rw [h.1.segments_join_join hbase h.2.1, List.append_assoc, List.singleton_append] at hbelow
    exact hbelow

lemma components_below (hbase : base ≠ "") {names : List String} (h : ∀ name ∈ names, IsName name) :
    components (below base names) = components base ++ names.map .name := by
  induction names generalizing base with
  | nil => simp [below]
  | cons name names ih =>
    rw [List.forall_mem_cons] at h
    rw [below, List.foldl_cons, ← below, ih (h.1.join_ne_empty hbase) h.2,
      h.1.components_join hbase,
      List.append_assoc, List.map_cons, List.singleton_append]

lemma below_inj (hbase : base ≠ "") {names others : List String} (hne : names ≠ [])
    (hne' : others ≠ []) (h : ∀ name ∈ names, IsName name) (h' : ∀ name ∈ others, IsName name)
    (hsame : below base names = below base others) : names = others := by
  obtain ⟨front, idle, -, -, -, hjoin⟩ := segments_join hbase
  have hsegments {names : List String} (hne : names ≠ []) (h : ∀ name ∈ names, IsName name) :
      segments (below base names) = front ++ names := by
    obtain ⟨first, rest, rfl⟩ := List.exists_cons_of_ne_nil hne
    have hfirst := h first List.mem_cons_self
    rw [segments_below hbase h, hjoin first hfirst.not_isAbsolute, hfirst.segments_eq,
      List.append_assoc, List.singleton_append]
  apply (List.append_right_inj front).mp
  rw [← hsegments hne h, ← hsegments hne' h', hsame]

/-! ### Extensions -/

/-- The name has something before its last dot, and behind it the extension of a filter, whose own
first dots do not count. -/
def EndsIn (filter name : String) : Prop :=
  ∃ stem ext : List Char, name.toList = stem ++ '.' :: ext ∧ stem ≠ [] ∧ '.' ∉ ext ∧
    ext = filter.toList.dropWhile (· == '.')

lemma extensionOfName?_eq_some_iff {ext : String} :
    extensionOfName? name = some ext ↔
      ∃ stem, name.toList = stem ++ '.' :: ext.toList ∧ stem ≠ [] ∧ '.' ∉ ext.toList := by
  constructor
  · intro h
    rw [extensionOfName?] at h
    split at h
    · rename_i dot last stem hdrop
      have hdot : dot = '.' := by
        have hhead := List.head?_dropWhile_not (· != '.') name.toList.reverse
        rw [hdrop] at hhead
        simpa using hhead
      have hcut := List.takeWhile_append_dropWhile (p := (· != '.')) (l := name.toList.reverse)
      rw [hdrop, hdot] at hcut
      rw [Option.some.injEq] at h
      subst h
      refine ⟨(last :: stem).reverse, ?_, by simp, ?_⟩
      · simpa using (congrArg List.reverse hcut).symm
      · intro hmem
        rw [String.toList_ofList, List.mem_reverse] at hmem
        simpa using List.mem_takeWhile_imp hmem
    · cases h
  · rintro ⟨stem, hname, hstem, hdot⟩
    have hreverse : name.toList.reverse = ext.toList.reverse ++ '.' :: stem.reverse := by
      simp [hname]
    have hbehind : ∀ c ∈ ext.toList.reverse, (c != '.') = true := by
      intro c hc
      rw [bne_iff_ne]
      rintro rfl
      exact hdot (List.mem_reverse.mp hc)
    have htake : name.toList.reverse.takeWhile (· != '.') = ext.toList.reverse := by
      rw [hreverse, List.takeWhile_append_of_pos hbehind]
      simp
    have hdrop : name.toList.reverse.dropWhile (· != '.') = '.' :: stem.reverse := by
      rw [hreverse, List.dropWhile_append_of_pos hbehind]
      simp
    rw [extensionOfName?, htake, hdrop]
    cases hlast : stem.reverse with
    | nil => exact absurd (List.reverse_eq_nil_iff.mp hlast) hstem
    | cons last front => simp

end FilePath

namespace FileSystem

variable {fs : FileSystem} {follow : List String → List String → Except OsError Place}
  {address c front idle more : List String} {path name : String} {items : List (String × Item)}
  {item : Item}

/-! ### Where a path with more behind it leads -/

lemma descend_of_idle {place : Place} (hidle : ∀ s ∈ idle, FilePath.isIdle s = true)
    (h : fs.descend .find follow address idle = .ok place) : place = .taken address := by
  induction idle with
  | nil =>
    rw [descend, Except.ok.injEq] at h
    exact h.symm
  | cons s idle ih =>
    rw [List.forall_mem_cons] at hidle
    obtain ⟨items, hitems, turn⟩ := turn_of_descend h
    rw [descend_idle hitems hidle.1] at h
    exact ih hidle.2 h

lemma descend_behind (hidle : ∀ s ∈ idle, FilePath.isIdle s = true)
    (hfollow : ∀ b segs, follow b (segs ++ idle) = .ok (.taken c) →
      ∃ last, follow b (segs ++ more) = fs.descend .find last c more)
    (h : fs.descend .find follow address (front ++ idle) = .ok (.taken c)) :
    ∃ last, fs.descend .find follow address (front ++ more) = fs.descend .find last c more := by
  induction front generalizing address with
  | nil =>
    have hstays : c = address := Place.taken.inj (descend_of_idle hidle h)
    exact ⟨follow, by rw [List.nil_append, hstays]⟩
  | cons s front ih =>
    rw [List.cons_append] at h ⊢
    obtain ⟨items, hitems, turn⟩ := turn_of_descend h
    cases turn with
    | idle hs h => rw [descend_idle hitems hs]; exact ih h
    | up hnot hs h => rw [descend_up hitems hnot hs]; exact ih h
    | down hs hitem hlink h => rw [descend_down hitems hs hitem hlink]; exact ih h
    | across hs hitem hnot h =>
      rw [descend_across hitems hs hitem, ← List.append_assoc]
      rw [← List.append_assoc] at h
      exact hfollow _ _ h
    | stop hs hp hitem h => cases hp
    | vacant hs hlast hitem h => cases h

lemma resolve_behind {links : ℕ} (more : List String) (hidle : ∀ s ∈ idle, FilePath.isIdle s = true)
    (h : fs.resolve .find links address (front ++ idle) = .ok (.taken c)) :
    ∃ last, fs.resolve .find links address (front ++ more) = fs.descend .find last c more := by
  induction links generalizing address front with
  | zero =>
    refine descend_behind hidle (fun b segs hb => ?_) h
    cases hb
  | succ links ih => exact descend_behind hidle (fun b segs hb => ih hb) h

lemma exists_address_of_find (h : fs.find path = .ok item) :
    ∃ a, fs.locate .find path = .ok (.taken a) ∧ fs.root.at? a = some item := by
  obtain ⟨place, hplace, h⟩ := ok_of_bind.mp h
  cases place with
  | free holder name => cases h
  | taken a =>
    refine ⟨a, hplace, ?_⟩
    dsimp only at h
    split at h
    · rename_i found hfound
      rw [hfound, Except.ok.inj h]
    · cases h

lemma exists?_iff : fs.exists? path = true ↔ ∃ item, fs.find path = .ok item := by
  rw [exists?]
  cases fs.find path <;> simp [Except.toBool]

lemma ne_empty_of_find (h : fs.find path = .ok item) : path ≠ "" := by
  obtain ⟨a, hplace, -⟩ := exists_address_of_find h
  rintro rfl
  have hfault := (resolve_of_locate hplace).1
  simp [pathFault?, pathLimit] at hfault

lemma size_lt_of_find (h : fs.find path = .ok item) : path.utf8ByteSize < pathLimit := by
  obtain ⟨a, hplace, -⟩ := exists_address_of_find h
  have hfault := (resolve_of_locate hplace).1
  by_contra hlong
  rw [pathFault?] at hfault
  split at hfault
  · cases hfault
  · rw [if_pos (Nat.le_of_not_lt hlong)] at hfault
    cases hfault

/-- A name behind a path to a folder leads to the item of that name, if it leads anywhere. -/
theorem find_join (h : fs.find path = .ok (.folder items)) (hname : FilePath.IsName name)
    (hitem : items.lookup name = some item) (hlink : ∀ target, item ≠ .link target)
    (hreached : fs.exists? (FilePath.join path name) = true) :
    fs.find (FilePath.join path name) = .ok item := by
  have hpath := ne_empty_of_find h
  obtain ⟨c, hplace, hc⟩ := exists_address_of_find h
  obtain ⟨front, idle, -, hidle, hsegments, hjoin⟩ := FilePath.segments_join hpath
  have hresolve := (resolve_of_locate hplace).2
  rw [hsegments] at hresolve
  obtain ⟨last, hlast⟩ := resolve_behind [name] hidle hresolve
  -- The path with the name leads somewhere, so the last step from the folder is one down.
  obtain ⟨found, hfound⟩ := exists?_iff.mp hreached
  obtain ⟨d, hplace', hd⟩ := exists_address_of_find hfound
  have hresolve' := (resolve_of_locate hplace').2
  have horigin : fs.origin (FilePath.join path name) = fs.origin path := by
    rw [origin, origin, FilePath.isAbsolute_join hpath hname.not_isAbsolute]
  rw [horigin, hjoin name hname.not_isAbsolute, hname.segments_eq, hlast] at hresolve'
  obtain ⟨items', hitems', turn⟩ := turn_of_descend hresolve'
  obtain rfl : items' = items := by simpa [hc] using hitems'.symm
  cases turn with
  | idle hs h => exact absurd hs (by simp [hname.not_idle])
  | up hidle hs h => exact absurd hs hname.ne_up
  | @down hs item' hitem' hlink' h =>
    rw [descend, Except.ok.injEq, Place.taken.injEq] at h
    rw [← h, Item.at?_concat hc, hitem, Option.some.injEq] at hd
    rw [hfound, hd]
  | across hs hitem' hnot h =>
    rw [hitem, Option.some.injEq] at hitem'
    exact absurd hitem' (hlink _)
  | stop hs hp hitem' h => cases hp
  | vacant hs hlast' hitem' h => cases h

end FileSystem

end SettingCatalog
