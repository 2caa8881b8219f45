import Mathlib.Data.List.DropRight
import Mathlib.Data.List.TakeWhile
import SettingCatalog.Proofs.Text.Utf8
import SettingCatalog.Text.Blank

/-! A text and what is left of it without the white space around it. -/

namespace SettingCatalog.Text

lemma toList_trim (s : String) : (trim s).toList = trimEnd (s.toList.dropWhile isBlank) := by
  rw [trim, String.toList_ofList]

lemma trimEnd_split (cs : List Char) :
    ∃ post, cs = trimEnd cs ++ post ∧ ∀ c ∈ post, isBlank c = true :=
  ⟨cs.rtakeWhile isBlank, List.rdropWhile_append_rtakeWhile.symm, fun _ => List.mem_rtakeWhile_imp⟩

lemma trim_split (s : String) :
    ∃ post, s.toList = s.toList.takeWhile isBlank ++ ((trim s).toList ++ post) ∧
      ∀ c ∈ post, isBlank c = true := by
  obtain ⟨post, hsplit, hpost⟩ := trimEnd_split (s.toList.dropWhile isBlank)
  refine ⟨post, ?_, hpost⟩
  rw [toList_trim, ← hsplit, List.takeWhile_append_dropWhile]

/-- A beginning of a text is white space, or it begins with the same white space. -/
lemma dropWhile_of_prefix {cs ds : List Char} (h : cs <+: ds) :
    cs.dropWhile isBlank = [] ∨ cs = ds.takeWhile isBlank ++ cs.dropWhile isBlank := by
  rcases List.prefix_or_prefix_of_prefix h (List.takeWhile_prefix isBlank) with hc | hc
  · left
    rw [List.dropWhile_eq_nil_iff]
    exact fun c hcs => List.mem_takeWhile_imp (hc.subset hcs)
  · right
    obtain ⟨t, rfl⟩ := hc
    have ht : t <+: ds.dropWhile isBlank := by
      rw [← List.prefix_append_right_inj (ds.takeWhile isBlank), List.takeWhile_append_dropWhile]
      exact h
    have hblank : ∀ c ∈ ds.takeWhile isBlank, isBlank c = true :=
      fun c hc => List.mem_takeWhile_imp hc
    rw [List.dropWhile_append_of_pos hblank]
    congr 1
    cases t with
    | nil => rfl
    | cons c t =>
      obtain ⟨u, hu⟩ := ht
      have hc := List.head_dropWhile_not isBlank (l := ds) (by simp [← hu])
      rw [List.dropWhile_cons_of_neg]
      simpa [← hu] using hc

lemma trim_of_ends {s : String} {c d : Char} {cs post : List Char}
    (hs : s.toList = c :: (cs ++ d :: post)) (hc : isBlank c = false) (hd : isBlank d = false)
    (hpost : ∀ x ∈ post, isBlank x = true) : (trim s).toList = c :: (cs ++ [d]) := by
  have hend : s.toList.dropWhile isBlank = (c :: cs ++ [d]) ++ post := by
    rw [hs, List.dropWhile_cons_of_neg (by simp [hc])]
    simp
  have hreverse : ∀ x ∈ post.reverse, isBlank x = true := fun x hx => hpost x (by simpa using hx)
  rw [toList_trim, hend, trimEnd, List.reverse_append, List.dropWhile_append_of_pos hreverse,
    List.reverse_append, List.reverse_singleton, List.singleton_append,
    List.dropWhile_cons_of_neg (by simp [hd])]
  simp

/-! ### The bytes of a line -/

lemma encode_ofList (cs : List Char) :
    Utf8.encode (String.ofList cs) = cs.flatMap String.utf8EncodeChar := by
  rw [Utf8.encode, String.toList_ofList]

lemma encode_line (line : String) : ∃ back, Utf8.encode line =
    (line.toList.takeWhile isBlank).flatMap String.utf8EncodeChar ++
      (Utf8.encode (trim line) ++ Utf8.encode back) ∧ isBlankText back = true := by
  obtain ⟨post, hsplit, hpost⟩ := trim_split line
  refine ⟨String.ofList post, ?_, ?_⟩
  · rw [encode_ofList, Utf8.encode, Utf8.encode, ← List.flatMap_append, ← List.flatMap_append,
      ← hsplit]
  · rw [isBlankText, String.toList_ofList, List.all_eq_true]
    exact hpost

lemma trim_cut {line cut : String} {v : Bytes}
    (h : Utf8.encode cut <+:
      (line.toList.takeWhile isBlank).flatMap String.utf8EncodeChar ++ v)
    (hv : v <+: Utf8.encode (trim line)) : Utf8.encode (trim cut) <+: v := by
  obtain ⟨back, hline, -⟩ := encode_line line
  have hcut : cut.toList <+: line.toList := by
    apply Utf8.prefix_of_flatMap
    refine h.trans ?_
    have hends : v <+: Utf8.encode (trim line) ++ Utf8.encode back :=
      hv.trans (List.prefix_append _ _)
    change _ <+: Utf8.encode line
    rw [hline, List.prefix_append_right_inj]
    exact hends
  obtain ⟨post, hsplit, -⟩ := trimEnd_split (cut.toList.dropWhile isBlank)
  have htrim : Utf8.encode (trim cut) <+:
      (cut.toList.dropWhile isBlank).flatMap String.utf8EncodeChar := by
    have hbytes := congrArg (List.flatMap String.utf8EncodeChar) hsplit
    rw [List.flatMap_append] at hbytes
    rw [Utf8.encode, toList_trim]
    exact ⟨_, hbytes.symm⟩
  refine htrim.trans ?_
  rcases dropWhile_of_prefix hcut with hnil | hcons
  · rw [hnil]
    exact List.nil_prefix
  · rw [Utf8.encode, hcons, List.flatMap_append, List.prefix_append_right_inj] at h
    exact h

end SettingCatalog.Text
