import Mathlib.Data.Nat.Notation
import Mathlib.Data.String.Basic
import Mathlib.Tactic.Lemma
import Mathlib.Tactic.SplitIfs
import SettingCatalog.Text.Utf8

/-! A text is read back from its bytes, and nothing else is read. -/

namespace SettingCatalog.Text.Utf8

lemma toNat_ofNat {n : ℕ} (h : n < 256) : (UInt8.ofNat n).toNat = n := by
  simp [Nat.mod_eq_of_lt h]

lemma lt_iff_of_toNat {a k : UInt8} {n m : ℕ} (ha : a.toNat = n) (hk : k.toNat = m) :
    a < k ↔ n < m := by
  rw [UInt8.lt_iff_toNat_lt, ha, hk]

lemma toNat_tail (n : ℕ) : (UInt8.ofNat (n % 0x40 + 0x80)).toNat = n % 0x40 + 0x80 :=
  toNat_ofNat (by omega)

lemma isTail_ofNat (n : ℕ) : isTail (UInt8.ofNat (n % 0x40 + 0x80)) = true := by
  simp only [isTail, Bool.and_eq_true, decide_eq_true_eq, UInt8.le_iff_toNat_le, toNat_tail]
  constructor
  · exact Nat.le_add_left _ _
  · change n % 0x40 + 0x80 ≤ 0xbf
    omega

lemma tailBits_ofNat (n : ℕ) : tailBits (UInt8.ofNat (n % 0x40 + 0x80)) = n % 0x40 := by
  unfold tailBits
  rw [toNat_tail, Nat.add_sub_cancel]

lemma scalar?_toNat {least : ℕ} {c : Char} (h : least ≤ c.toNat) :
    scalar? least c.toNat = some c := by
  have hv : c.toNat.isValidChar := c.valid
  rw [scalar?, if_pos ⟨h, hv⟩, Char.ofNat_toNat]

lemma toNat_lt (c : Char) : c.toNat < 0x110000 := by
  have hv := c.valid
  simp only [UInt32.isValidChar, Nat.isValidChar] at hv
  change c.val.toNat < 0x110000
  omega

lemma encodeChar_eq (c : Char) : String.utf8EncodeChar c =
    if c.toNat ≤ 0x7f then [UInt8.ofNat c.toNat]
    else if c.toNat ≤ 0x7ff then
      [UInt8.ofNat (c.toNat / 64 % 0x20 + 0xc0), UInt8.ofNat (c.toNat % 0x40 + 0x80)]
    else if c.toNat ≤ 0xffff then
      [UInt8.ofNat (c.toNat / 4096 % 0x10 + 0xe0), UInt8.ofNat (c.toNat / 64 % 0x40 + 0x80),
        UInt8.ofNat (c.toNat % 0x40 + 0x80)]
    else
      [UInt8.ofNat (c.toNat / 262144 % 0x08 + 0xf0), UInt8.ofNat (c.toNat / 4096 % 0x40 + 0x80),
        UInt8.ofNat (c.toNat / 64 % 0x40 + 0x80), UInt8.ofNat (c.toNat % 0x40 + 0x80)] := rfl

section Widths

variable (c : Char) (rest : Bytes)

lemma decodeChar?_one (h : c.toNat ≤ 0x7f) :
    decodeChar? (UInt8.ofNat c.toNat :: rest) = some (c, rest) := by
  have ha : (UInt8.ofNat c.toNat).toNat = c.toNat := toNat_ofNat (by omega)
  have hlt : UInt8.ofNat c.toNat < 0x80 := (lt_iff_of_toNat (m := 0x80) ha rfl).mpr (by omega)
  simp only [decodeChar?, if_pos hlt, ha, Char.ofNat_toNat]

lemma decodeChar?_two (h : 0x7f < c.toNat) (h' : c.toNat ≤ 0x7ff) :
    decodeChar? (UInt8.ofNat (c.toNat / 64 % 0x20 + 0xc0) ::
      UInt8.ofNat (c.toNat % 0x40 + 0x80) :: rest) = some (c, rest) := by
  have ha : (UInt8.ofNat (c.toNat / 64 % 0x20 + 0xc0)).toNat = c.toNat / 64 % 0x20 + 0xc0 :=
    toNat_ofNat (by omega)
  have h1 : ¬ UInt8.ofNat (c.toNat / 64 % 0x20 + 0xc0) < 0x80 :=
    fun hlt => absurd ((lt_iff_of_toNat (m := 0x80) ha rfl).mp hlt) (by omega)
  have h2 : UInt8.ofNat (c.toNat / 64 % 0x20 + 0xc0) < 0xe0 :=
    (lt_iff_of_toNat (m := 0xe0) ha rfl).mpr (by omega)
  have h3 : ¬ UInt8.ofNat (c.toNat / 64 % 0x20 + 0xc0) < 0xc2 :=
    fun hlt => absurd ((lt_iff_of_toNat (m := 0xc2) ha rfl).mp hlt) (by omega)
  have hv : (c.toNat / 64 % 0x20 + 0xc0 - 0xc0) * 0x40 + c.toNat % 0x40 = c.toNat := by omega
  simp only [decodeChar?, isTail_ofNat, tailBits_ofNat, h1, h2, h3, if_true, if_false, not_true, ha,
    hv, scalar?_toNat (Nat.succ_le_of_lt h), Option.map_some]

lemma decodeChar?_three (h : 0x7ff < c.toNat) (h' : c.toNat ≤ 0xffff) :
    decodeChar? (UInt8.ofNat (c.toNat / 4096 % 0x10 + 0xe0) ::
      UInt8.ofNat (c.toNat / 64 % 0x40 + 0x80) :: UInt8.ofNat (c.toNat % 0x40 + 0x80) :: rest) =
      some (c, rest) := by
  have ha : (UInt8.ofNat (c.toNat / 4096 % 0x10 + 0xe0)).toNat = c.toNat / 4096 % 0x10 + 0xe0 :=
    toNat_ofNat (by omega)
  have h1 : ¬ UInt8.ofNat (c.toNat / 4096 % 0x10 + 0xe0) < 0x80 :=
    fun hlt => absurd ((lt_iff_of_toNat (m := 0x80) ha rfl).mp hlt) (by omega)
  have h2 : ¬ UInt8.ofNat (c.toNat / 4096 % 0x10 + 0xe0) < 0xe0 :=
    fun hlt => absurd ((lt_iff_of_toNat (m := 0xe0) ha rfl).mp hlt) (by omega)
  have h3 : UInt8.ofNat (c.toNat / 4096 % 0x10 + 0xe0) < 0xf0 :=
    (lt_iff_of_toNat (m := 0xf0) ha rfl).mpr (by omega)
  have hv : ((c.toNat / 4096 % 0x10 + 0xe0 - 0xe0) * 0x40 + c.toNat / 64 % 0x40) * 0x40 +
      c.toNat % 0x40 = c.toNat := by omega
  simp only [decodeChar?, isTail_ofNat, tailBits_ofNat, h1, h2, h3, if_true, if_false, not_true, ha,
    hv, scalar?_toNat (Nat.succ_le_of_lt h), Option.map_some]

lemma decodeChar?_four (h : 0xffff < c.toNat) :
    decodeChar? (UInt8.ofNat (c.toNat / 262144 % 0x08 + 0xf0) ::
      UInt8.ofNat (c.toNat / 4096 % 0x40 + 0x80) :: UInt8.ofNat (c.toNat / 64 % 0x40 + 0x80) ::
      UInt8.ofNat (c.toNat % 0x40 + 0x80) :: rest) = some (c, rest) := by
  have hmax := toNat_lt c
  have ha : (UInt8.ofNat (c.toNat / 262144 % 0x08 + 0xf0)).toNat = c.toNat / 262144 % 0x08 + 0xf0 :=
    toNat_ofNat (by omega)
  have h1 : ¬ UInt8.ofNat (c.toNat / 262144 % 0x08 + 0xf0) < 0x80 :=
    fun hlt => absurd ((lt_iff_of_toNat (m := 0x80) ha rfl).mp hlt) (by omega)
  have h2 : ¬ UInt8.ofNat (c.toNat / 262144 % 0x08 + 0xf0) < 0xe0 :=
    fun hlt => absurd ((lt_iff_of_toNat (m := 0xe0) ha rfl).mp hlt) (by omega)
  have h3 : ¬ UInt8.ofNat (c.toNat / 262144 % 0x08 + 0xf0) < 0xf0 :=
    fun hlt => absurd ((lt_iff_of_toNat (m := 0xf0) ha rfl).mp hlt) (by omega)
  have hv : (((c.toNat / 262144 % 0x08 + 0xf0 - 0xf0) * 0x40 + c.toNat / 4096 % 0x40) * 0x40 +
      c.toNat / 64 % 0x40) * 0x40 + c.toNat % 0x40 = c.toNat := by omega
  simp only [decodeChar?, isTail_ofNat, tailBits_ofNat, h1, h2, h3, if_false, not_true, ha, hv,
    scalar?_toNat (Nat.succ_le_of_lt h), Option.map_some]

lemma decodeChar?_encodeChar : decodeChar? (String.utf8EncodeChar c ++ rest) = some (c, rest) := by
  rw [encodeChar_eq]
  split_ifs with h1 h2 h3
  · exact decodeChar?_one c rest h1
  · exact decodeChar?_two c rest (Nat.lt_of_not_le h1) h2
  · exact decodeChar?_three c rest (Nat.lt_of_not_le h2) h3
  · exact decodeChar?_four c rest (Nat.lt_of_not_le h3)

end Widths

lemma encodeChar_cons (c : Char) : ∃ b bs, String.utf8EncodeChar c = b :: bs :=
  List.exists_cons_of_ne_nil String.utf8EncodeChar_ne_nil

lemma decodeChars_flatMap (cs read : List Char) (rounds : Bytes)
    (h : (cs.flatMap String.utf8EncodeChar).length ≤ rounds.length) :
    decodeChars rounds read (cs.flatMap String.utf8EncodeChar) = some (read.reverse ++ cs) := by
  induction cs generalizing read rounds with
  | nil => simp [decodeChars]
  | cons c cs ih =>
    obtain ⟨b, bs, hb⟩ := encodeChar_cons c
    have hc := decodeChar?_encodeChar c (cs.flatMap String.utf8EncodeChar)
    rw [List.flatMap_cons, hb, List.cons_append] at h ⊢
    rw [hb, List.cons_append] at hc
    cases rounds with
    | nil => simp at h
    | cons r rounds =>
      simp only [List.length_cons, List.length_append] at h
      have hr := ih (c :: read) rounds (by omega)
      rw [List.reverse_cons, List.append_assoc, List.singleton_append] at hr
      rw [decodeChars, hc]
      exact hr

theorem decode?_encode (s : String) : decode? (encode s) = some s := by
  rw [decode?, encode, decodeChars_flatMap _ _ _ (Nat.le_refl _), List.reverse_nil, List.nil_append,
    Option.map_some, String.ofList_toList]

/-! ### Only texts are read -/

lemma isTail_iff {b : UInt8} : isTail b = true ↔ 0x80 ≤ b.toNat ∧ b.toNat ≤ 0xbf := by
  simp [isTail, UInt8.le_iff_toNat_le]

lemma toNat_charOfNat {n : ℕ} (h : n.isValidChar) : (Char.ofNat n).toNat = n := by
  rw [Char.ofNat, dif_pos h]
  rfl

lemma scalar?_eq_some {least n : ℕ} {c : Char} (h : scalar? least n = some c) :
    least ≤ n ∧ c.toNat = n := by
  unfold scalar? at h
  split at h
  · rename_i hn
    refine ⟨hn.1, ?_⟩
    rw [← Option.some.inj h, toNat_charOfNat hn.2]
  · cases h

lemma map_scalar?_eq_some {least n : ℕ} {x : Char} {bs rest : Bytes}
    (h : (scalar? least n).map (·, bs) = some (x, rest)) :
    least ≤ x.toNat ∧ x.toNat = n ∧ bs = rest := by
  obtain ⟨y, hy, hxy⟩ := Option.map_eq_some_iff.mp h
  obtain ⟨rfl, rfl⟩ := Prod.mk.inj hxy
  obtain ⟨hl, hn⟩ := scalar?_eq_some hy
  exact ⟨hn ▸ hl, hn, rfl⟩

lemma ofNat_of_toNat {a : UInt8} {n : ℕ} (h : n = a.toNat) : UInt8.ofNat n = a := by
  rw [h, UInt8.ofNat_toNat]

section Widths

variable {a b c d : UInt8} {x : Char}

lemma encodeChar_one (h : x.toNat = a.toNat) (ha : a.toNat < 0x80) :
    String.utf8EncodeChar x = [a] := by
  rw [encodeChar_eq, if_pos (by omega), ofNat_of_toNat h]

lemma encodeChar_two (hl : 0x80 ≤ x.toNat) (ha : a.toNat < 0xe0) (hb : isTail b = true)
    (hx : x.toNat = (a.toNat - 0xc0) * 0x40 + tailBits b) : String.utf8EncodeChar x = [a, b] := by
  rw [isTail_iff] at hb
  unfold tailBits at hx
  rw [encodeChar_eq, if_neg (by omega), if_pos (by omega), ofNat_of_toNat (a := a) (by omega),
    ofNat_of_toNat (a := b) (by omega)]

lemma encodeChar_three (hl : 0x800 ≤ x.toNat) (ha : 0xe0 ≤ a.toNat) (ha' : a.toNat < 0xf0)
    (hb : isTail b = true) (hc : isTail c = true)
    (hx : x.toNat = ((a.toNat - 0xe0) * 0x40 + tailBits b) * 0x40 + tailBits c) :
    String.utf8EncodeChar x = [a, b, c] := by
  rw [isTail_iff] at hb hc
  unfold tailBits at hx
  rw [encodeChar_eq, if_neg (by omega), if_neg (by omega), if_pos (by omega),
    ofNat_of_toNat (a := a) (by omega), ofNat_of_toNat (a := b) (by omega),
    ofNat_of_toNat (a := c) (by omega)]

lemma encodeChar_four (hl : 0x10000 ≤ x.toNat) (ha : 0xf0 ≤ a.toNat) (hb : isTail b = true)
    (hc : isTail c = true) (hd : isTail d = true)
    (hx : x.toNat =
      (((a.toNat - 0xf0) * 0x40 + tailBits b) * 0x40 + tailBits c) * 0x40 + tailBits d) :
    String.utf8EncodeChar x = [a, b, c, d] := by
  have hmax := toNat_lt x
  rw [isTail_iff] at hb hc hd
  unfold tailBits at hx
  rw [encodeChar_eq, if_neg (by omega), if_neg (by omega), if_neg (by omega),
    ofNat_of_toNat (a := a) (by omega), ofNat_of_toNat (a := b) (by omega),
    ofNat_of_toNat (a := c) (by omega), ofNat_of_toNat (a := d) (by omega)]

end Widths

lemma encodeChar_of_decodeChar? {bs rest : Bytes} {x : Char}
    (h : decodeChar? bs = some (x, rest)) : bs = String.utf8EncodeChar x ++ rest := by
  rw [decodeChar?.eq_def] at h
  simp only [UInt8.lt_iff_toNat_lt, UInt8.reduceToNat, Bool.not_eq_true] at h
  split at h
  · cases h
  rename_i a bs
  split at h
  · rename_i ha
    obtain ⟨rfl, rfl⟩ := Prod.mk.inj (Option.some.inj h)
    have hx : (Char.ofNat a.toNat).toNat = a.toNat := toNat_charOfNat (.inl (by omega))
    rw [encodeChar_one hx ha, List.singleton_append]
  rename_i ha
  split at h
  · cases h
  rename_i b bs
  split at h
  · cases h
  rename_i hb
  rw [Bool.not_eq_false] at hb
  split at h
  · rename_i ha'
    split at h
    · cases h
    obtain ⟨hl, hx, rfl⟩ := map_scalar?_eq_some h
    rw [encodeChar_two hl ha' hb hx, List.cons_append, List.singleton_append]
  rename_i ha'
  split at h
  · cases h
  rename_i c bs
  split at h
  · cases h
  rename_i hc
  rw [Bool.not_eq_false] at hc
  split at h
  · rename_i ha''
    obtain ⟨hl, hx, rfl⟩ := map_scalar?_eq_some h
    rw [encodeChar_three hl (by omega) ha'' hb hc hx, List.cons_append, List.cons_append,
      List.singleton_append]
  rename_i ha''
  split at h
  · cases h
  rename_i d bs
  split at h
  · cases h
  rename_i hd
  rw [Bool.not_eq_false] at hd
  obtain ⟨hl, hx, rfl⟩ := map_scalar?_eq_some h
  rw [encodeChar_four hl (by omega) hb hc hd hx, List.cons_append, List.cons_append,
    List.cons_append, List.singleton_append]

lemma flatMap_of_decodeChars {rounds bs : Bytes} {read cs : List Char}
    (h : decodeChars rounds read bs = some cs) :
    ∃ more, cs = read.reverse ++ more ∧ bs = more.flatMap String.utf8EncodeChar := by
  induction rounds generalizing read bs with
  | nil =>
    cases bs with
    | nil => exact ⟨[], by simpa [decodeChars, eq_comm] using h, rfl⟩
    | cons a bs => cases h
  | cons r rounds ih =>
    cases bs with
    | nil => exact ⟨[], by simpa [decodeChars, eq_comm] using h, rfl⟩
    | cons a bs =>
      rw [decodeChars] at h
      split at h
      · rename_i x behind hx
        obtain ⟨more, rfl, rfl⟩ := ih h
        refine ⟨x :: more, by simp, ?_⟩
        rw [encodeChar_of_decodeChar? hx, List.flatMap_cons]
      · cases h

theorem decode?_eq_some_iff {bs : Bytes} {s : String} : decode? bs = some s ↔ bs = encode s := by
  constructor
  · intro h
    obtain ⟨cs, hcs, rfl⟩ := Option.map_eq_some_iff.mp h
    obtain ⟨more, rfl, rfl⟩ := flatMap_of_decodeChars hcs
    simp [encode]
  · rintro rfl
    exact decode?_encode s

lemma prefix_of_flatMap {cs ds : List Char}
    (h : cs.flatMap String.utf8EncodeChar <+: ds.flatMap String.utf8EncodeChar) : cs <+: ds := by
  induction cs generalizing ds with
  | nil => exact List.nil_prefix
  | cons c cs ih =>
    obtain ⟨q, hq⟩ := h
    rw [List.flatMap_cons, List.append_assoc] at hq
    cases ds with
    | nil => simp at hq
    | cons d ds =>
      have hread := congrArg decodeChar? hq
      rw [List.flatMap_cons, decodeChar?_encodeChar, decodeChar?_encodeChar] at hread
      obtain ⟨rfl, hrest⟩ := Prod.mk.inj (Option.some.inj hread)
      rw [List.prefix_cons_inj]
      exact ih ⟨q, hrest⟩

/-! ### Texts are in the order of their bytes -/

lemma encodeChar_lt {c d : Char} (h : c < d) (bs cs : Bytes) :
    String.utf8EncodeChar c ++ bs < String.utf8EncodeChar d ++ cs := by
  have hc := toNat_lt c
  have hd := toNat_lt d
  replace h : c.toNat < d.toNat := h
  rw [encodeChar_eq, encodeChar_eq]
  have hdigits (n : ℕ) : n / 4096 = n / 64 / 64 ∧ n / 262144 = n / 64 / 64 / 64 := by omega
  split_ifs <;> simp (disch := omega) only [List.cons_append, List.nil_append,
    List.cons_lt_cons_iff, UInt8.lt_iff_toNat_lt, ← UInt8.toNat_inj, toNat_ofNat, hdigits] <;> omega

lemma flatMap_lt {cs ds : List Char} (h : cs < ds) :
    cs.flatMap String.utf8EncodeChar < ds.flatMap String.utf8EncodeChar := by
  induction cs generalizing ds with
  | nil =>
    cases ds with
    | nil => simp at h
    | cons d ds =>
      obtain ⟨b, bs, hb⟩ := encodeChar_cons d
      rw [List.flatMap_cons, hb]
      exact List.nil_lt_cons _ _
  | cons c cs ih =>
    cases ds with
    | nil => simp at h
    | cons d ds =>
      rw [List.flatMap_cons, List.flatMap_cons]
      rcases List.cons_lt_cons_iff.mp h with h | ⟨rfl, hrest⟩
      · exact encodeChar_lt h _ _
      · exact List.append_left_lt (ih hrest)

theorem encode_lt {s t : String} (h : s < t) : encode s < encode t :=
  flatMap_lt (String.lt_iff_toList_lt.mp h)

end SettingCatalog.Text.Utf8
