import Mathlib.Data.List.Induction
import SettingCatalog.Json.Reader
import SettingCatalog.Proofs.Json.Grammar
import SettingCatalog.Proofs.Text.Utf8

/-! Numbers are read as the grammar spells them, and an integer of 32 bits has one text only. -/

namespace SettingCatalog.Json

open Text.Utf8

/-! ### Decimal digits -/

lemma isDigit_iff {b : UInt8} : isDigit b = true ↔ 0x30 ≤ b.toNat ∧ b.toNat ≤ 0x39 := by
  simp [isDigit, UInt8.le_iff_toNat_le]

lemma encodeChar_digitChar {d : ℕ} (h : d < 10) :
    String.utf8EncodeChar d.digitChar = [UInt8.ofNat (0x30 + d)] := by
  have hall : ∀ i < 10, String.utf8EncodeChar i.digitChar = [UInt8.ofNat (0x30 + i)] := by decide
  exact hall d h

lemma encode_toString_of_lt {n : ℕ} (h : n < 10) :
    encode (toString n) = [UInt8.ofNat (0x30 + n)] := by
  rw [encode, Nat.toString_eq_ofList_toDigits, String.toList_ofList, Nat.toDigits_of_lt_base h,
    List.flatMap_singleton, encodeChar_digitChar h]

lemma encode_toString_of_le {n : ℕ} (h : 10 ≤ n) :
    encode (toString n) = encode (toString (n / 10)) ++ [UInt8.ofNat (0x30 + n % 10)] := by
  have hd : n % 10 < 10 := Nat.mod_lt n (by decide)
  simp only [encode, Nat.toString_eq_ofList_toDigits, String.toList_ofList]
  rw [Nat.toDigits_of_base_le (by decide) h, List.flatMap_append, List.flatMap_singleton,
    encodeChar_digitChar hd]

lemma digitsValue_concat (ds : Bytes) (d : UInt8) :
    digitsValue (ds ++ [d]) = digitsValue ds * 10 + (d.toNat - 0x30) := by
  simp [digitsValue]

lemma isDigit_ofNat {d : ℕ} (h : d < 10) : isDigit (UInt8.ofNat (0x30 + d)) = true := by
  rw [isDigit_iff, toNat_ofNat (by omega)]
  omega

lemma head?_concat {ds : Bytes} (d : UInt8) (h : ds ≠ []) : (ds ++ [d]).head? = ds.head? := by
  cases ds with
  | nil => exact absurd rfl h
  | cons => rfl

lemma Digits.concat {ds : Bytes} {d : UInt8} (h : ∀ b ∈ ds, isDigit b = true)
    (hd : isDigit d = true) : Digits (ds ++ [d]) := by
  refine ⟨by simp, fun b hb => ?_⟩
  rcases List.mem_append.mp hb with hb | hb
  · exact h b hb
  · rw [List.mem_singleton.mp hb]
    exact hd

lemma numeral_toString (n : ℕ) :
    Whole (encode (toString n)) ∧ digitsValue (encode (toString n)) = n := by
  induction n using Nat.strongRecOn with
  | ind n ih =>
    by_cases h : n < 10
    · have hn : (UInt8.ofNat (0x30 + n)).toNat = 0x30 + n := toNat_ofNat (by omega)
      have hd : Digits ([] ++ [UInt8.ofNat (0x30 + n)]) := .concat (by simp) (isDigit_ofNat h)
      rw [encode_toString_of_lt h]
      refine ⟨⟨hd, fun hz => by simpa using hz⟩, ?_⟩
      simp only [digitsValue, List.foldl_cons, List.foldl_nil, hn]
      omega
    · obtain ⟨⟨hd, hz⟩, hv⟩ := ih (n / 10) (by omega)
      have hm : n % 10 < 10 := Nat.mod_lt n (by decide)
      rw [encode_toString_of_le (by omega)]
      refine ⟨⟨.concat hd.2 (isDigit_ofNat hm), fun hzero => ?_⟩, ?_⟩
      · -- A zero in front would be all that stands before the last digit.
        rw [head?_concat _ hd.1] at hzero
        rw [hz hzero] at hv
        have h0 : digitsValue [0x30] = 0 := rfl
        omega
      · rw [digitsValue_concat, hv, toNat_ofNat (by omega)]
        omega

lemma whole_toString (n : ℕ) : Whole (encode (toString n)) := (numeral_toString n).1

lemma digitsValue_toString (n : ℕ) : digitsValue (encode (toString n)) = n :=
  (numeral_toString n).2

lemma Whole.encode_digitsValue {w : Bytes} (h : Whole w) :
    encode (toString (digitsValue w)) = w := by
  induction w using List.reverseRecOn with
  | nil => exact absurd rfl h.1.1
  | append_singleton ds d ih =>
    have hd : isDigit d = true := h.1.2 d (by simp)
    rw [isDigit_iff] at hd
    have hback : UInt8.ofNat (0x30 + (d.toNat - 0x30)) = d := by
      rw [Nat.add_sub_cancel' hd.1, UInt8.ofNat_toNat]
    rw [digitsValue_concat]
    by_cases hds : ds = []
    · subst hds
      have h0 : digitsValue [] = 0 := rfl
      rw [h0, Nat.zero_mul, Nat.zero_add, encode_toString_of_lt (by omega), hback, List.nil_append]
    · have hz : ds.head? ≠ some 0x30 := by
        intro hz
        have := h.2 (by rw [head?_concat d hds, hz])
        simp [List.append_eq_cons_iff, hds] at this
      have hw : encode (toString (digitsValue ds)) = ds :=
        ih ⟨⟨hds, fun b hb => h.1.2 b (List.mem_append_left _ hb)⟩, fun hc => absurd hc hz⟩
      have hpos : 0 < digitsValue ds := by
        refine Nat.pos_of_ne_zero fun h0 => hz ?_
        rw [← hw, h0]
        rfl
      rw [encode_toString_of_le (by omega)]
      have hq : (digitsValue ds * 10 + (d.toNat - 0x30)) / 10 = digitsValue ds := by omega
      have hr : (digitsValue ds * 10 + (d.toNat - 0x30)) % 10 = d.toNat - 0x30 := by omega
      rw [hq, hr, hw, hback]

lemma encode_injective {s t : String} (h : encode s = encode t) : s = t := by
  have := congrArg decode? h
  rw [decode?_encode, decode?_encode] at this
  exact Option.some.inj this

/-! ### Reading numbers -/

lemma Stop.lacks {rest : Bytes} (h : Stop rest) {b : UInt8} (hb : b ∈ rest.head?) :
    isDigit b = false ∧ b ≠ Mark.point ∧ b ≠ Mark.lowerE ∧ b ≠ Mark.upperE := by
  have hmem := h b hb
  simp only [isSpace, Bool.or_eq_true, beq_iff_eq, List.mem_cons, List.not_mem_nil,
    or_false] at hmem
  rcases hmem with (((rfl | rfl) | rfl) | rfl) | rfl | rfl | rfl <;> decide

lemma Digits.digits {ds : Bytes} (short : Fault) (h : Digits ds) (rest : Bytes)
    (hr : ∀ b ∈ rest.head?, isDigit b = false) :
    Json.digits short (ds ++ rest) = .ok (ds, rest) := by
  have ht : rest.takeWhile isDigit = [] := by
    cases rest with
    | nil => rfl
    | cons b rest => simp [hr b rfl]
  have hd : rest.dropWhile isDigit = rest := by
    cases rest with
    | nil => rfl
    | cons b rest => simp [hr b rfl]
  obtain ⟨hne, hall⟩ := h
  cases ds with
  | nil => exact absurd rfl hne
  | cons d ds =>
    have hfirst : isDigit d = true := hall d List.mem_cons_self
    rw [List.cons_append, Json.digits, if_pos hfirst, ← List.cons_append,
      List.takeWhile_append_of_pos hall, List.dropWhile_append_of_pos hall, ht, hd,
      List.append_nil]

lemma Exponent.exponentPart {e rest : Bytes} (short : Fault) (h : Exponent e) (hr : Stop rest) :
    ∃ x, Json.exponentPart short (e ++ rest) = .ok (x, rest) ∧ (x = none ↔ e = []) := by
  cases h with
  | absent =>
    refine ⟨none, ?_, by simp⟩
    cases rest with
    | nil => rfl
    | cons b rest =>
      obtain ⟨-, -, hl, hu⟩ := hr.lacks (b := b) rfl
      simp [Json.exponentPart, hl, hu]
  | @given m sign ds hm hs hd =>
    have hread := hd.digits short rest fun b hb => (hr.lacks hb).1
    have hmark : (m == Mark.lowerE || m == Mark.upperE) = true := by simpa using hm
    simp only [List.mem_cons, List.not_mem_nil, or_false] at hs
    rcases hs with rfl | rfl | rfl
    · refine ⟨some (false, ds), ?_, by simp⟩
      obtain ⟨hne, hall⟩ := hd
      cases ds with
      | nil => exact absurd rfl hne
      | cons d ds =>
        have hdig := isDigit_iff.mp (hall d List.mem_cons_self)
        have hminus : d ≠ Mark.minus := by rintro rfl; exact absurd hdig (by decide)
        have hplus : d ≠ Mark.plus := by rintro rfl; exact absurd hdig (by decide)
        simp only [List.nil_append, List.cons_append] at hread ⊢
        simp [Json.exponentPart, hmark, hminus, hplus, hread, bind, Except.bind, pure, Except.pure]
    · refine ⟨some (false, ds), ?_, by simp⟩
      have hpm : (Mark.plus == Mark.minus) = false := rfl
      simp [Json.exponentPart, hmark, hpm, hread, bind, Except.bind, pure, Except.pure]
    · refine ⟨some (true, ds), ?_, by simp⟩
      simp [Json.exponentPart, hmark, hread, bind, Except.bind, pure, Except.pure]

lemma Exponent.lacks {e rest : Bytes} (h : Exponent e) (hr : Stop rest) {b : UInt8}
    (hb : b ∈ (e ++ rest).head?) : isDigit b = false ∧ b ≠ Mark.point := by
  cases h with
  | absent => exact ⟨(hr.lacks hb).1, (hr.lacks hb).2.1⟩
  | @given m sign ds hm hs hd =>
    obtain rfl : m = b := by simpa using hb
    simp only [List.mem_cons, List.not_mem_nil, or_false] at hm
    rcases hm with rfl | rfl
    · decide
    · decide

lemma numeral_unsigned {w f e rest : Bytes} (short : Fault) (hw : Whole w) (hf : Fraction f)
    (he : Exponent e) (hr : Stop rest) :
    ∃ n : Numeral, numeral short (w ++ (f ++ e) ++ rest) = .ok (n, rest) ∧ n.whole = w ∧
      (n.fraction = [] ↔ f = []) ∧ (n.exponent = none ↔ e = []) := by
  obtain ⟨x, hx, hxe⟩ := he.exponentPart short hr
  have hzero : (decide (w.length > 1) && w.head? == some 0x30) = false := by
    rw [Bool.and_eq_false_iff, decide_eq_false_iff_not, beq_eq_false_iff_ne]
    by_cases hz : w.head? = some 0x30
    · exact .inl (by simp [hw.2 hz])
    · exact .inr hz
  cases hf with
  | absent =>
    refine ⟨⟨w, [], x⟩, ?_, rfl, by simp, hxe⟩
    have hsplit := hw.1.digits short (e ++ rest) fun b hb => (he.lacks hr hb).1
    simp only [List.nil_append, List.append_assoc, numeral, hsplit, bind, Except.bind, hzero]
    -- The text behind the digits is looked at before the exponent is read.
    cases hrest : e ++ rest with
    | nil =>
      obtain ⟨rfl, rfl⟩ := List.append_eq_nil_iff.mp hrest
      simp [hxe.mpr rfl, pure, Except.pure]
    | cons b tail =>
      have hp : b ≠ Mark.point := (he.lacks hr (by rw [hrest]; rfl)).2
      rw [hrest] at hx
      simp [hp, hx, pure, Except.pure]
  | @given ds hd =>
    refine ⟨⟨w, ds, x⟩, ?_, rfl, by simp [hd.1], hxe⟩
    have hsplit := hw.1.digits short (Mark.point :: (ds ++ (e ++ rest))) fun b hb => by
      obtain rfl : Mark.point = b := by simpa using hb
      rfl
    have hfrac := hd.digits short (e ++ rest) fun b hb => (he.lacks hr hb).1
    simp [numeral, hsplit, hzero, hfrac, hx, bind, Except.bind, pure, Except.pure]

lemma Unsigned.numeral {u rest : Bytes} (short : Fault) (h : Unsigned u) (hr : Stop rest) :
    ∃ n, Json.numeral short (u ++ rest) = .ok (n, rest) := by
  cases h with
  | mk hw hf he =>
    obtain ⟨n, hn, -⟩ := numeral_unsigned short hw hf he hr
    exact ⟨n, hn⟩

/-! ### Words -/

lemma Digits.eq_append {ds w t : Bytes} (h : Digits ds) (ht : ∀ b ∈ t.head?, isDigit b = false)
    (he : ds = w ++ t) : t = [] := by
  cases t with
  | nil => rfl
  | cons b t =>
    have hb : isDigit b = true := h.2 b (by simp [he])
    rw [ht b rfl] at hb
    exact absurd hb (by decide)

lemma wordOf_number?_negative (n : Numeral) {x : Number} (h : n.number? true = some x)
    (w : UInt32) : wordOf x ≠ .ok w := by
  unfold Numeral.number? at h
  simp only [Bool.not_true, Bool.and_false] at h
  split at h
  · simp at *
  · split at h
    · obtain rfl := Option.some.inj h
      simp [wordOf]
    · obtain ⟨y, -, rfl⟩ := Option.map_eq_some_iff.mp h
      simp [wordOf]

lemma wordOf_number?_iff (n : Numeral) (w : UInt32) :
    (∃ x, n.number? false = some x ∧ wordOf x = .ok w) ↔
      n.fraction = [] ∧ n.exponent = none ∧ digitsValue n.whole = w.toNat := by
  have hw : w.toNat < UInt32.size := w.toNat_lt_size
  have hmax : UInt32.size ≤ maxSignificand := by decide
  unfold Numeral.number?
  simp only [Bool.not_false, Bool.and_true, Bool.and_eq_true, List.isEmpty_iff,
    Option.isNone_iff_eq_none, decide_eq_true_eq]
  constructor
  · rintro ⟨x, hx, hok⟩
    split at hx
    next hexact =>
      obtain rfl := Option.some.inj hx
      rw [wordOf] at hok
      split at hok
      next hlt =>
        obtain rfl := Except.ok.inj hok
        exact ⟨hexact.1.1, hexact.1.2, (UInt32.toNat_ofNat_of_lt hlt).symm⟩
      next => simp at hok
    next =>
      split at hx
      · obtain rfl := Option.some.inj hx
        simp [wordOf] at hok
      · obtain ⟨y, -, rfl⟩ := Option.map_eq_some_iff.mp hx
        simp [wordOf] at hok
  · rintro ⟨hf, he, hv⟩
    refine ⟨.natural (digitsValue n.whole), ?_, ?_⟩
    · rw [if_pos ⟨⟨hf, he⟩, by omega⟩]
    · rw [hv, wordOf, if_pos hw, UInt32.ofNat_toNat]

lemma eq_toString_iff {literal : String} {w f e : Bytes} (hw : Whole w) (hf : Fraction f)
    (he : Exponent e) (hl : encode literal = w ++ (f ++ e)) (n : ℕ) :
    literal = toString n ↔ f = [] ∧ e = [] ∧ digitsValue w = n := by
  have hstop : Stop [] := fun b hb => by simp at hb
  constructor
  · rintro rfl
    have hlacks : ∀ b ∈ (f ++ e).head?, isDigit b = false := by
      intro b hb
      cases hf with
      | absent =>
        rw [List.nil_append, ← List.append_nil e] at hb
        exact (he.lacks hstop hb).1
      | given =>
        obtain rfl : Mark.point = b := by simpa using hb
        rfl
    obtain ⟨rfl, rfl⟩ := List.append_eq_nil_iff.mp ((whole_toString n).1.eq_append hlacks hl)
    refine ⟨rfl, rfl, ?_⟩
    rw [← digitsValue_toString n, hl, List.append_nil, List.append_nil]
  · rintro ⟨rfl, rfl, hv⟩
    apply encode_injective
    rw [hl, ← hv, hw.encode_digitsValue, List.append_nil, List.append_nil]

end SettingCatalog.Json
