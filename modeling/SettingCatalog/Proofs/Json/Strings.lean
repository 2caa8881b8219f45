import SettingCatalog.Proofs.Json.Grammar
import SettingCatalog.Proofs.Text.Utf8

/-! Strings are read as the grammar spells them. The scan takes a text to pieces and the pieces
make up the bytes of the string; both are followed over the spellings of single characters. -/

namespace SettingCatalog.Json

open Text.Utf8

/-! ### Steps of the scan -/

lemma scan_quote (ps : List Piece) (bs : Bytes) :
    scan ps (Mark.quote :: bs) = (ps.reverse, .ok bs) := by
  rw [scan.eq_def]
  rfl

lemma scan_byte (ps : List Piece) {b : UInt8} (bs : Bytes) (hq : b ≠ Mark.quote)
    (hb : b ≠ Mark.backslash) (hc : ¬ b < 0x20) : scan ps (b :: bs) = scan (.byte b :: ps) bs := by
  rw [scan.eq_def]
  simp [hq, hb, hc]

lemma scan_letter (ps : List Piece) {e b : UInt8} (bs : Bytes) (hu : e ≠ Mark.lowerU)
    (h : escaped? e = some b) :
    scan ps (Mark.backslash :: e :: bs) = scan (.byte b :: ps) bs := by
  have hq : Mark.backslash ≠ Mark.quote := by decide
  rw [scan.eq_def]
  simp [hq, hu, h]

lemma scan_unit (ps : List Piece) {h₁ h₂ h₃ h₄ : UInt8} {n : ℕ} (bs : Bytes)
    (h : codeUnit? h₁ h₂ h₃ h₄ = some n) :
    scan ps (Mark.backslash :: Mark.lowerU :: h₁ :: h₂ :: h₃ :: h₄ :: bs) =
      scan (.unit n :: ps) bs := by
  have hq : Mark.backslash ≠ Mark.quote := by decide
  rw [scan.eq_def]
  simp [hq, h]

/-! ### Digits of code units -/

lemma HexDigit.hexDigit? {d : ℕ} {h : UInt8} (hd : HexDigit d h) : Json.hexDigit? h = some d := by
  unfold Json.hexDigit?
  simp only [Bool.and_eq_true, decide_eq_true_eq, UInt8.le_iff_toNat_le, UInt8.reduceToNat]
  cases hd with
  | decimal hlt hh =>
    rw [if_pos (by omega)]
    congr 1
    omega
  | lower hlt hh =>
    rw [if_neg (by omega), if_pos (by omega)]
    congr 1
    omega
  | upper hlt hh =>
    rw [if_neg (by omega), if_neg (by omega), if_pos (by omega)]
    congr 1
    omega

lemma HexWord.codeUnit? {n : ℕ} {hs : Bytes} (h : HexWord n hs) :
    ∃ h₁ h₂ h₃ h₄, hs = [h₁, h₂, h₃, h₄] ∧ Json.codeUnit? h₁ h₂ h₃ h₄ = some n := by
  cases h with
  | mk ha hb hc hd =>
    refine ⟨_, _, _, _, rfl, ?_⟩
    simp [Json.codeUnit?, ha.hexDigit?, hb.hexDigit?, hc.hexDigit?, hd.hexDigit?]

/-! ### What a text yields -/

def Yields (m text : Bytes) : Prop :=
  ∃ ps, (∀ scanned bs, scan scanned (m ++ bs) = scan (ps.reverse ++ scanned) bs) ∧
    ∀ done qs, assemble done (ps ++ qs) = assemble (text.reverse ++ done) qs

lemma Yields.nil : Yields [] [] := ⟨[], by simp, by simp⟩

lemma Yields.append {m m' text text' : Bytes} (h : Yields m text) (h' : Yields m' text') :
    Yields (m ++ m') (text ++ text') := by
  obtain ⟨ps, hs, ha⟩ := h
  obtain ⟨ps', hs', ha'⟩ := h'
  refine ⟨ps ++ ps', fun scanned bs => ?_, fun done qs => ?_⟩
  · rw [List.append_assoc, hs, hs', List.reverse_append, List.append_assoc]
  · rw [List.append_assoc, ha, ha', List.reverse_append, List.append_assoc]

lemma yields_byte {b : UInt8} (hq : b ≠ Mark.quote) (hb : b ≠ Mark.backslash) (hc : ¬ b < 0x20) :
    Yields [b] [b] :=
  ⟨[.byte b], fun scanned bs => scan_byte scanned bs hq hb hc, fun _ _ => rfl⟩

lemma yields_bytes {bs : Bytes}
    (h : ∀ b ∈ bs, b ≠ Mark.quote ∧ b ≠ Mark.backslash ∧ ¬ b < 0x20) : Yields bs bs := by
  induction bs with
  | nil => exact .nil
  | cons b bs ih =>
    obtain ⟨hq, hb, hc⟩ := h b List.mem_cons_self
    exact (yields_byte hq hb hc).append (ih fun x hx => h x (List.mem_cons_of_mem b hx))

lemma toNat_of_mem_encodeChar {c : Char} {b : UInt8} (h : b ∈ String.utf8EncodeChar c) :
    b.toNat = c.toNat ∨ 0x80 ≤ b.toNat := by
  have high (n : ℕ) (hn : 0x80 ≤ n) (hn' : n < 256) (hb : b = UInt8.ofNat n) : 0x80 ≤ b.toNat := by
    rw [hb, toNat_ofNat hn']
    exact hn
  unfold String.utf8EncodeChar at h
  dsimp only at h
  change b ∈ (if c.toNat ≤ 0x7f then [UInt8.ofNat c.toNat] else if c.toNat ≤ 0x7ff then _ else
    if c.toNat ≤ 0xffff then _ else _) at h
  split at h
  · left
    rw [List.mem_singleton.mp h, toNat_ofNat (by omega)]
  · right
    split at h
    · simp only [List.mem_cons, List.not_mem_nil, or_false] at h
      rcases h with h | h <;> exact high _ (by omega) (by omega) h
    · split at h
      · simp only [List.mem_cons, List.not_mem_nil, or_false] at h
        rcases h with h | h | h <;> exact high _ (by omega) (by omega) h
      · simp only [List.mem_cons, List.not_mem_nil, or_false] at h
        rcases h with h | h | h | h <;> exact high _ (by omega) (by omega) h

lemma yields_letter {c : Char} {e : UInt8} (h : (c, e) ∈ letters) :
    Yields [Mark.backslash, e] (String.utf8EncodeChar c) := by
  have hall : ∀ p ∈ letters, p.2 ≠ Mark.lowerU ∧
      (escaped? p.2).map (fun b => [b]) = some (String.utf8EncodeChar p.1) := by
    decide
  obtain ⟨hu, he⟩ := hall (c, e) h
  obtain ⟨b, hb, hc⟩ := Option.map_eq_some_iff.mp he
  rw [← hc]
  exact ⟨[.byte b], fun scanned bs => scan_letter scanned bs hu hb, fun _ _ => rfl⟩

lemma yields_unit {c : Char} {hs : Bytes} (h : HexWord c.toNat hs) :
    Yields (Mark.backslash :: Mark.lowerU :: hs) (String.utf8EncodeChar c) := by
  obtain ⟨h₁, h₂, h₃, h₄, rfl, hu⟩ := h.codeUnit?
  have hv : c.toNat.isValidChar := c.valid
  simp only [Nat.isValidChar] at hv
  have ht : isTrailing c.toNat = false := by simp [isTrailing]; omega
  have hl : isLeading c.toNat = false := by simp [isLeading]; omega
  refine ⟨[.unit c.toNat], fun scanned bs => scan_unit scanned bs hu, fun done qs => ?_⟩
  rw [List.singleton_append, assemble.eq_def]
  simp [ht, hl, Char.ofNat_toNat]

lemma yields_pair {c : Char} {hs ls : Bytes} (hc : 0x10000 ≤ c.toNat)
    (hh : HexWord (0xd800 + (c.toNat - 0x10000) / 0x400) hs)
    (hl : HexWord (0xdc00 + (c.toNat - 0x10000) % 0x400) ls) :
    Yields (Mark.backslash :: Mark.lowerU :: (hs ++ Mark.backslash :: Mark.lowerU :: ls))
      (String.utf8EncodeChar c) := by
  have hmax := toNat_lt c
  obtain ⟨h₁, h₂, h₃, h₄, rfl, hu⟩ := hh.codeUnit?
  obtain ⟨l₁, l₂, l₃, l₄, rfl, lu⟩ := hl.codeUnit?
  generalize hn : 0xd800 + (c.toNat - 0x10000) / 0x400 = n at hu
  generalize hm : 0xdc00 + (c.toNat - 0x10000) % 0x400 = m at lu
  have hnt : isTrailing n = false := by simp [isTrailing]; omega
  have hnl : isLeading n = true := by simp [isLeading]; omega
  have hmt : isTrailing m = true := by simp [isTrailing]; omega
  have hp : pairPoint n m = c.toNat := by unfold pairPoint; omega
  refine ⟨[.unit n, .unit m], fun scanned bs => ?_, fun done qs => ?_⟩
  · simp only [List.cons_append, List.nil_append]
    rw [scan_unit _ _ hu, scan_unit _ _ lu]
    rfl
  · simp only [List.cons_append, List.nil_append]
    rw [assemble.eq_def]
    simp [hnt, hnl, hmt, hp, Char.ofNat_toNat]

lemma Spelling.yields {c : Char} {m : Bytes} (h : Spelling c m) :
    Yields m (String.utf8EncodeChar c) := by
  cases h with
  | plain hc hq hb =>
    refine yields_bytes fun b hm => ?_
    have hq' : c.toNat ≠ 0x22 := fun h => hq (Char.toNat_inj.mp h)
    have hb' : c.toNat ≠ 0x5c := fun h => hb (Char.toNat_inj.mp h)
    have hn := toNat_of_mem_encodeChar hm
    refine ⟨?_, ?_, ?_⟩
    · rintro rfl
      have : Mark.quote.toNat = 0x22 := rfl
      omega
    · rintro rfl
      have : Mark.backslash.toNat = 0x5c := rfl
      omega
    · rw [lt_iff_of_toNat (k := 0x20) (m := 0x20) rfl rfl]
      omega
  | letter hm => exact yields_letter hm
  | unit hw => exact yields_unit hw
  | pair hc hh hl => exact yields_pair hc hh hl

lemma Quoted.yields {cs : List Char} {m : Bytes} (h : Quoted cs m) :
    Yields m (cs.flatMap String.utf8EncodeChar) := by
  induction h with
  | nil => exact .nil
  | cons hc _ ih => exact hc.yields.append ih

lemma Quoted.scan {cs : List Char} {m : Bytes} (h : Quoted cs m) (rest : Bytes) :
    ∃ ps, Json.scan [] (m ++ Mark.quote :: rest) = (ps, .ok rest) ∧
      assemble [] ps = .ok (cs.flatMap String.utf8EncodeChar) := by
  obtain ⟨ps, hs, ha⟩ := h.yields
  refine ⟨ps, ?_, ?_⟩
  · rw [hs, scan_quote]
    simp
  · have hasm := ha [] []
    simpa [assemble] using hasm

theorem Quoted.stringTail {s : String} {m : Bytes} (h : Quoted s.toList m) (rest : Bytes) :
    Json.stringTail (m ++ Mark.quote :: rest) = .ok (s, rest) := by
  obtain ⟨ps, hs, ha⟩ := h.scan rest
  rw [Json.stringTail, hs]
  simp only [ha]
  rw [← encode, decode?_encode]

theorem Quoted.skipStringTail {cs : List Char} {m : Bytes} (h : Quoted cs m) (rest : Bytes) :
    Json.skipStringTail (m ++ Mark.quote :: rest) = .ok ((), rest) := by
  obtain ⟨ps, hs, -⟩ := h.scan rest
  rw [Json.skipStringTail, hs]

end SettingCatalog.Json
