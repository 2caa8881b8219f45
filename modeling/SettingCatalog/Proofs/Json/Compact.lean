import SettingCatalog.Proofs.Json.Numbers

/-! The compact text of a value is one of its texts. -/

namespace SettingCatalog.Json

open Text.Utf8

/-! ### Strings -/

lemma hexDigit_digitChar {d : ℕ} (h : d < 16) :
    ∃ b, String.utf8EncodeChar d.digitChar = [b] ∧ HexDigit d b := by
  by_cases hd : d < 10
  · exact ⟨_, encodeChar_digitChar hd, .decimal hd (toNat_ofNat (by omega))⟩
  · have hall : ∀ i < 6, String.utf8EncodeChar (10 + i).digitChar = [UInt8.ofNat (0x61 + i)] := by
      decide
    obtain ⟨i, rfl⟩ := Nat.exists_eq_add_of_le (Nat.le_of_not_lt hd)
    exact ⟨_, hall i (by omega), .lower (by omega) (toNat_ofNat (by omega))⟩

lemma hexWord_of_lt {n : ℕ} (h : n < 0x20) :
    HexWord n
      (['0', '0', (n / 16).digitChar, (n % 16).digitChar].flatMap String.utf8EncodeChar) := by
  have hz : HexDigit 0 0x30 := .decimal (by decide) rfl
  obtain ⟨a, ha, had⟩ := hexDigit_digitChar (show n / 16 < 16 by omega)
  obtain ⟨b, hb, hbd⟩ := hexDigit_digitChar (show n % 16 < 16 by omega)
  have hn : n = ((0 * 16 + 0) * 16 + n / 16) * 16 + n % 16 := by omega
  have hw := HexWord.mk hz hz had hbd
  rw [← hn] at hw
  have hzero : String.utf8EncodeChar '0' = [0x30] := by decide
  simpa [ha, hb, hzero] using hw

lemma spelling_escapeChar (c : Char) :
    Spelling c ((escapeChar c).flatMap String.utf8EncodeChar) := by
  have hletter : ∀ {e : UInt8} {d : Char}, (c, e) ∈ letters → String.utf8EncodeChar d = [e] →
      Spelling c (['\\', d].flatMap String.utf8EncodeChar) := by
    intro e d he hd
    have hb : String.utf8EncodeChar '\\' = [Mark.backslash] := by decide
    simpa [hb, hd] using Spelling.letter he
  unfold escapeChar
  split_ifs with h₁ h₂ h₃ h₄ h₅ h₆ h₇ h₈
  · exact hletter (e := 0x22) (by simp [h₁, letters]) (by decide)
  · exact hletter (e := 0x5c) (by simp [h₂, letters]) (by decide)
  · exact hletter (e := 0x62) (by simp [h₃, letters]) (by decide)
  · exact hletter (e := 0x66) (by simp [h₄, letters]) (by decide)
  · exact hletter (e := 0x6e) (by simp [h₅, letters]) (by decide)
  · exact hletter (e := 0x72) (by simp [h₆, letters]) (by decide)
  · exact hletter (e := 0x74) (by simp [h₇, letters]) (by decide)
  · have hb : String.utf8EncodeChar '\\' = [Mark.backslash] := by decide
    have hu : String.utf8EncodeChar 'u' = [Mark.lowerU] := by decide
    have hs := Spelling.unit (hexWord_of_lt h₈)
    simpa [hb, hu] using hs
  · rw [List.flatMap_singleton]
    exact .plain (Nat.le_of_not_lt h₈) h₁ h₂

lemma quoted_escape (cs : List Char) :
    Quoted cs ((cs.flatMap escapeChar).flatMap String.utf8EncodeChar) := by
  induction cs with
  | nil => exact .nil
  | cons c cs ih =>
    rw [List.flatMap_cons, List.flatMap_append]
    exact .cons (spelling_escapeChar c) ih

lemma encode_quote (s : String) :
    encode (quote s) = Mark.quote ::
      ((s.toList.flatMap escapeChar).flatMap String.utf8EncodeChar ++ [Mark.quote]) := by
  have hq : encode "\"" = [Mark.quote] := by decide
  rw [quote, encode_append, encode_append, hq, encode, String.toList_ofList]
  rfl

/-! ### Values -/

section Listed

variable {α : Type} {P : α → Bytes → Prop}

lemma Listed.single {a : α} {m : Bytes} (h : P a m) : Listed P [a] m := by
  have hl := Listed.cons Blank.nil h (Followed.nil (P := P) Blank.nil)
  simpa using hl

lemma Listed.push {a b : α} {as : List α} {m t : Bytes} (h : P a m) (ht : Listed P (b :: as) t) :
    Listed P (a :: b :: as) (m ++ Mark.comma :: t) := by
  cases ht with
  | cons hl hb hf => exact .cons Blank.nil h (.cons Blank.nil hl hb hf)

end Listed

inductive Proper : Value → Prop
  | null : Proper .null
  | bool (b : Bool) : Proper (.bool b)
  | number {literal : String} : Numeric (encode literal) → Proper (.number literal)
  | text (s : String) : Proper (.text s)
  | array {vs : List Value} : (∀ v ∈ vs, Proper v) → Proper (.array vs)
  | object {ms : List (String × Value)} : (∀ p ∈ ms, Proper p.2) → Proper (.object ms)

lemma proper_ofNat (n : ℕ) : Proper (.ofNat n) := by
  have hu := Unsigned.mk (whole_toString n) .absent .absent
  rw [List.append_nil, List.append_nil] at hu
  exact .number (.positive hu)

lemma listed_compactItems {vs : List Value} (h : ∀ v ∈ vs, Spells v (encode v.compact)) :
    Listed Spells vs (encode (Value.compactItems vs)) := by
  have hcomma : encode "," = [Mark.comma] := by decide
  induction vs with
  | nil => exact .nil Blank.nil
  | cons v vs ih =>
    have hv := h v List.mem_cons_self
    have hvs := ih fun u hu => h u (List.mem_cons_of_mem v hu)
    cases vs with
    | nil => exact .single hv
    | cons u vs =>
      have hcons : Value.compactItems (v :: u :: vs) =
          v.compact ++ "," ++ Value.compactItems (u :: vs) := rfl
      rw [hcons, encode_append, encode_append, hcomma, List.append_assoc]
      exact .push hv hvs

lemma member_compact {k : String} {v : Value} (h : Spells v (encode v.compact)) :
    Member Spells (k, v) (encode (quote k ++ ":" ++ v.compact)) := by
  have hc : encode ":" = [Mark.colon] := by decide
  have hm := Member.mk (quoted_escape k.toList) Blank.nil Blank.nil h
  simpa [encode_append, encode_quote, hc] using hm

lemma listed_compactMembers {ms : List (String × Value)}
    (h : ∀ p ∈ ms, Spells p.2 (encode p.2.compact)) :
    Listed (Member Spells) ms (encode (Value.compactMembers ms)) := by
  have hcomma : encode "," = [Mark.comma] := by decide
  induction ms with
  | nil => exact .nil Blank.nil
  | cons p ms ih =>
    obtain ⟨k, v⟩ := p
    have hp := member_compact (k := k) (h (k, v) List.mem_cons_self)
    have hms := ih fun q hq => h q (List.mem_cons_of_mem _ hq)
    cases ms with
    | nil => exact .single hp
    | cons q ms =>
      have hcons : Value.compactMembers ((k, v) :: q :: ms) =
          quote k ++ ":" ++ v.compact ++ "," ++ Value.compactMembers (q :: ms) := rfl
      rw [hcons, encode_append, encode_append, hcomma, List.append_assoc]
      exact .push hp hms

theorem Proper.spells {v : Value} (h : Proper v) : Spells v (encode v.compact) := by
  induction h with
  | null => exact .null
  | bool b =>
    cases b with
    | false => exact .no
    | true => exact .yes
  | number hn => exact .number hn
  | text s =>
    have hs : (Value.text s).compact = quote s := rfl
    rw [hs, encode_quote]
    exact .text (quoted_escape s.toList)
  | array _ ih =>
    have hopen : encode "[" = [Mark.openBracket] := by decide
    have hclose : encode "]" = [Mark.closeBracket] := by decide
    rw [Value.compact, encode_append, encode_append, hopen, hclose]
    exact .array (listed_compactItems ih)
  | object _ ih =>
    have hopen : encode "\x7b" = [Mark.openBrace] := by decide
    have hclose : encode "\x7d" = [Mark.closeBrace] := by decide
    rw [Value.compact, encode_append, encode_append, hopen, hclose]
    exact .object (listed_compactMembers ih)

theorem Proper.document {v : Value} (h : Proper v) : Document v (encode v.compact) := by
  have hd := Document.mk Blank.nil h.spells Blank.nil
  rw [List.nil_append, List.append_nil] at hd
  exact hd

end SettingCatalog.Json
