import Mathlib.Data.List.Forall2
import Mathlib.Data.List.TakeWhile
import SettingCatalog.Proofs.Json.Numbers
import SettingCatalog.Proofs.Json.Strings
import SettingCatalog.Proofs.Result

/-! What readers give on the texts of values. A reader that looks for a shape succeeds on a text
exactly when the value has the shape, wherever the text stands and whatever the white space. -/

namespace SettingCatalog.Json

variable {α β σ κ ι : Type}

/-! ### White space and first bytes -/

lemma skipSpace_blank {w : Bytes} (hw : Blank w) {b : UInt8} (hb : isSpace b = false)
    (rest : Bytes) : skipSpace (w ++ b :: rest) = b :: rest := by
  rw [skipSpace, List.dropWhile_append_of_pos hw, List.dropWhile_cons_of_neg (by simp [hb])]

lemma Stop.mark {b : UInt8} (hb : b ∈ [Mark.comma, Mark.closeBracket, Mark.closeBrace])
    (rest : Bytes) : Stop (b :: rest) := by
  intro c hc
  obtain rfl : b = c := by simpa using hc
  exact .inr hb

lemma Stop.blank {w rest : Bytes} (hw : Blank w) (hr : Stop rest) : Stop (w ++ rest) := by
  cases w with
  | nil => exact hr
  | cons b w =>
    intro c hc
    obtain rfl : b = c := by simpa using hc
    exact .inl (hw b List.mem_cons_self)

lemma Blank.stop {w : Bytes} (hw : Blank w) : Stop w := by
  rw [← List.append_nil w]
  exact .blank hw fun b hb => by simp at hb

def Opens : Value → UInt8 → Prop
  | .null, b => b = Mark.lowerN
  | .bool true, b => b = Mark.lowerT
  | .bool false, b => b = Mark.lowerF
  | .number _, b => b = Mark.minus ∨ isDigit b = true
  | .text _, b => b = Mark.quote
  | .array _, b => b = Mark.openBracket
  | .object _, b => b = Mark.openBrace

lemma Unsigned.opens {u : Bytes} (h : Unsigned u) : ∃ b tl, u = b :: tl ∧ isDigit b = true := by
  cases h with
  | @mk w f e hw =>
    obtain ⟨⟨hne, hall⟩, -⟩ := hw
    cases w with
    | nil => exact absurd rfl hne
    | cons b w => exact ⟨b, w ++ (f ++ e), rfl, hall b List.mem_cons_self⟩

lemma Numeric.opens {m : Bytes} (h : Numeric m) :
    ∃ b tl, m = b :: tl ∧ (b = Mark.minus ∨ isDigit b = true) := by
  cases h with
  | positive hu =>
    obtain ⟨b, tl, he, hb⟩ := hu.opens
    exact ⟨b, tl, he, .inr hb⟩
  | @negative u hu => exact ⟨Mark.minus, u, rfl, .inl rfl⟩

lemma Spells.opens {v : Value} {m : Bytes} (h : Spells v m) : ∃ b tl, m = b :: tl ∧ Opens v b := by
  cases h with
  | number hn => exact hn.opens
  | _ => exact ⟨_, _, rfl, rfl⟩

lemma ne_of_numeric {b c : UInt8} (h : b = Mark.minus ∨ isDigit b = true)
    (hc : c ∈ [Mark.lowerN, Mark.lowerT, Mark.lowerF, Mark.quote, Mark.openBracket, Mark.openBrace,
      Mark.closeBracket, Mark.closeBrace, 0x20, 0x9, 0xa, 0xd]) : b ≠ c := by
  rintro rfl
  simp only [List.mem_cons, List.not_mem_nil, or_false] at hc
  rcases hc with rfl | rfl | rfl | rfl | rfl | rfl | rfl | rfl | rfl | rfl | rfl | rfl <;>
    exact absurd h (by decide)

structure Kind (v : Value) (b : UInt8) : Prop where
  null : b = Mark.lowerN ↔ v = .null
  text : b = Mark.quote ↔ ∃ s, v = .text s
  array : b = Mark.openBracket ↔ ∃ vs, v = .array vs
  object : b = Mark.openBrace ↔ ∃ ms, v = .object ms
  number : b = Mark.minus ∨ isDigit b = true ↔ ∃ literal, v = .number literal

lemma Opens.kind {v : Value} {b : UInt8} (h : Opens v b) : Kind v b := by
  cases v with
  | number l =>
    simp only [Opens] at h
    constructor <;> simp [ne_of_numeric h, h]
  | bool b => cases b <;> simp only [Opens] at h <;> subst h <;> constructor <;> simp <;> decide
  | _ => simp only [Opens] at h; subst h; constructor <;> simp <;> decide

lemma Opens.lacks {v : Value} {b : UInt8} (h : Opens v b) :
    isSpace b = false ∧ b ∉ [Mark.closeBracket, Mark.closeBrace] := by
  cases v with
  | bool b => cases b <;> simp only [Opens] at h <;> subst h <;> decide
  | number l =>
    simp only [Opens] at h
    simp [isSpace, ne_of_numeric h]
  | _ => simp only [Opens] at h; subst h; decide

/-! ### Readers on texts -/

/-- Wherever the text stands, the reader gives what the shape allows, and all of that. -/
def ReadsAs (r : Reader α) (shape : α → Prop) (m : Bytes) : Prop :=
  ∀ w rest, Blank w → Stop rest →
    ∀ a rest', r (w ++ (m ++ rest)) = .ok (a, rest') ↔ shape a ∧ rest' = rest

lemma ReadsAs.congr {r : Reader α} {shape shape' : α → Prop} {m : Bytes} (h : ReadsAs r shape m)
    (hs : ∀ a, shape a ↔ shape' a) : ReadsAs r shape' m := by
  intro w rest hw hr a rest'
  rw [h w rest hw hr, hs]

lemma ReadsAs.bind {r : Reader α} {shape : α → Prop} {m w tail : Bytes} (h : ReadsAs r shape m)
    (hw : Blank w) (ht : Stop tail) (next : α → Bytes → Except Fault β) (x : β) :
    (do let (a, bs) ← r (w ++ (m ++ tail)); next a bs) = .ok x ↔
      ∃ a, shape a ∧ next a tail = .ok x := by
  simp only [ok_of_bind, Prod.exists, h w tail hw ht]
  constructor
  · rintro ⟨a, bs, ⟨ha, rfl⟩, hx⟩
    exact ⟨a, ha, hx⟩
  · rintro ⟨a, ha, hx⟩
    exact ⟨a, tail, ⟨ha, rfl⟩, hx⟩

lemma ReadsAs.map {r : Reader α} {shape : α → Prop} {m : Bytes} (h : ReadsAs r shape m)
    (f : α → β) :
    ReadsAs (fun bs => do let (a, rest) ← r bs; return (f a, rest))
      (fun b => ∃ a, shape a ∧ b = f a) m := by
  intro w rest hw hr b rest'
  rw [h.bind hw hr fun a rest => pure (f a, rest)]
  simp only [ok_of_pure, Prod.mk.injEq]
  constructor
  · rintro ⟨a, ha, rfl, rfl⟩
    exact ⟨⟨a, ha, rfl⟩, rfl⟩
  · rintro ⟨⟨a, ha, rfl⟩, rfl⟩
    exact ⟨a, ha, rfl, rfl⟩

lemma ReadsAs.whole {r : Reader α} {shape : α → Prop} {m w w' : Bytes} (h : ReadsAs r shape m)
    (hw : Blank w) (hw' : Blank w') (a : α) : whole r (w ++ (m ++ w')) = .ok a ↔ shape a := by
  have hempty : (skipSpace w').isEmpty = true := by
    rw [List.isEmpty_iff]
    exact List.dropWhile_eq_nil_iff.mpr hw'
  have hread := h.bind hw hw'.stop
    (fun a rest => if (skipSpace rest).isEmpty then pure a else .error .malformed) a
  simp only [hempty, if_true, ok_of_pure, exists_eq_right] at hread
  exact hread

lemma wrongKind_ne_ok (wanted : Wanted) (bs : Bytes) (x : α × Bytes) :
    wrongKind wanted bs ≠ .ok x := by
  unfold wrongKind
  dsimp only
  split
  · simp
  · repeat' split
    all_goals simp [ok_of_bind]

lemma Spells.skipSpace {v : Value} {m w : Bytes} (h : Spells v m) (hw : Blank w) (rest : Bytes) :
    ∃ b tl, m = b :: tl ∧ Opens v b ∧ Json.skipSpace (w ++ (m ++ rest)) = b :: (tl ++ rest) := by
  obtain ⟨b, tl, rfl, ho⟩ := h.opens
  exact ⟨b, tl, rfl, ho, skipSpace_blank hw ho.lacks.1 _⟩

lemma text_readsAs {v : Value} {m : Bytes} (h : Spells v m) :
    ReadsAs text (fun s => v = .text s) m := by
  intro w rest hw hr s rest'
  obtain ⟨b, tl, rfl, ho, hskip⟩ := h.skipSpace hw rest
  rw [text, hskip]
  by_cases hb : b = Mark.quote
  · obtain ⟨s', rfl⟩ := ho.kind.text.mp hb
    cases h with
    | text hq =>
      simp [hq.stringTail, eq_comm]
  · have hv : v ≠ .text s := fun hv => hb (ho.kind.text.mpr ⟨s, hv⟩)
    simp [hb, hv, wrongKind_ne_ok]

lemma numberTail_ok {n : Numeral} {bs rest : Bytes} (h : numeral .truncated bs = .ok (n, rest))
    (negative : Bool) (x : Number) (rest' : Bytes) :
    numberTail negative bs = .ok (x, rest') ↔ n.number? negative = some x ∧ rest' = rest := by
  simp only [numberTail, h, bind, Except.bind]
  cases n.number? negative with
  | none => simp
  | some y => simp [pure, Except.pure, eq_comm]

lemma word_of_positive {literal : String} {u rest : Bytes} (h : Unsigned u)
    (hl : Text.Utf8.encode literal = u) (hr : Stop rest) (w : UInt32) (rest' : Bytes) :
    (do let (n, rest) ← numberTail false (u ++ rest); return (← wordOf n, rest)) = .ok (w, rest') ↔
      literal = toString w.toNat ∧ rest' = rest := by
  cases h with
  | mk hw hf he =>
    obtain ⟨n, hn, hwhole, hfrac, hexp⟩ := numeral_unsigned .truncated hw hf he hr
    have hword := wordOf_number?_iff n w
    rw [hwhole, hfrac, hexp, ← eq_toString_iff hw hf he hl] at hword
    simp only [ok_of_bind, Prod.exists, numberTail_ok hn, pure, Except.pure, Except.ok.injEq,
      Prod.mk.injEq, ← hword]
    constructor
    · rintro ⟨x, r, ⟨hx, rfl⟩, w', hw', rfl, rfl⟩
      exact ⟨⟨x, hx, hw'⟩, rfl⟩
    · rintro ⟨⟨x, hx, hw'⟩, rfl⟩
      exact ⟨x, rest', ⟨hx, rfl⟩, w, hw', rfl, rfl⟩

lemma word_of_negative {u rest : Bytes} (h : Unsigned u) (hr : Stop rest) (w : UInt32)
    (rest' : Bytes) :
    (do let (n, rest) ← numberTail true (u ++ rest); return (← wordOf n, rest)) ≠
      .ok (w, rest') := by
  cases h with
  | mk hw hf he =>
    obtain ⟨n, hn, -⟩ := numeral_unsigned .truncated hw hf he hr
    simp only [ne_eq, ok_of_bind, Prod.exists, numberTail_ok hn]
    rintro ⟨x, r, ⟨hx, rfl⟩, w', hw', -⟩
    exact wordOf_number?_negative n hx w' hw'

lemma word_readsAs {v : Value} {m : Bytes} (h : Spells v m) :
    ReadsAs word (fun w => v = .ofNat w.toNat) m := by
  intro w rest hw hr a rest'
  obtain ⟨b, tl, rfl, ho, hskip⟩ := h.skipSpace hw rest
  rw [word, hskip]
  by_cases hb : b = Mark.minus ∨ isDigit b = true
  · obtain ⟨literal, rfl⟩ := ho.kind.number.mp hb
    have hn : Numeric (b :: tl) ∧ Text.Utf8.encode literal = b :: tl := by
      generalize hm : b :: tl = m at h
      cases h with
      | number hn => exact ⟨hn, rfl⟩
    obtain ⟨hn, hl⟩ := hn
    have hshape : Value.number literal = .ofNat a.toNat ↔ literal = toString a.toNat := by
      rw [Value.ofNat, Value.number.injEq]
    generalize hm : b :: tl = m at hn
    cases hn with
    | positive hu =>
      subst hm
      have hdigit : isDigit b = true := by
        obtain ⟨c, tl', he, hc⟩ := hu.opens
        rw [(List.cons.inj he).1]
        exact hc
      have hminus : ¬ (b == Mark.minus) = true := by
        simp only [beq_iff_eq]
        rintro rfl
        exact absurd hdigit (by decide)
      dsimp only
      rw [if_neg hminus, if_pos hdigit, hshape]
      exact word_of_positive hu hl hr a rest'
    | @negative u hu =>
      obtain ⟨rfl, rfl⟩ := List.cons.inj hm
      dsimp only
      rw [if_pos (beq_self_eq_true _), hshape]
      constructor
      · exact fun hok => absurd hok (word_of_negative hu hr a rest')
      · rintro ⟨rfl, -⟩
        have hmem := (whole_toString a.toNat).1.2 Mark.minus (by rw [hl]; exact List.mem_cons_self)
        exact absurd hmem (by decide)
  · have hv : v ≠ .ofNat a.toNat := fun hv => hb (ho.kind.number.mpr ⟨_, hv⟩)
    obtain ⟨hminus, hdigit⟩ := not_or.mp hb
    simp [hminus, hdigit, hv, wrongKind_ne_ok]

/-- A value of a shape, or `null` in place of a default. -/
def OrNull (shape : Value → α → Prop) (default : α) (v : Value) (a : α) : Prop :=
  v = .null ∧ a = default ∨ v ≠ .null ∧ shape v a

lemma literal_append (letters rest : Bytes) :
    literal letters (letters ++ rest) = .ok ((), rest) := by
  induction letters with
  | nil => rfl
  | cons b letters ih => simpa [literal] using ih

lemma nullable_readsAs {r : Reader α} {shape : Value → α → Prop} {v : Value} {m : Bytes}
    (h : Spells v m) (hr : ReadsAs r (shape v) m) :
    ReadsAs (nullable r) (OrNull (fun v o => ∃ a, shape v a ∧ o = some a) none v) m := by
  intro w rest hw hstop o rest'
  obtain ⟨b, tl, rfl, ho, hskip⟩ := h.skipSpace hw rest
  rw [nullable, hskip]
  by_cases hb : b = Mark.lowerN
  · obtain rfl := ho.kind.null.mp hb
    cases h with
    | null =>
      have hlit : literal nullTail (0x75 :: 0x6c :: 0x6c :: rest) = .ok ((), rest) :=
        literal_append nullTail rest
      simp [hb, hlit, OrNull, bind, Except.bind, pure, Except.pure, eq_comm]
  · have hv : v ≠ .null := fun hv => hb (ho.kind.null.mpr hv)
    have hmap := hr.map some [] rest Blank.nil hstop o rest'
    simpa [hb, OrNull, hv] using hmap

lemma nullableOr_readsAs {r : Reader α} {shape : Value → α → Prop} {v : Value} {m : Bytes}
    (default : α) (h : Spells v m) (hr : ReadsAs r (shape v) m) :
    ReadsAs (nullableOr default r) (OrNull shape default v) m := by
  refine ((nullable_readsAs h hr).map (·.getD default)).congr fun a => ?_
  by_cases hv : v = .null
  · simp [OrNull, hv]
  · simp only [OrNull, hv, false_and, false_or, ne_eq, not_false_eq_true, true_and]
    constructor
    · rintro ⟨-, ⟨b, hb, rfl⟩, rfl⟩
      exact hb
    · exact fun ha => ⟨some a, ⟨a, ha, rfl⟩, rfl⟩

end SettingCatalog.Json
