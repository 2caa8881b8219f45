import Mathlib.Data.Nat.Notation
import SettingCatalog.Json.Lexeme
import SettingCatalog.Json.Value

/-! The texts of JSON values. White space may stand around every value and every mark, a character
of a string may be spelled in several ways, and a number is kept as it is written. -/

namespace SettingCatalog.Json

def Blank (w : Bytes) : Prop := ∀ b ∈ w, isSpace b = true

theorem Blank.nil : Blank [] := by simp [Blank]

/-! ### Numbers -/

def Digits (ds : Bytes) : Prop := ds ≠ [] ∧ ∀ b ∈ ds, isDigit b = true

def Whole (ds : Bytes) : Prop := Digits ds ∧ (ds.head? = some 0x30 → ds = [0x30])

inductive Fraction : Bytes → Prop
  | absent : Fraction []
  | given {ds : Bytes} : Digits ds → Fraction (Mark.point :: ds)

inductive Exponent : Bytes → Prop
  | absent : Exponent []
  | given {e : UInt8} {sign ds : Bytes} : e ∈ [Mark.lowerE, Mark.upperE] →
      sign ∈ [[], [Mark.plus], [Mark.minus]] → Digits ds → Exponent (e :: (sign ++ ds))

inductive Unsigned : Bytes → Prop
  | mk {w f e : Bytes} : Whole w → Fraction f → Exponent e → Unsigned (w ++ (f ++ e))

inductive Numeric : Bytes → Prop
  | positive {u : Bytes} : Unsigned u → Numeric u
  | negative {u : Bytes} : Unsigned u → Numeric (Mark.minus :: u)

/-! ### Strings -/

def letters : List (Char × UInt8) :=
  [('"', 0x22), ('\\', 0x5c), ('/', 0x2f), ('\x08', 0x62), ('\x0c', 0x66), ('\n', 0x6e),
    ('\r', 0x72), ('\t', 0x74)]

inductive HexDigit : ℕ → UInt8 → Prop
  | decimal {d : ℕ} {h : UInt8} : d < 10 → h.toNat = 0x30 + d → HexDigit d h
  | lower {d : ℕ} {h : UInt8} : d < 6 → h.toNat = 0x61 + d → HexDigit (10 + d) h
  | upper {d : ℕ} {h : UInt8} : d < 6 → h.toNat = 0x41 + d → HexDigit (10 + d) h

inductive HexWord : ℕ → Bytes → Prop
  | mk {a b c d : ℕ} {h₁ h₂ h₃ h₄ : UInt8} : HexDigit a h₁ → HexDigit b h₂ → HexDigit c h₃ →
      HexDigit d h₄ → HexWord (((a * 16 + b) * 16 + c) * 16 + d) [h₁, h₂, h₃, h₄]

inductive Spelling : Char → Bytes → Prop
  | plain {c : Char} : 0x20 ≤ c.toNat → c ≠ '"' → c ≠ '\\' → Spelling c (String.utf8EncodeChar c)
  | letter {c : Char} {e : UInt8} : (c, e) ∈ letters → Spelling c [Mark.backslash, e]
  | unit {c : Char} {hs : Bytes} : HexWord c.toNat hs →
      Spelling c (Mark.backslash :: Mark.lowerU :: hs)
  | pair {c : Char} {hs ls : Bytes} : 0x10000 ≤ c.toNat →
      HexWord (0xd800 + (c.toNat - 0x10000) / 0x400) hs →
      HexWord (0xdc00 + (c.toNat - 0x10000) % 0x400) ls →
      Spelling c (Mark.backslash :: Mark.lowerU :: (hs ++ Mark.backslash :: Mark.lowerU :: ls))

inductive Quoted : List Char → Bytes → Prop
  | nil : Quoted [] []
  | cons {c : Char} {cs : List Char} {m t : Bytes} : Spelling c m → Quoted cs t →
      Quoted (c :: cs) (m ++ t)

/-! ### Values -/

/-- What stands behind a value begins with white space or the next mark. -/
def Stop (rest : Bytes) : Prop :=
  ∀ b ∈ rest.head?, isSpace b = true ∨ b ∈ [Mark.comma, Mark.closeBracket, Mark.closeBrace]

section Listed

variable {α : Type} (P : α → Bytes → Prop)

inductive Followed : List α → Bytes → Prop
  | nil {w : Bytes} : Blank w → Followed [] w
  | cons {a : α} {as : List α} {w l m t : Bytes} : Blank w → Blank l → P a m → Followed as t →
      Followed (a :: as) (w ++ Mark.comma :: (l ++ (m ++ t)))

inductive Listed : List α → Bytes → Prop
  | nil {w : Bytes} : Blank w → Listed [] w
  | cons {a : α} {as : List α} {l m t : Bytes} : Blank l → P a m → Followed P as t →
      Listed (a :: as) (l ++ (m ++ t))

end Listed

inductive Member (P : Value → Bytes → Prop) : String × Value → Bytes → Prop
  | mk {k : String} {v : Value} {n w l m : Bytes} : Quoted k.toList n → Blank w → Blank l → P v m →
      Member P (k, v) (Mark.quote :: (n ++ Mark.quote :: (w ++ Mark.colon :: (l ++ m))))

inductive Spells : Value → Bytes → Prop
  | null : Spells .null [0x6e, 0x75, 0x6c, 0x6c]
  | yes : Spells (.bool true) [0x74, 0x72, 0x75, 0x65]
  | no : Spells (.bool false) [0x66, 0x61, 0x6c, 0x73, 0x65]
  | number {literal : String} : Numeric (Text.Utf8.encode literal) →
      Spells (.number literal) (Text.Utf8.encode literal)
  | text {s : String} {m : Bytes} : Quoted s.toList m →
      Spells (.text s) (Mark.quote :: (m ++ [Mark.quote]))
  | array {vs : List Value} {m : Bytes} : Listed Spells vs m →
      Spells (.array vs) (Mark.openBracket :: (m ++ [Mark.closeBracket]))
  | object {ms : List (String × Value)} {m : Bytes} : Listed (Member Spells) ms m →
      Spells (.object ms) (Mark.openBrace :: (m ++ [Mark.closeBrace]))

inductive Document : Value → Bytes → Prop
  | mk {v : Value} {l m r : Bytes} : Blank l → Spells v m → Blank r → Document v (l ++ (m ++ r))

end SettingCatalog.Json
