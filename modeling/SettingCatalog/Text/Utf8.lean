/-!
Texts as bytes. `encode` writes a text in UTF-8; `decode?` reads it back and refuses every other
byte sequence: overlong forms, surrogates and cut characters.
-/

namespace SettingCatalog

abbrev Bytes := List UInt8

namespace Text.Utf8

def encode (s : String) : Bytes := s.toList.flatMap String.utf8EncodeChar

theorem encode_append (s t : String) : encode (s ++ t) = encode s ++ encode t := by
  simp [encode]

def isTail (b : UInt8) : Bool := 0x80 ≤ b && b ≤ 0xbf

def tailBits (b : UInt8) : Nat := b.toNat - 0x80

/-- The character of a code point that is at least `least` and no surrogate. -/
def scalar? (least n : Nat) : Option Char :=
  if least ≤ n ∧ n.isValidChar then some (Char.ofNat n) else none

def decodeChar? : Bytes → Option (Char × Bytes)
  | [] => none
  | a :: rest =>
    if a < 0x80 then some (Char.ofNat a.toNat, rest)
    else match rest with
    | [] => none
    | b :: rest =>
      if ¬ isTail b then none
      else if a < 0xe0 then
        if a < 0xc2 then none
        else (scalar? 0x80 ((a.toNat - 0xc0) * 0x40 + tailBits b)).map (·, rest)
      else match rest with
      | [] => none
      | c :: rest =>
        if ¬ isTail c then none
        else if a < 0xf0 then
          (scalar? 0x800 (((a.toNat - 0xe0) * 0x40 + tailBits b) * 0x40 + tailBits c)).map (·, rest)
        else match rest with
        | [] => none
        | d :: rest =>
          if ¬ isTail d then none
          else
            (scalar? 0x10000 ((((a.toNat - 0xf0) * 0x40 + tailBits b) * 0x40 + tailBits c) * 0x40
              + tailBits d)).map (·, rest)

/-- The characters of a byte sequence behind those already read, the last of them first. Each takes
at least one byte, so the bytes at the beginning bound the rounds. -/
def decodeChars : Bytes → List Char → Bytes → Option (List Char)
  | _, read, [] => some read.reverse
  | [], _, _ :: _ => none
  | _ :: rounds, read, a :: rest =>
    match decodeChar? (a :: rest) with
    | some (c, behind) => decodeChars rounds (c :: read) behind
    | none => none

def decode? (bs : Bytes) : Option String := (decodeChars bs [] bs).map String.ofList

end Text.Utf8

end SettingCatalog
