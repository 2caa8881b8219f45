import SettingCatalog.Json.Fault
import SettingCatalog.Text.Utf8

/-!
The smallest parts of a JSON text: white space, literals, strings and numbers. Every reader takes
the bytes that are left and gives back what it read and the bytes behind it.

A string is scanned into pieces first; `scan` alone decides where it ends. Only a string whose text
is used has its surrogates paired and its bytes checked.
-/

namespace SettingCatalog.Json

abbrev Reader (α : Type) := Bytes → Except Fault (α × Bytes)

namespace Mark

def quote : UInt8 := 0x22
def backslash : UInt8 := 0x5c
def comma : UInt8 := 0x2c
def colon : UInt8 := 0x3a
def openBracket : UInt8 := 0x5b
def closeBracket : UInt8 := 0x5d
def openBrace : UInt8 := 0x7b
def closeBrace : UInt8 := 0x7d
def minus : UInt8 := 0x2d
def plus : UInt8 := 0x2b
def point : UInt8 := 0x2e
def lowerE : UInt8 := 0x65
def upperE : UInt8 := 0x45
def lowerN : UInt8 := 0x6e
def lowerT : UInt8 := 0x74
def lowerF : UInt8 := 0x66
def lowerU : UInt8 := 0x75

end Mark

def isSpace (b : UInt8) : Bool := b == 0x20 || b == 0x9 || b == 0xa || b == 0xd

def skipSpace (bs : Bytes) : Bytes := bs.dropWhile isSpace

def isDigit (b : UInt8) : Bool := 0x30 ≤ b && b ≤ 0x39

def literal : Bytes → Reader Unit
  | [], bs => .ok ((), bs)
  | _ :: _, [] => .error .truncated
  | e :: expected, b :: rest => if b == e then literal expected rest else .error .malformed

def nullTail : Bytes := [0x75, 0x6c, 0x6c]

def trueTail : Bytes := [0x72, 0x75, 0x65]

def falseTail : Bytes := [0x61, 0x6c, 0x73, 0x65]

/-! ### Strings -/

/-- A piece of a string: a byte of its text, or a code unit written with four digits. -/
inductive Piece where
  | byte (b : UInt8)
  | unit (n : Nat)
deriving DecidableEq, Repr

def hexDigit? (b : UInt8) : Option Nat :=
  if 0x30 ≤ b && b ≤ 0x39 then some (b.toNat - 0x30)
  else if 0x61 ≤ b && b ≤ 0x66 then some (b.toNat - 0x61 + 10)
  else if 0x41 ≤ b && b ≤ 0x46 then some (b.toNat - 0x41 + 10)
  else none

def codeUnit? (a b c d : UInt8) : Option Nat := do
  return (((← hexDigit? a) * 16 + (← hexDigit? b)) * 16 + (← hexDigit? c)) * 16 + (← hexDigit? d)

def escaped? (e : UInt8) : Option UInt8 :=
  if e == 0x22 || e == 0x5c || e == 0x2f then some e
  else if e == 0x62 then some 0x8
  else if e == 0x66 then some 0xc
  else if e == 0x6e then some 0xa
  else if e == 0x72 then some 0xd
  else if e == 0x74 then some 0x9
  else none

/-- The pieces of a string behind its opening quote, after those already scanned (the last of them
first), and the bytes behind its closing quote or the fault that stops the scan. -/
def scan (scanned : List Piece) : Bytes → List Piece × Except Fault Bytes
  | [] => (scanned.reverse, .error .truncated)
  | b :: rest =>
    if b == Mark.quote then (scanned.reverse, .ok rest)
    else if b == Mark.backslash then
      match rest with
      | [] => (scanned.reverse, .error .truncated)
      | e :: rest =>
        if e == Mark.lowerU then
          match rest with
          | h₁ :: h₂ :: h₃ :: h₄ :: rest =>
            match codeUnit? h₁ h₂ h₃ h₄ with
            | some n => scan (.unit n :: scanned) rest
            | none => (scanned.reverse, .error .malformed)
          | _ => (scanned.reverse, .error .truncated)
        else
          match escaped? e with
          | some c => scan (.byte c :: scanned) rest
          | none => (scanned.reverse, .error .malformed)
    else if b < 0x20 then (scanned.reverse, .error .malformed)
    else scan (.byte b :: scanned) rest

def isLeading (n : Nat) : Bool := 0xd800 ≤ n && n ≤ 0xdbff

def isTrailing (n : Nat) : Bool := 0xdc00 ≤ n && n ≤ 0xdfff

def pairPoint (leading trailing : Nat) : Nat :=
  0x10000 + (leading - 0xd800) * 0x400 + (trailing - 0xdc00)

inductive Lone where
  | inside
  | atEnd
deriving DecidableEq, Repr

/-- The bytes that pieces stand for, after those already put together (the last of them first). -/
def assemble (done : Bytes) : List Piece → Except Lone Bytes
  | [] => .ok done.reverse
  | .byte b :: rest => assemble (b :: done) rest
  | .unit n :: rest =>
    if isTrailing n then .error .inside
    else if isLeading n then
      match rest with
      | [] => .error .atEnd
      | .byte _ :: _ => .error .inside
      | .unit m :: rest =>
        if isTrailing m then
          assemble ((String.utf8EncodeChar (Char.ofNat (pairPoint n m))).reverse ++ done) rest
        else .error .inside
    else assemble ((String.utf8EncodeChar (Char.ofNat n)).reverse ++ done) rest

def stringTail : Reader String := fun bs =>
  match scan [] bs with
  | (pieces, .ok rest) =>
    match assemble [] pieces with
    | .error _ => .error .malformed
    | .ok text =>
      match Text.Utf8.decode? text with
      | some s => .ok (s, rest)
      | none => .error .malformed
  | (pieces, .error fault) =>
    match assemble [] pieces with
    | .error .inside => .error .malformed
    | _ => .error fault

def skipStringTail : Reader Unit := fun bs =>
  match (scan [] bs).2 with
  | .ok rest => .ok ((), rest)
  | .error fault => .error fault

/-! ### Numbers -/

structure Numeral where
  whole : Bytes
  fraction : Bytes
  exponent : Option (Bool × Bytes)
deriving DecidableEq, Repr

/-- Reads at least one digit. `short` is the fault of a text that ends before it. -/
def digits (short : Fault) : Reader Bytes := fun bs =>
  match bs with
  | [] => .error short
  | b :: _ =>
    if isDigit b then .ok (bs.takeWhile isDigit, bs.dropWhile isDigit) else .error .malformed

def exponentPart (short : Fault) : Reader (Option (Bool × Bytes)) := fun bs =>
  match bs with
  | [] => .ok (none, [])
  | b :: rest =>
    if b == Mark.lowerE || b == Mark.upperE then do
      let (negative, rest) := match rest with
        | s :: rest' =>
          if s == Mark.minus then (true, rest')
          else if s == Mark.plus then (false, rest')
          else (false, rest)
        | [] => (false, rest)
      let (ds, rest) ← digits short rest
      return (some (negative, ds), rest)
    else .ok (none, bs)

def numeral (short : Fault) : Reader Numeral := fun bs => do
  let (whole, rest) ← digits short bs
  if whole.length > 1 && whole.head? == some 0x30 then .error .malformed
  else
    match rest with
    | b :: rest' =>
      if b == Mark.point then do
        let (fraction, rest) ← digits short rest'
        let (exponent, rest) ← exponentPart short rest
        return (⟨whole, fraction, exponent⟩, rest)
      else do
        let (exponent, rest) ← exponentPart short rest
        return (⟨whole, [], exponent⟩, rest)
    | [] => return (⟨whole, [], none⟩, [])

def maxSignificand : Nat := UInt64.size - 1

/-- A significand with as many more digits as it can keep, their number, and how many are left. -/
def absorb (significand taken : Nat) : Bytes → Nat × Nat × Nat
  | [] => (significand, taken, 0)
  | b :: rest =>
    let next := significand * 10 + (b.toNat - 0x30)
    if next ≤ maxSignificand then absorb next (taken + 1) rest
    else (significand, taken, rest.length + 1)

def digitsValue (ds : Bytes) : Nat := ds.foldl (fun n b => n * 10 + (b.toNat - 0x30)) 0

namespace Numeral

/-- The approximation of a numeral: digits beyond the significand are dropped, those before the
point being counted. None for a numeral out of range. -/
def approximate? (n : Numeral) : Option Binary64 :=
  let (s, _, dropped) := absorb 0 0 n.whole
  let (s, taken, _) := absorb s 0 n.fraction
  let e : Int := match n.exponent with
    | none => 0
    | some (true, ds) => -(digitsValue ds : Int)
    | some (false, ds) => digitsValue ds
  Binary64.ofDecimal? s (e + dropped - taken)

def number? (negative : Bool) (n : Numeral) : Option Number :=
  let whole := digitsValue n.whole
  let exact := n.fraction.isEmpty && n.exponent.isNone && whole ≤ maxSignificand
  if exact && !negative then some (.natural whole)
  else if exact && 0 < whole && whole ≤ UInt64.size / 2 then some (.negative whole)
  else n.approximate?.map (.real negative)

end Numeral

def numberTail (negative : Bool) : Reader Number := fun bs => do
  let (n, rest) ← numeral .truncated bs
  match n.number? negative with
  | some x => return (x, rest)
  | none => .error .malformed

end SettingCatalog.Json
