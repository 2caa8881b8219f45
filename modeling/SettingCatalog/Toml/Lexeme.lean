import SettingCatalog.Toml.Item

/-!
The smallest parts of a TOML document: white space, comments, strings, numbers, dates and times.
Every scanner takes the characters that are left and gives back what it read and the characters
behind it, or nothing.
-/

namespace SettingCatalog.Toml

abbrev Scanner (α : Type) := List Char → Option (α × List Char)

def isSpace (c : Char) : Bool := c == ' ' || c == '\t'

def skipSpace (cs : List Char) : List Char := cs.dropWhile isSpace

def isText (c : Char) : Bool := c == '\t' || (0x20 ≤ c.toNat && c.toNat ≤ 0x7e) || 0x80 ≤ c.toNat

def newline : List Char → Option (List Char)
  | '\n' :: rest => some rest
  | '\r' :: '\n' :: rest => some rest
  | _ => none

def skipComment : List Char → List Char
  | '#' :: rest => rest.dropWhile isText
  | cs => cs

def lineEnd (cs : List Char) : Option (List Char) :=
  match skipComment (skipSpace cs) with
  | [] => some []
  | rest => newline rest

/-- Passes over white space, comments and line breaks. A comment must end with its line. -/
def skipTrivia : Nat → List Char → Option (List Char)
  | 0, cs => some cs
  | rounds + 1, cs =>
    match skipSpace cs with
    | '#' :: rest =>
      match newline (rest.dropWhile isText) with
      | some rest => skipTrivia rounds rest
      | none => none
    | rest =>
      match newline rest with
      | some rest => skipTrivia rounds rest
      | none => some rest

/-! ### Strings -/

def hexValue? (c : Char) : Option Nat :=
  if c.isDigit then some (c.toNat - '0'.toNat)
  else if 'a' ≤ c && c ≤ 'f' then some (c.toNat - 'a'.toNat + 10)
  else if 'A' ≤ c && c ≤ 'F' then some (c.toNat - 'A'.toNat + 10)
  else none

def charOfHex? (ds : List Char) : Option Char := do
  let n ← ds.foldlM (fun n c => (hexValue? c).map (n * 16 + ·)) 0
  if n.isValidChar then some (Char.ofNat n) else none

def escaped? (c : Char) : Option Char :=
  if c = 'b' then some '\x08'
  else if c = 't' then some '\t'
  else if c = 'n' then some '\n'
  else if c = 'f' then some '\x0c'
  else if c = 'r' then some '\r'
  else if c = '"' then some '"'
  else if c = '\\' then some '\\'
  else none

def textOf (read : List Char) : String := String.ofList read.reverse

def basicTail (read : List Char) : Scanner String
  | [] => none
  | '"' :: rest => some (textOf read, rest)
  | '\\' :: 'u' :: a :: b :: c :: d :: rest =>
    match charOfHex? [a, b, c, d] with
    | some x => basicTail (x :: read) rest
    | none => none
  | '\\' :: 'U' :: a :: b :: c :: d :: e :: f :: g :: h :: rest =>
    match charOfHex? [a, b, c, d, e, f, g, h] with
    | some x => basicTail (x :: read) rest
    | none => none
  | '\\' :: c :: rest =>
    match escaped? c with
    | some x => basicTail (x :: read) rest
    | none => none
  | c :: rest => if isText c && c != '\\' then basicTail (c :: read) rest else none

inductive Margin where
  | inside
  | lineEnd
  | lineStart
deriving DecidableEq, Repr

/-- Up to two quotes that stand right behind a closing mark belong to the text. -/
def closeQuotes (quote : Char) (read : List Char) : List Char → String × List Char
  | a :: b :: rest =>
    if a = quote then
      if b = quote then (textOf (b :: a :: read), rest) else (textOf (a :: read), b :: rest)
    else (textOf read, a :: b :: rest)
  | [a] => if a = quote then (textOf (a :: read), []) else (textOf read, [a])
  | [] => (textOf read, [])

def multiBasicTail (margin : Margin) (read : List Char) : Scanner String
  | [] => none
  | '"' :: '"' :: '"' :: rest =>
    if margin = .lineEnd then none else some (closeQuotes '"' read rest)
  | '\r' :: '\n' :: rest =>
    if margin = .inside then multiBasicTail .inside ('\n' :: read) rest
    else multiBasicTail .lineStart read rest
  | '\n' :: rest =>
    if margin = .inside then multiBasicTail .inside ('\n' :: read) rest
    else multiBasicTail .lineStart read rest
  | '\\' :: 'u' :: a :: b :: c :: d :: rest =>
    if margin = .lineEnd then none
    else match charOfHex? [a, b, c, d] with
      | some x => multiBasicTail .inside (x :: read) rest
      | none => none
  | '\\' :: 'U' :: a :: b :: c :: d :: e :: f :: g :: h :: rest =>
    if margin = .lineEnd then none
    else match charOfHex? [a, b, c, d, e, f, g, h] with
      | some x => multiBasicTail .inside (x :: read) rest
      | none => none
  | '\\' :: c :: rest =>
    if margin = .lineEnd then none
    else if isSpace c || c == '\n' || c == '\r' then multiBasicTail .lineEnd read (c :: rest)
    else match escaped? c with
      | some x => multiBasicTail .inside (x :: read) rest
      | none => none
  | c :: rest =>
    if margin ≠ .inside ∧ isSpace c then multiBasicTail margin read rest
    else if margin = .lineEnd then none
    else if isText c && c != '\\' then multiBasicTail .inside (c :: read) rest
    else none

def literalTail (read : List Char) : Scanner String
  | [] => none
  | c :: rest =>
    if c = '\x27' then some (textOf read, rest)
    else if isText c then literalTail (c :: read) rest
    else none

def multiLiteralTail (read : List Char) : Scanner String
  | [] => none
  | '\x27' :: '\x27' :: '\x27' :: rest => some (closeQuotes '\x27' read rest)
  | '\r' :: '\n' :: rest => multiLiteralTail ('\n' :: read) rest
  | '\n' :: rest => multiLiteralTail ('\n' :: read) rest
  | c :: rest => if isText c then multiLiteralTail (c :: read) rest else none

def dropNewline (cs : List Char) : List Char := (newline cs).getD cs

def string : Scanner String
  | '"' :: '"' :: '"' :: rest => multiBasicTail .inside [] (dropNewline rest)
  | '"' :: rest => basicTail [] rest
  | '\x27' :: '\x27' :: '\x27' :: rest => multiLiteralTail [] (dropNewline rest)
  | '\x27' :: rest => literalTail [] rest
  | _ => none

/-! ### Numbers -/

/-- Reads digits, with single underscores between them, after those already read. -/
def moreDigits (isDigit : Char → Bool) (read : List Char) : Scanner (List Char)
  | [] => some (read.reverse, [])
  | '_' :: d :: rest => if isDigit d then moreDigits isDigit (d :: read) rest else none
  | d :: rest =>
    if isDigit d then moreDigits isDigit (d :: read) rest
    else if d = '_' then none
    else some (read.reverse, d :: rest)

def someDigits (isDigit : Char → Bool) : Scanner (List Char)
  | [] => none
  | d :: rest => if isDigit d then moreDigits isDigit [d] rest else none

/-- Reads a sign, if there is one; true for a minus sign. -/
def sign : List Char → Bool × List Char
  | '-' :: rest => (true, rest)
  | '+' :: rest => (false, rest)
  | cs => (false, cs)

def decimalDigits : Scanner (List Char)
  | '0' :: rest => some (['0'], rest)
  | cs => someDigits Char.isDigit cs

def valueOf (base : Nat) (ds : List Char) : Nat :=
  ds.foldl (fun n d => n * base + (hexValue? d).getD 0) 0

def integerItem? (negative : Bool) (n : Nat) : Option Item :=
  if negative then if n ≤ UInt64.size / 2 then some (.integer (-(n : Int))) else none
  else if n < UInt64.size / 2 then some (.integer n) else none

def integer (cs : List Char) : Option (Item × List Char) :=
  let based (base : Nat) (isDigit : Char → Bool) (rest : List Char) :
      Option (Item × List Char) := do
    let (ds, rest) ← someDigits isDigit rest
    return (← integerItem? false (valueOf base ds), rest)
  match cs with
  | '0' :: 'x' :: rest => based 16 (fun c => (hexValue? c).isSome) rest
  | '0' :: 'o' :: rest => based 8 (fun c => '0' ≤ c && c ≤ '7') rest
  | '0' :: 'b' :: rest => based 2 (fun c => c == '0' || c == '1') rest
  | _ => do
    let (negative, rest) := sign cs
    let (ds, rest) ← decimalDigits rest
    return (← integerItem? negative (valueOf 10 ds), rest)

def exponent : Scanner Int
  | c :: rest =>
    if c = 'e' ∨ c = 'E' then do
      let (negative, rest) := sign rest
      let (ds, rest) ← someDigits Char.isDigit rest
      let n : Int := valueOf 10 ds
      return (if negative then -n else n, rest)
    else none
  | [] => none

/-- A number with this many digits before the point is too large, and one with this many zeros
behind it counts as none. -/
def placesLimit : Int := 400

/-- The number nearest to `significand · 10 ^ e`; none where it is too large. The significand has
so many places. -/
def nearest? (significand places : Nat) (e : Int) : Option Binary64 :=
  if significand = 0 then some .zero
  else if placesLimit < e + places then none
  else if e + places < -placesLimit then some .zero
  else if 0 ≤ e then Binary64.ofRatio? (significand * Nat.pow 10 e.toNat) 1
  else Binary64.ofRatio? significand (Nat.pow 10 (-e).toNat)

def realItem? (negative : Bool) (whole fraction : List Char) (e : Int) : Option Item :=
  let ds := (whole ++ fraction).dropWhile (· == '0')
  match nearest? (valueOf 10 ds) ds.length (e - fraction.length) with
  | some x => some (.real (.finite negative x))
  | none => if negative then some (.real (.infinite true)) else none

def real (cs : List Char) : Option (Item × List Char) :=
  let (negative, rest) := sign cs
  match rest with
  | 'i' :: 'n' :: 'f' :: rest => some (.real (.infinite negative), rest)
  | 'n' :: 'a' :: 'n' :: rest => some (.real .notANumber, rest)
  | _ => do
    let (whole, rest) ← decimalDigits rest
    match rest with
    | '.' :: rest =>
      let (fraction, rest) ← someDigits Char.isDigit rest
      match exponent rest with
      | some (e, rest) => return (← realItem? negative whole fraction e, rest)
      | none =>
        match rest with
        | c :: _ => if c = 'e' ∨ c = 'E' then none else
            return (← realItem? negative whole fraction 0, rest)
        | [] => return (← realItem? negative whole fraction 0, rest)
    | _ =>
      let (e, rest) ← exponent rest
      return (← realItem? negative whole [] e, rest)

/-! ### Dates and times -/

def fixedDigits (count : Nat) (cs : List Char) : Option (Nat × List Char) :=
  let ds := cs.take count
  if ds.length = count ∧ ds.all Char.isDigit then some (valueOf 10 ds, cs.drop count) else none

def twoDigits (low high : Nat) (cs : List Char) : Option (Nat × List Char) := do
  let (n, rest) ← fixedDigits 2 cs
  if low ≤ n ∧ n ≤ high then some (n, rest) else none

def mark (c : Char) : List Char → Option (List Char)
  | d :: rest => if d = c then some rest else none
  | [] => none

def isLeapYear (year : Nat) : Bool :=
  year % 4 == 0 && (year % 100 != 0 || year % 400 == 0)

def daysInMonth (year month : Nat) : Nat :=
  if month = 2 then if isLeapYear year then 29 else 28
  else if month = 4 ∨ month = 6 ∨ month = 9 ∨ month = 11 then 30
  else 31

def date (cs : List Char) : Option (List Char) := do
  let (year, rest) ← fixedDigits 4 cs
  let rest ← mark '-' rest
  let (month, rest) ← twoDigits 1 12 rest
  let rest ← mark '-' rest
  let (_, rest) ← twoDigits 1 (daysInMonth year month) rest
  return rest

def time (cs : List Char) : Option (List Char) := do
  let (_, rest) ← twoDigits 0 23 cs
  let rest ← mark ':' rest
  let (_, rest) ← twoDigits 0 59 rest
  let rest ← mark ':' rest
  let (_, rest) ← twoDigits 0 60 rest
  match rest with
  | '.' :: fraction =>
    if (fraction.takeWhile Char.isDigit).isEmpty then none
    else return fraction.dropWhile Char.isDigit
  | _ => return rest

def offset (cs : List Char) : Option (List Char) :=
  match cs with
  | c :: rest =>
    if c = 'Z' ∨ c = 'z' then some rest
    else if c = '+' ∨ c = '-' then do
      let (_, rest) ← twoDigits 0 23 rest
      let rest ← mark ':' rest
      let (_, rest) ← twoDigits 0 59 rest
      return rest
    else some cs
  | [] => some []

def dateTime (cs : List Char) : Option (Item × List Char) :=
  match date cs with
  | some rest =>
    match rest with
    | c :: behind =>
      if c = 'T' ∨ c = 't' ∨ c = ' ' then
        match time behind with
        | some rest => (offset rest).map (.dateTime, ·)
        | none => some (.dateTime, rest)
      else some (.dateTime, rest)
    | [] => some (.dateTime, [])
  | none => (time cs).map (.dateTime, ·)

end SettingCatalog.Toml
