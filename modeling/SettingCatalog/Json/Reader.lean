import SettingCatalog.Json.Lexeme

/-!
Readers for JSON values of a wanted shape. They follow the text: the first problem in reading order
is the one that is reported, and a value of the wrong kind is reported as soon as its kind is known.

The loops over elements and members carry the text that they began with as a bound: every round
passes over at least one byte, so there are no more rounds than bytes. The nesting of a value is
bounded in the same way, since every level has an opening byte of its own.
-/

namespace SettingCatalog.Json

abbrev Stateful (σ : Type) := σ → Bytes → Except Fault (σ × Bytes)

def elements {σ : Type} (element : Stateful σ) : Bytes → Bool → Stateful σ
  | [], _, _, _ => .error .truncated
  | _ :: rounds, first, s, bs =>
    match skipSpace bs with
    | [] => .error .truncated
    | b :: rest =>
      if b == Mark.closeBracket then .ok (s, rest)
      else if first then do
        let (s, rest) ← element s (b :: rest)
        elements element rounds false s rest
      else if b == Mark.comma then do
        let (s, rest) ← element s rest
        elements element rounds false s rest
      else .error .malformed

def memberName {κ : Type} (name : Reader κ) : Reader κ := fun bs =>
  match skipSpace bs with
  | [] => .error .truncated
  | b :: rest =>
    if b == Mark.quote then do
      let (k, rest) ← name rest
      match skipSpace rest with
      | [] => .error .truncated
      | c :: rest => if c == Mark.colon then .ok (k, rest) else .error .malformed
    else .error .malformed

/-- Reads the members of an object behind its opening brace, and the closing one. What has been
read already may rule a name out, which shows before its colon is looked at. -/
def members {σ κ : Type} (name : σ → Reader κ) (member : κ → Stateful σ) :
    Bytes → Bool → Stateful σ
  | [], _, _, _ => .error .truncated
  | _ :: rounds, first, s, bs =>
    match skipSpace bs with
    | [] => .error .truncated
    | b :: rest =>
      if b == Mark.closeBrace then .ok (s, rest)
      else if first then do
        let (k, rest) ← memberName (name s) (b :: rest)
        let (s, rest) ← member k s rest
        members name member rounds false s rest
      else if b == Mark.comma then do
        let (k, rest) ← memberName (name s) rest
        let (s, rest) ← member k s rest
        members name member rounds false s rest
      else .error .malformed

/-! ### Values that are not used -/

/-- Passes over a value. Strings and numbers in it need only be well formed. The first
argument bounds the nesting of the value. -/
def skipValue : Bytes → Reader Unit
  | [], _ => .error .truncated
  | _ :: nesting, bs =>
    match skipSpace bs with
    | [] => .error .truncated
    | b :: rest =>
      if b == Mark.lowerN then literal nullTail rest
      else if b == Mark.lowerT then literal trueTail rest
      else if b == Mark.lowerF then literal falseTail rest
      else if b == Mark.minus then do
        let (_, rest) ← numeral .malformed rest
        return ((), rest)
      else if isDigit b then do
        let (_, rest) ← numeral .malformed (b :: rest)
        return ((), rest)
      else if b == Mark.quote then skipStringTail rest
      else if b == Mark.openBracket then
        elements (fun _ => skipValue nesting) rest true () rest
      else if b == Mark.openBrace then
        members (fun _ => skipStringTail) (fun _ _ => skipValue nesting) rest true () rest
      else .error .malformed

/-! ### Values that are used -/

/-- The fault of a value that is not of the wanted kind. Literals, numbers and strings are read to
their end first. -/
def wrongKind {α : Type} (wanted : Wanted) : Reader α := fun bs =>
  let mismatch (found : Found) : Except Fault (α × Bytes) :=
    .error (.mismatch (.kind found wanted))
  match skipSpace bs with
  | [] => .error .truncated
  | b :: rest =>
    if b == Mark.lowerN then do
      let _ ← literal nullTail rest
      mismatch .null
    else if b == Mark.lowerT then do
      let _ ← literal trueTail rest
      mismatch (.bool true)
    else if b == Mark.lowerF then do
      let _ ← literal falseTail rest
      mismatch (.bool false)
    else if b == Mark.minus then do
      let (n, _) ← numberTail true rest
      mismatch (.number n)
    else if isDigit b then do
      let (n, _) ← numberTail false (b :: rest)
      mismatch (.number n)
    else if b == Mark.quote then do
      let (s, _) ← stringTail rest
      mismatch (.text s)
    else if b == Mark.openBracket then mismatch .sequence
    else if b == Mark.openBrace then mismatch .map
    else .error .malformed

def text : Reader String := fun bs =>
  match skipSpace bs with
  | [] => .error .truncated
  | b :: rest => if b == Mark.quote then stringTail rest else wrongKind .text (b :: rest)

def wordOf : Number → Except Fault UInt32
  | .natural n =>
    if n < UInt32.size then .ok (UInt32.ofNat n)
    else .error (.mismatch (.value (.natural n) .word))
  | .negative n => .error (.mismatch (.value (.negative n) .word))
  | .real neg x => .error (.mismatch (.kind (.number (.real neg x)) .word))

def word : Reader UInt32 := fun bs =>
  match skipSpace bs with
  | [] => .error .truncated
  | b :: rest =>
    if b == Mark.minus then do
      let (n, rest) ← numberTail true rest
      return (← wordOf n, rest)
    else if isDigit b then do
      let (n, rest) ← numberTail false (b :: rest)
      return (← wordOf n, rest)
    else wrongKind .word (b :: rest)

def nullable {α : Type} (value : Reader α) : Reader (Option α) := fun bs =>
  match skipSpace bs with
  | [] => .error .truncated
  | b :: rest =>
    if b == Mark.lowerN then do
      let (_, rest) ← literal nullTail rest
      return (none, rest)
    else do
      let (a, rest) ← value (b :: rest)
      return (some a, rest)

def nullableOr {α : Type} (default : α) (value : Reader α) : Reader α := fun bs => do
  let (a, rest) ← nullable value bs
  return (a.getD default, rest)

def list {α : Type} (value : Reader α) : Reader (List α) := fun bs =>
  match skipSpace bs with
  | [] => .error .truncated
  | b :: rest =>
    if b == Mark.openBracket then do
      let (found, rest) ← elements
        (fun found bs => do
          let (a, rest) ← value bs
          return (a :: found, rest))
        rest true [] rest
      return (found.reverse, rest)
    else wrongKind .sequence (b :: rest)

def dictionary {σ : Type} (put : String → String → σ → σ) (empty : σ) : Reader σ := fun bs =>
  match skipSpace bs with
  | [] => .error .truncated
  | b :: rest =>
    if b == Mark.openBrace then
      members (fun _ => stringTail)
        (fun name s bs => do
          let (value, rest) ← text bs
          return (put name value s, rest))
        rest true empty rest
    else wrongKind .map (b :: rest)

/-! ### Records -/

/-- A field of a record: the names it goes by, whether a draft of the record already holds it, how
its value is read into the draft, and where it may be left out. -/
structure RecordField (σ : Type) where
  name : String
  aliases : List String
  filled : σ → Bool
  read : Stateful σ
  /-- An object may leave the field out. -/
  optional : Bool
  /-- An array may end before the field. -/
  optionalLast : Bool

structure Schema (σ : Type) where
  name : String
  fields : List (RecordField σ)

namespace RecordField

variable {σ α : Type}

def goesBy (f : RecordField σ) (name : String) : Bool :=
  f.name == name || f.aliases.contains name

def required (name : String) (aliases : List String) (value : Reader α) (get : σ → Option α)
    (set : σ → α → σ) : RecordField σ where
  name := name
  aliases := aliases
  filled := fun draft => (get draft).isSome
  read := fun draft bs => do
    let (a, rest) ← value bs
    return (set draft a, rest)
  optional := false
  optionalLast := false

def elective (name : String) (aliases : List String) (value : Reader α) (get : σ → Option α)
    (set : σ → α → σ) : RecordField σ :=
  { required name aliases value get set with optional := true, optionalLast := true }

def electiveMember (name : String) (value : Reader α) (get : σ → Option α)
    (set : σ → α → σ) : RecordField σ :=
  { required name [] value get set with optional := true }

end RecordField

namespace Schema

variable {σ : Type}

/-- Reads the name of a member behind its opening quote: the field that goes by it, if any. A field
may be given once, under whichever name. -/
def fieldName (r : Schema σ) (draft : σ) : Reader (Option (RecordField σ)) := fun bs => do
  let (name, rest) ← stringTail bs
  match r.fields.find? (·.goesBy name) with
  | some f =>
    if f.filled draft then .error (.mismatch (.duplicate f.name)) else .ok (some f, rest)
  | none => .ok (none, rest)

def member : Option (RecordField σ) → Stateful σ
  | some f, draft, bs => f.read draft bs
  | none, draft, bs => do
    let (_, rest) ← skipValue bs bs
    return (draft, rest)

def positions (r : Schema σ) : List (RecordField σ) → Nat → Bool → Stateful σ
  | [], _, _, draft, bs =>
    match skipSpace bs with
    | [] => .error .truncated
    | b :: rest => if b == Mark.closeBracket then .ok (draft, rest) else .error .malformed
  | f :: fields, index, first, draft, bs =>
    match skipSpace bs with
    | [] => .error .truncated
    | b :: rest =>
      if b == Mark.closeBracket then
        if f.optionalLast then positions r fields (index + 1) first draft (b :: rest)
        else .error (.mismatch (.length index (.elements r.name r.fields.length)))
      else if first then do
        let (draft, rest) ← f.read draft (b :: rest)
        positions r fields (index + 1) false draft rest
      else if b == Mark.comma then do
        let (draft, rest) ← f.read draft rest
        positions r fields (index + 1) false draft rest
      else .error .malformed

def missing? (r : Schema σ) (draft : σ) : Option (RecordField σ) :=
  r.fields.find? fun f => !f.filled draft && !f.optional

def read (r : Schema σ) (empty : σ) : Reader σ := fun bs =>
  match skipSpace bs with
  | [] => .error .truncated
  | b :: rest =>
    if b == Mark.openBracket then positions r r.fields 0 true empty rest
    else if b == Mark.openBrace then do
      let (draft, rest) ← members r.fieldName member rest true empty rest
      match r.missing? draft with
      | some f => .error (.mismatch (.missing f.name))
      | none => return (draft, rest)
    else wrongKind (.record r.name) (b :: rest)

end Schema

def whole {α : Type} (value : Reader α) (bs : Bytes) : Except Fault α := do
  let (a, rest) ← value bs
  if (skipSpace rest).isEmpty then return a else .error .malformed

end SettingCatalog.Json
