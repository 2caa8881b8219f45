/-!
Texts as a terminal shows them. A control sequence begins with an escape character; what belongs to
it is not shown, and neither are control characters other than blanks. A blank that stands inside a
sequence is shown all the same, together with the text behind it, up to the next control character:
there the sequence goes on.
-/

namespace SettingCatalog.Text.Terminal

inductive Sequence where
  | escape
  | marked
  | function
  | command
  | device
  | deviceParameters
  | deviceMark
  | data
deriving DecidableEq, Repr

inductive Position where
  | outside
  | inside (s : Sequence)
  /-- In text that is shown behind a blank inside a sequence. -/
  | interrupted (s : Sequence)
deriving DecidableEq, Repr

def escapeChar : Char := '\x1b'

def bell : Char := '\x07'

def isCancel (c : Char) : Bool := c == '\x18' || c == '\x1a'

def isControl (c : Char) : Bool := c < ' ' || c == '\x7f'

def isBlankControl (c : Char) : Bool := c == '\t' || c == '\n' || c == '\x0c' || c == '\r'

def isShown (c : Char) : Bool := !isControl c || isBlankControl c

def isMark (c : Char) : Bool := ' ' ≤ c && c ≤ '/'

def isParameter (c : Char) : Bool := '0' ≤ c && c ≤ '?'

def isFinal (c : Char) : Bool := '@' ≤ c && c ≤ '~'

/-- Whether the byte that ends a string is among the bytes of a character behind the first. -/
def endsString (c : Char) : Bool := (String.utf8EncodeChar c).tail.contains 0x9c

namespace Sequence

def showsBlanks : Sequence → Bool
  | escape => true
  | marked => true
  | function => true
  | _ => false

def next (s : Sequence) (c : Char) : Position :=
  match s with
  | escape =>
    if isMark c then .inside marked
    else if c == '[' then .inside function
    else if c == ']' then .inside command
    else if c == 'P' then .inside device
    else if c == 'X' || c == '^' || c == '_' then .inside data
    else if isParameter c || isFinal c then .outside
    else .inside escape
  | marked => if isParameter c || isFinal c then .outside else .inside marked
  | function => if isFinal c then .outside else .inside function
  | command => if c == bell then .outside else .inside command
  | device =>
    if isMark c then .inside deviceMark
    else if isParameter c then .inside deviceParameters
    else if isFinal c then .inside data
    else .inside device
  | deviceParameters =>
    if isMark c then .inside deviceMark
    else if '0' ≤ c && c ≤ ';' then .inside deviceParameters
    else if isParameter c || isFinal c then .inside data
    else .inside deviceParameters
  | deviceMark => if isParameter c || isFinal c then .inside data else .inside deviceMark
  | data => if endsString c then .outside else .inside data

end Sequence

namespace Position

def next (p : Position) (c : Char) : Position :=
  if c == escapeChar then .inside .escape
  else if isCancel c then .outside
  else match p with
    | outside => .outside
    | inside s => if s.showsBlanks && isBlankControl c then .interrupted s else s.next c
    | interrupted s =>
      if !isShown c then .inside s else if c.toNat < 0x80 then .interrupted s else .outside

def shows (p : Position) (c : Char) : Bool :=
  match p with
  | inside s => s.showsBlanks && isBlankControl c
  | _ => isShown c

end Position

def shown : Position → List Char → List Char
  | _, [] => []
  | p, c :: cs =>
    if p.shows c then c :: shown (p.next c) cs else shown (p.next c) cs

def visible (s : String) : String := String.ofList (shown .outside s.toList)

end SettingCatalog.Text.Terminal
