/-!
JSON values and their texts: on one line without spaces, or one item a line and indented.
-/

namespace SettingCatalog.Json

/-- A JSON value. A number is kept as it is written, members in their order. -/
inductive Value where
  | null
  | bool (b : Bool)
  | number (literal : String)
  | text (s : String)
  | array (items : List Value)
  | object (members : List (String × Value))

namespace Value

def ofNat (n : Nat) : Value := number (toString n)

def ofText? : Option String → Value
  | none => null
  | some s => text s

end Value

/-- A character inside a quoted string. Quotes, backslashes and controls are escaped, the common
controls by a letter. -/
def escapeChar (c : Char) : List Char :=
  if c = '"' then ['\\', '"']
  else if c = '\\' then ['\\', '\\']
  else if c = '\x08' then ['\\', 'b']
  else if c = '\x0c' then ['\\', 'f']
  else if c = '\n' then ['\\', 'n']
  else if c = '\r' then ['\\', 'r']
  else if c = '\t' then ['\\', 't']
  else if c.toNat < 0x20 then
    ['\\', 'u', '0', '0', Nat.digitChar (c.toNat / 16), Nat.digitChar (c.toNat % 16)]
  else [c]

def quote (s : String) : String := "\"" ++ String.ofList (s.toList.flatMap escapeChar) ++ "\""

namespace Value

def scalar : Value → String
  | bool b => if b then "true" else "false"
  | number literal => literal
  | text s => quote s
  | _ => "null"

mutual

def compact : Value → String
  | array items => "[" ++ compactItems items ++ "]"
  | object members => "\x7b" ++ compactMembers members ++ "\x7d"
  | v => v.scalar

def compactItems : List Value → String
  | [] => ""
  | [v] => compact v
  | v :: vs => compact v ++ "," ++ compactItems vs

def compactMembers : List (String × Value) → String
  | [] => ""
  | [(name, v)] => quote name ++ ":" ++ compact v
  | (name, v) :: ms => quote name ++ ":" ++ compact v ++ "," ++ compactMembers ms

end

def newline (depth : Nat) : String := "\n" ++ "".pushn ' ' (2 * depth)

mutual

def pretty (depth : Nat) : Value → String
  | array [] => "[]"
  | array (v :: vs) => "[" ++ prettyItems (depth + 1) (v :: vs) ++ newline depth ++ "]"
  | object [] => "\x7b\x7d"
  | object (m :: ms) =>
    "\x7b" ++ prettyMembers (depth + 1) (m :: ms) ++ newline depth ++ "\x7d"
  | v => v.scalar

def prettyItems (depth : Nat) : List Value → String
  | [] => ""
  | [v] => newline depth ++ pretty depth v
  | v :: vs => newline depth ++ pretty depth v ++ "," ++ prettyItems depth vs

def prettyMembers (depth : Nat) : List (String × Value) → String
  | [] => ""
  | [(name, v)] => newline depth ++ quote name ++ ": " ++ pretty depth v
  | (name, v) :: ms =>
    newline depth ++ quote name ++ ": " ++ pretty depth v ++ "," ++ prettyMembers depth ms

end

end Value

end SettingCatalog.Json
