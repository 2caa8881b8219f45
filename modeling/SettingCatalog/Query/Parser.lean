import SettingCatalog.Query.Basic
import SettingCatalog.Text.Alphanumeric
import SettingCatalog.Text.Blank

/-!
Queries from text. A query is a sequence of steps `/..`, `/.`, `/tag`, `//tag` with `*` for any
tag, each followed by predicates `[@name=value]`; a value stands in quotes of either kind, or bare
up to the closing bracket.
-/

namespace SettingCatalog.Query

inductive Expected where
  | slash
  | tag
  | atSign
  | attributeName
  | equals
  | value
  | closeBracket
deriving DecidableEq, Repr

namespace Expected

def describe : Expected → String
  | slash => "`/` or `//`"
  | tag => "node tag"
  | atSign => "`@`"
  | attributeName => "attribute name"
  | equals => "`=`"
  | value => "attribute value"
  | closeBracket => "`]`"

end Expected

inductive DotStep where
  | parent
  | current
deriving DecidableEq, Repr

namespace DotStep

def spelling : DotStep → String
  | parent => ".."
  | current => "."

end DotStep

/-- Why a text is no query. Offsets count characters. -/
inductive ParseError where
  | empty
  | expected (what : Expected) (offset : Nat) (text : String)
  | unterminated (offset : Nat) (text : String)
  | invalidDescendant (step : DotStep) (offset : Nat) (text : String)
deriving DecidableEq, Repr

namespace ParseError

def message : ParseError → String
  | empty => "empty path expression"
  | expected what offset text =>
    "expected " ++ what.describe ++ " at offset " ++ toString offset ++ " in `" ++ text ++ "`"
  | unterminated offset text =>
    "unterminated string literal at offset " ++ toString offset ++ " in `" ++ text ++ "`"
  | invalidDescendant step offset text =>
    "`" ++ step.spelling ++ "` cannot follow `//` (offset " ++ toString offset ++ " in `" ++ text
      ++ "`)"

def offset? : ParseError → Option Nat
  | empty => none
  | expected _ offset _ => some offset
  | unterminated offset _ => some offset
  | invalidDescendant _ offset _ => some offset

end ParseError

/-- A problem at a place, told by the characters that are left there. -/
inductive Problem where
  | expected (what : Expected) (rest : List Char)
  | unterminated (rest : List Char)
  | invalidDescendant (step : DotStep) (rest : List Char)
deriving DecidableEq, Repr

namespace Problem

def locate (text : String) : Problem → ParseError
  | expected what rest => .expected what (text.length - rest.length) text
  | unterminated rest => .unterminated (text.length - rest.length) text
  | invalidDescendant step rest => .invalidDescendant step (text.length - rest.length) text

end Problem

def isNameChar (c : Char) : Bool := Text.isAlphanumeric c || c == '_' || c == '-' || c == '$'

def parseName (what : Expected) (cs : List Char) : Except Problem (String × List Char) :=
  match cs.takeWhile isNameChar with
  | [] => .error (.expected what cs)
  | name => .ok (String.ofList name, cs.dropWhile isNameChar)

def isQuote (c : Char) : Bool := c == '"' || c == '\x27'

def parseValue (cs : List Char) : Except Problem (String × List Char) :=
  match cs with
  | [] => .error (.expected .value cs)
  | c :: rest =>
    if isQuote c then
      match rest.dropWhile (· != c) with
      | [] => .error (.unterminated cs)
      | _ :: behind => .ok (String.ofList (rest.takeWhile (· != c)), behind)
    else
      match cs.takeWhile (· != ']') with
      | [] => .error (.expected .value cs)
      | value => .ok (String.ofList value, cs.dropWhile (· != ']'))

def parseChar (c : Char) (what : Expected) (cs : List Char) : Except Problem (List Char) :=
  match cs with
  | [] => .error (.expected what cs)
  | d :: rest => if d = c then .ok rest else .error (.expected what cs)

def parsePredicate (cs : List Char) : Except Problem (Predicate × List Char) := do
  let cs ← parseChar '@' .atSign cs
  let (name, cs) ← parseName .attributeName cs
  let cs ← parseChar '=' .equals cs
  let (value, cs) ← parseValue cs
  let cs ← parseChar ']' .closeBracket cs
  return (.ofName name value, cs)

/-- Reads as many predicates as there are. Each takes at least one character, so the number of
characters bounds the rounds. -/
def parsePredicates : Nat → List Char → Except Problem (List Predicate × List Char)
  | rounds + 1, '[' :: cs => do
    let (p, cs) ← parsePredicate cs
    let (ps, cs) ← parsePredicates rounds cs
    return (p :: ps, cs)
  | _, cs => .ok ([], cs)

def parseTarget (descends : Bool) (cs : List Char) :
    Except Problem (Axis × Test × List Char) :=
  match cs with
  | '.' :: '.' :: rest =>
    if descends then .error (.invalidDescendant .parent cs) else .ok (.parent, .any, rest)
  | '.' :: rest =>
    if descends then .error (.invalidDescendant .current cs) else .ok (.current, .any, rest)
  | _ =>
    let axis : Axis := if descends then .descendant else .child
    match cs with
    | '*' :: rest => .ok (axis, .any, rest)
    | _ => do
      let (name, rest) ← parseName .tag cs
      return (axis, .tag name, rest)

def parseBehind (descends : Bool) (cs : List Char) : Except Problem (Step × List Char) := do
  let (axis, test, cs) ← parseTarget descends cs
  let (predicates, cs) ← parsePredicates cs.length cs
  return (⟨axis, test, predicates⟩, cs)

def parseStep (cs : List Char) : Except Problem (Step × List Char) := do
  let cs ← parseChar '/' .slash cs
  match cs with
  | '/' :: cs => parseBehind true cs
  | cs => parseBehind false cs

def parseSteps : Nat → List Char → Except Problem (List Step)
  | _, [] => .ok []
  | 0, cs => .error (.expected .slash cs)
  | rounds + 1, cs => do
    let (s, cs) ← parseStep cs
    let steps ← parseSteps rounds cs
    return s :: steps

def parse (text : String) : Except ParseError Query :=
  if Text.isBlankText text then .error .empty
  else
    match parseSteps text.length text.toList with
    | .ok steps => .ok ⟨steps⟩
    | .error p => .error (p.locate text)

end SettingCatalog.Query
