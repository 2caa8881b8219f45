import SettingCatalog.Setting.Vocabulary
import SettingCatalog.Text.Blank
import SettingCatalog.Text.Join
import SettingCatalog.Tree.Node

/-!
The text of a default value, by the tag of its tree: literals give their text, calls and
constructions the texts of their parts joined by arrows, everything else its token.
-/

namespace SettingCatalog

open Vocabulary Text

namespace DefaultValue

/-- The text of a number: the attribute goes before the token. -/
def literalText (n : Node) : String := (n.attributeValue tokenAttribute).getD n.token

def lowered (s : String) : String := String.ofList (s.toList.map Char.toLower)

/-- The text of a truth value: its attribute if that is one of the two, else its token. -/
def booleanText (n : Node) : String :=
  match (n.attributeValue booleanAttribute).map fun v => lowered (Text.trim v) with
  | some "true" => "true"
  | some "false" => "false"
  | _ => n.token

def qualifiedText (n : Node) : String := joinTexts "." (n.children.map Node.token)

def callPart (n : Node) : String := if n.tag = numberLiteral then literalText n else n.token

/-- The text of a part of a construction; parts of other kinds have none. -/
def creationPart? (n : Node) : Option String :=
  if n.tag = numberLiteral then some (literalText n)
  else if n.tag = qualifiedName then some (qualifiedText n)
  else none

def render (n : Node) : String :=
  if n.tag = numberLiteral then literalText n
  else if n.tag = booleanLiteral then booleanText n
  else if n.tag = methodInvocation then joinTexts "->" (n.children.map callPart)
  else if n.tag = instanceCreation then joinTexts "->" (n.children.filterMap creationPart?)
  else n.token

end DefaultValue

end SettingCatalog
