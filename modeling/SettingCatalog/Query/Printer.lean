import SettingCatalog.Query.Basic

/-!
Queries as text. Values are written between single quotes as they are.
-/

namespace SettingCatalog.Query

namespace Test

def render : Test → String
  | any => "*"
  | tag name => name

end Test

namespace Predicate

def nameAndValue : Predicate → String × String
  | token value => (tokenName, value)
  | role value => (Node.roleAttribute, value)
  | attr name value => (name, value)

def render (p : Predicate) : String :=
  "[@" ++ p.nameAndValue.1 ++ "='" ++ p.nameAndValue.2 ++ "']"

end Predicate

namespace Step

def renderTarget (s : Step) : String :=
  match s.axis with
  | .parent => "/.."
  | .current => "/."
  | .child => "/" ++ s.test.render
  | .descendant => "//" ++ s.test.render

def render (s : Step) : String :=
  s.renderTarget ++ String.join (s.predicates.map Predicate.render)

end Step

def render (q : Query) : String := String.join (q.steps.map Step.render)

end SettingCatalog.Query
