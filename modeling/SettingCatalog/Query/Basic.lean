import SettingCatalog.Tree.Node

/-!
Queries on trees. A query is a list of steps; a step goes along an axis and keeps the nodes that
pass its test and all its predicates.
-/

namespace SettingCatalog

namespace Query

inductive Axis where
  | child
  | descendant
  | parent
  | current
deriving DecidableEq, Repr

inductive Test where
  | any
  | tag (name : String)
deriving DecidableEq, Repr

namespace Test

def accepts : Test → Node → Bool
  | any, _ => true
  | tag name, n => n.tag == name

end Test

inductive Predicate where
  | token (value : String)
  | role (value : String)
  | attr (name value : String)
deriving DecidableEq, Repr

namespace Predicate

def tokenName : String := "token"

/-- The predicate `@name = value`: two names stand for the token and the role. -/
def ofName (name value : String) : Predicate :=
  if name = tokenName then token value
  else if name = Node.roleAttribute then role value
  else attr name value

def accepts : Predicate → Node → Bool
  | token value, n => n.token == value
  | role value, n => n.role == some value
  | attr name value, n => n.attributeValue name == some value

end Predicate

structure Step where
  axis : Axis
  test : Test
  predicates : List Predicate
deriving DecidableEq, Repr

namespace Step

def plain (axis : Axis) (test : Test) : Step := ⟨axis, test, []⟩

def accepts (s : Step) (n : Node) : Bool := s.test.accepts n && s.predicates.all (·.accepts n)

end Step

end Query

structure Query where
  steps : List Query.Step
deriving DecidableEq, Repr

namespace Query

def empty : Query := ⟨[]⟩

def push (q : Query) (s : Step) : Query := ⟨q.steps ++ [s]⟩

def descendant (q : Query) (tag : String) : Query := q.push (.plain .descendant (.tag tag))

def child (q : Query) (tag : String) : Query := q.push (.plain .child (.tag tag))

def anyChild (q : Query) : Query := q.push (.plain .child .any)

def parent (q : Query) : Query := q.push (.plain .parent .any)

/-- Steps whose last one asks for one thing more; where there is none, the root is asked. -/
def filterSteps (p : Predicate) : List Step → List Step
  | [] => [⟨.child, .any, [p]⟩]
  | [s] => [{ s with predicates := s.predicates ++ [p] }]
  | s :: steps => s :: filterSteps p steps

def filter (q : Query) (p : Predicate) : Query := ⟨filterSteps p q.steps⟩

def withToken (q : Query) (value : String) : Query := q.filter (.token value)

def withRole (q : Query) (value : String) : Query := q.filter (.role value)

def withAttribute (q : Query) (name value : String) : Query := q.filter (.ofName name value)

end Query

end SettingCatalog
