import SettingCatalog.Query.Select
import SettingCatalog.Setting.Vocabulary

/-!
The flags that the arguments of a declaration refer to, in full as `Namespace.Anchor.Flag` or in
short as `Anchor.Flag`.
-/

namespace SettingCatalog.Flags

open Vocabulary

/-- Names of flags behind an anchor with a namespace before it. -/
def longForm (anchor : String) : Query :=
  ((((((Query.empty.descendant qualifiedName).child qualifiedName).child simpleName).withToken
    anchor).parent.parent).child simpleName).withRole nameRole

/-- Names of flags behind a bare anchor. -/
def shortForm (anchor : String) : Query :=
  (((((Query.empty.descendant qualifiedName).child simpleName).withToken anchor).parent).child
    simpleName).withRole nameRole

/-- The flags of one argument. The short form counts only where the long form finds nothing. -/
def ofArgument (anchor : String) (argument : Node) : List String :=
  match (longForm anchor).select argument with
  | [] => ((shortForm anchor).select argument).map Node.token
  | found => found.map Node.token

def resolve (anchor : String) (arguments : List Node) : List String :=
  arguments.flatMap (ofArgument anchor)

end SettingCatalog.Flags
