import SettingCatalog.Files.OsError
import SettingCatalog.Json.Fault
import SettingCatalog.Tree.Node

/-!
Sources of trees, and why a source gives no tree for a file.
-/

namespace SettingCatalog

inductive ProtocolFault where
  | closed
  | invalidResponse (cause : Json.Fault)
  | successWithoutData
deriving DecidableEq, Repr

namespace ProtocolFault

def message : ProtocolFault → String
  | closed => "connection closed before response"
  | invalidResponse _ => "invalid response"
  | successWithoutData => "success response without data"

end ProtocolFault

inductive TreeError where
  | unreadable (path : String) (cause : OsError)
  | undecodable (path : String) (cause : Json.Fault)
  | unreachable (endpoint : String) (cause : OsError)
  | protocol (fault : ProtocolFault)
  | rejected (path message : String)
  | cache (cause : String)
deriving DecidableEq, Repr

namespace TreeError

def message : TreeError → String
  | unreadable path cause => "failed to read " ++ path ++ ": " ++ cause.message
  | undecodable path _ => "failed to decode tree for " ++ path
  | unreachable endpoint cause =>
    "tree service at " ++ endpoint ++ " unreachable: " ++ cause.message
  | protocol fault => "tree service protocol error: " ++ fault.message
  | rejected path message => "tree service could not parse " ++ path ++ ": " ++ message
  | cache cause => "tree cache error: " ++ cause

def chain (e : TreeError) : List String :=
  e.message :: match e with
    | unreadable _ cause => [cause.message]
    | unreachable _ cause => [cause.message]
    | _ => []

/-- Whether the same request may succeed another time. -/
def isTransient : TreeError → Bool
  | unreachable _ _ => true
  | protocol _ => true
  | _ => false

end TreeError

/-- Gives the trees of source files, one at a time, with a state of its own. -/
abbrev TreeSource (σ : Type) := String → σ → Except TreeError Node × σ

end SettingCatalog
