import SettingCatalog.Source.Cache
import SettingCatalog.Source.Service
import SettingCatalog.Source.Stored

/-!
Where the trees of a run come from: from files, from a parsing service, and from a cache in front
of either.
-/

namespace SettingCatalog

inductive TreeOrigin where
  | stored (layout : TreeLayout)
  | service (client : Client)
deriving DecidableEq, Repr

namespace TreeOrigin

variable {σ : Type}

def acquire (origin : TreeOrigin) (network : String → Network) (fs : FileSystem) :
    TreeSource Client.Traffic :=
  match origin with
  | stored layout => fun path traffic => (layout.acquire fs path, traffic)
  | service client => client.acquire fs (network client.endpoint)

/-- The trees of an origin, from the files behind an open store that nobody asks. -/
def direct (origin : TreeOrigin) (network : String → Network) :
    TreeSource (OpenStore σ × Client.Traffic) := fun path (x, traffic) =>
  let (tree, traffic) := origin.acquire network x.files path traffic
  (tree, x, traffic)

def cached (origin : TreeOrigin) (network : String → Network) (cache : Cache σ) :
    TreeSource (OpenStore σ × Client.Traffic) :=
  cache.acquire (origin.acquire network)

end TreeOrigin

end SettingCatalog
