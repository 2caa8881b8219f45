import SettingCatalog.Config.File
import SettingCatalog.Files.Walk
import SettingCatalog.Run.Report

/-!
Why the program gives up.
-/

namespace SettingCatalog.Program

inductive Failure where
  | config (cause : ConfigError)
  | cache (folder : String) (cause : TreeError)
  | walk (cause : WalkError)
  | run (cause : RunError)
  | unwritable (path : String) (cause : OsError)
  | flush (cause : TreeError)
deriving DecidableEq, Repr

namespace Failure

def chain : Failure → List String
  | config cause => cause.chain
  | cache folder cause => ("Failed to open tree cache " ++ folder) :: cause.chain
  | walk cause => cause.chain
  | run cause => cause.chain
  | unwritable path cause => ["Failed to write " ++ path, cause.message]
  | flush cause => cause.chain

def message (f : Failure) : String :=
  "setting-miner error: " ++ Text.joinTexts ": " f.chain

end Failure

end SettingCatalog.Program
