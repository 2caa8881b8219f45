import SettingCatalog.CommandLine.Arguments
import SettingCatalog.Config.File

/-!
The configuration that a command line asks for: the standard one or that of a file, with the values
of the command line in place of its own.
-/

namespace SettingCatalog.CommandLine.Arguments

/-- A configuration in which the values of the command line stand in place of its own. That the
first failure ends the run may be said on either side. -/
def applyTo (a : Arguments) (c : Config) : Config :=
  { c with
    serviceEndpoint := a.endpoint.or c.serviceEndpoint
    rootDirectory := a.root.getD c.rootDirectory
    scanPath := a.scan.or c.scanPath
    fileExtension := a.extension.getD c.fileExtension
    outputPath := a.output.getD c.outputPath
    settingTypeName := a.settingType.getD c.settingTypeName
    propertyAnchorName := a.propertyAnchor.getD c.propertyAnchorName
    treeDir := a.treeDir.or c.treeDir
    cacheDir := a.cacheDir.or c.cacheDir
    jobs := a.jobs.getD c.jobs
    failFast := c.failFast || a.failFast
    format := a.format.getD c.format }

def baseConfig (a : Arguments) (fs : FileSystem) : Except ConfigError Config :=
  match a.config with
  | some path => Config.ofFile fs path
  | none => .ok .standard

/-- The configuration of a command line. It is checked as a whole, so a value that is not allowed
in the file does no harm if the command line replaces it. -/
def configure (a : Arguments) (fs : FileSystem) : Except ConfigError Config :=
  match a.baseConfig fs with
  | .error e => .error e
  | .ok base =>
    match (a.applyTo base).validate with
    | .ok c => .ok c
    | .error e => .error (.invalid e)

end SettingCatalog.CommandLine.Arguments
