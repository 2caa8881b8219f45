import SettingCatalog.Setting.Export
import SettingCatalog.Text.Terminal

/-!
The options of the command line.
-/

namespace SettingCatalog.CommandLine

open Text.Terminal (visible)

inductive Parameter where
  | config
  | root
  | scan
  | endpoint
  | treeDir
  | cacheDir
  | output
  | format
  | extension
  | settingType
  | propertyAnchor
  | jobs
deriving DecidableEq, Repr

namespace Parameter

def all : List Parameter :=
  [config, root, scan, endpoint, treeDir, cacheDir, output, format, extension, settingType,
    propertyAnchor, jobs]

def long : Parameter → String
  | config => "config"
  | root => "root"
  | scan => "scan"
  | endpoint => "endpoint"
  | treeDir => "tree-dir"
  | cacheDir => "cache-dir"
  | output => "output"
  | format => "format"
  | extension => "extension"
  | settingType => "setting-type"
  | propertyAnchor => "property-anchor"
  | jobs => "jobs"

def short? : Parameter → Option Char
  | config => some 'c'
  | root => some 'r'
  | endpoint => some 'e'
  | output => some 'o'
  | format => some 'f'
  | jobs => some 'j'
  | _ => none

def valueName (p : Parameter) : String :=
  String.ofList (p.long.toList.map fun c => if c = '-' then '_' else c.toUpper)

def shown (p : Parameter) : String := "--" ++ p.long ++ " <" ++ p.valueName ++ ">"

def isPath : Parameter → Bool
  | config => true
  | root => true
  | scan => true
  | treeDir => true
  | cacheDir => true
  | _ => false

end Parameter

inductive Switch where
  | failFast
  | verbose
  | quiet
  | help
  | version
deriving DecidableEq, Repr

namespace Switch

def all : List Switch := [failFast, verbose, quiet, help, version]

def long : Switch → String
  | failFast => "fail-fast"
  | verbose => "verbose"
  | quiet => "quiet"
  | help => "help"
  | version => "version"

def short? : Switch → Option Char
  | failFast => none
  | verbose => some 'v'
  | quiet => some 'q'
  | help => some 'h'
  | version => some 'V'

def shown (s : Switch) : String := "--" ++ s.long

end Switch

inductive Name where
  | parameter (p : Parameter)
  | switch (s : Switch)
deriving DecidableEq, Repr

namespace Name

def ofLong? (s : String) : Option Name :=
  match Parameter.all.find? fun p => p.long == s with
  | some p => some (.parameter p)
  | none => (Switch.all.find? fun x => x.long == s).map .switch

def ofShort? (c : Char) : Option Name :=
  match Parameter.all.find? fun p => p.short? == some c with
  | some p => some (.parameter p)
  | none => (Switch.all.find? fun x => x.short? == some c).map .switch

end Name

structure Arguments where
  config : Option String
  root : Option String
  scan : Option String
  endpoint : Option String
  treeDir : Option String
  cacheDir : Option String
  output : Option String
  format : Option ExportFormat
  extension : Option String
  settingType : Option String
  propertyAnchor : Option String
  jobs : Option UInt64
  switches : List Switch
deriving DecidableEq, Repr

inductive CountFault where
  | empty
  | digit
  | overflow
deriving DecidableEq, Repr

namespace CountFault

def message : CountFault → String
  | empty => "cannot parse integer from empty string"
  | digit => "invalid digit found in string"
  | overflow => "number too large to fit in target type"

end CountFault

inductive UsageError where
  | unknown (argument : String)
  | missingValue (p : Parameter)
  | invalidValue (p : Parameter) (value : String)
  | invalidCount (p : Parameter) (value : String) (cause : CountFault)
  | repeated (option : String)
  | conflict (first second : Switch)
  | unexpectedValue (s : Switch) (value : String)
deriving DecidableEq, Repr

namespace UsageError

/-- The message for the user. What it quotes from the command line stands there as a terminal
shows it. -/
def message : UsageError → String
  | unknown argument => "unexpected argument '" ++ visible argument ++ "' found"
  | missingValue p => "a value is required for '" ++ p.shown ++ "' but none was supplied"
  | invalidValue p value => "invalid value '" ++ visible value ++ "' for '" ++ p.shown ++ "'"
  | invalidCount p value cause =>
    "invalid value '" ++ visible value ++ "' for '" ++ p.shown ++ "': " ++ cause.message
  | repeated option => "the argument '" ++ option ++ "' cannot be used multiple times"
  | conflict first second =>
    "the argument '" ++ first.shown ++ "' cannot be used with '" ++ second.shown ++ "'"
  | unexpectedValue s value =>
    "unexpected value '" ++ visible value ++ "' for '" ++ s.shown
      ++ "' found; no more were expected"

end UsageError

inductive Stop where
  | usage (e : UsageError)
  | help
  | version
deriving DecidableEq, Repr

namespace Arguments

def empty : Arguments :=
  ⟨none, none, none, none, none, none, none, none, none, none, none, none, []⟩

def has (a : Arguments) : Parameter → Bool
  | .config => a.config.isSome
  | .root => a.root.isSome
  | .scan => a.scan.isSome
  | .endpoint => a.endpoint.isSome
  | .treeDir => a.treeDir.isSome
  | .cacheDir => a.cacheDir.isSome
  | .output => a.output.isSome
  | .format => a.format.isSome
  | .extension => a.extension.isSome
  | .settingType => a.settingType.isSome
  | .propertyAnchor => a.propertyAnchor.isSome
  | .jobs => a.jobs.isSome

/-- Digits after a number that was read before them. The first digit that is none or that makes
the number too large is reported. -/
def countDigits (n : Nat) : List Char → Except CountFault Nat
  | [] => .ok n
  | c :: cs =>
    if !c.isDigit then .error .digit
    else
      let next := n * 10 + (c.toNat - '0'.toNat)
      if UInt64.size ≤ next then .error .overflow else countDigits next cs

/-- The number of 64 bits that a text spells. A plus sign may stand before it. -/
def count (s : String) : Except CountFault Nat :=
  match s.toList with
  | [] => .error .empty
  | ['+'] => .error .digit
  | '+' :: ds => countDigits 0 ds
  | ds => countDigits 0 ds

def set (a : Arguments) (p : Parameter) (value : String) : Except UsageError Arguments :=
  if a.has p then .error (.repeated p.shown)
  else if p.isPath && value.isEmpty then .error (.missingValue p)
  else match p with
    | .config => .ok { a with config := some value }
    | .root => .ok { a with root := some value }
    | .scan => .ok { a with scan := some value }
    | .endpoint => .ok { a with endpoint := some value }
    | .treeDir => .ok { a with treeDir := some value }
    | .cacheDir => .ok { a with cacheDir := some value }
    | .output => .ok { a with output := some value }
    | .format =>
      match ExportFormat.ofName? value with
      | some f => .ok { a with format := some f }
      | none =>
        if value.isEmpty then .error (.missingValue p) else .error (.invalidValue p value)
    | .extension => .ok { a with extension := some value }
    | .settingType => .ok { a with settingType := some value }
    | .propertyAnchor => .ok { a with propertyAnchor := some value }
    | .jobs =>
      match count value with
      | .ok n => .ok { a with jobs := some (UInt64.ofNat n) }
      | .error cause => .error (.invalidCount p value cause)

def turnOn (a : Arguments) (s : Switch) : Except Stop Arguments :=
  match s with
  | .help => .error .help
  | .version => .error .version
  | s =>
    if a.switches.contains s then .error (.usage (.repeated s.shown))
    else .ok { a with switches := a.switches ++ [s] }

def failFast (a : Arguments) : Bool := a.switches.contains .failFast

/-- Two options that exclude each other, in the order in which they are given. -/
def conflict? (a : Arguments) : Option UsageError :=
  match a.switches.filter fun s => s == .verbose || s == .quiet with
  | first :: second :: _ => some (.conflict first second)
  | _ => none

end Arguments

end SettingCatalog.CommandLine
