import SettingCatalog.Setting.DefaultValue
import SettingCatalog.Setting.Flags
import SettingCatalog.Setting.Record

/-!
The settings of a source file. Candidates are the field declarations of a type `Setting<…>`; each
gives a record, or a diagnostic where its initializer has too few arguments.
-/

namespace SettingCatalog

open Vocabulary Text

structure Extractor where
  settingType : String
  anchor : String
deriving DecidableEq, Repr

structure Extraction where
  records : List Record
  diagnostics : List Diagnostic
deriving DecidableEq, Repr

namespace Extractor

def standard : Extractor := ⟨defaultSettingType, defaultAnchor⟩

def declarations : Query := Query.empty.descendant fieldDeclaration

def fragments : Query := declarations.child variableFragment

def candidates (x : Extractor) : Query :=
  ((((declarations.child parameterizedType).child simpleType).child simpleName).withToken
    x.settingType).parent.parent.parent

def variableName : Query := fragments.child simpleName

def directType : Query :=
  (((declarations.child parameterizedType).child simpleType).withRole typeArgumentsRole).child
    simpleName

def nestedType : Query :=
  (((declarations.child parameterizedType).child parameterizedType).withRole
    typeArgumentsRole).anyChild

def factoryArguments : Query :=
  (fragments.child methodInvocation).anyChild.withRole argumentsRole

def constructorArguments : Query :=
  (fragments.child instanceCreation).anyChild.withRole argumentsRole

def rawName (candidate : Node) : String :=
  ((variableName.first? candidate).map Node.token).getD ""

/-- The token of the first child, or of the node itself if it has none. -/
def leadingToken (n : Node) : String := (n.children.head?.getD n).token

def valueType (candidate : Node) : String :=
  match directType.first? candidate with
  | some name => name.token
  | none => joinTexts " of " ((nestedType.select candidate).map leadingToken)

/-- The arguments of the initializer. A direct construction counts only where no call has any. -/
def arguments (candidate : Node) : List Node :=
  match factoryArguments.select candidate with
  | [] => constructorArguments.select candidate
  | found => found

/-- A record takes a key, a default value and at least one argument more. -/
def extractCandidate (x : Extractor) (candidate : Node) (sourceFile : String) :
    Except Diagnostic Record :=
  let name := rawName candidate
  match arguments candidate with
  | key :: default :: further :: rest =>
    .ok
      { name := key.token
        rawName := name
        valueType := valueType candidate
        properties := Flags.resolve x.anchor (key :: default :: further :: rest)
        defaultValue := DefaultValue.render default
        sourceLine := candidate.line
        sourceFile := sourceFile }
  | few =>
    .error
      { sourceFile := sourceFile
        sourceLine := candidate.line
        rawName := if name.isEmpty then none else some name
        kind := .insufficientArguments few.length }

def extract (x : Extractor) (root : Node) (sourceFile : String) : Extraction :=
  let results := (x.candidates.select root).map (x.extractCandidate · sourceFile)
  { records := results.filterMap Except.toOption
    diagnostics := results.filterMap fun r => match r with
      | .ok _ => none
      | .error d => some d }

end Extractor

end SettingCatalog
