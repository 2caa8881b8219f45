import SettingCatalog.Proofs.Query.Lineage
import SettingCatalog.Setting.Extract

/-! Settings told by the structure of the tree alone: each part of a record is a node that passes a
test while the nodes right above it pass tests of theirs. Extraction by queries gives the same. -/

namespace SettingCatalog

open Vocabulary Text

namespace Structural

def tagged (tag : String) (n : Node) : Bool := n.tag == tag

def playing (role : String) (n : Node) : Bool := n.role == some role

def named (token : String) (n : Node) : Bool := tagged simpleName n && n.token == token

def declares (settingType : String) (n : Node) : Bool :=
  tagged fieldDeclaration n && n.children.any fun p =>
    tagged parameterizedType p && p.children.any fun s =>
      tagged simpleType s && s.children.any (named settingType)

def rawName (c : Node) : String :=
  ((nodesWhere [tagged simpleName, tagged variableFragment, tagged fieldDeclaration] c).head?.map
    Node.token).getD ""

def argumentsOf (call : String) (c : Node) : List Node :=
  nodesWhere
    [playing argumentsRole, tagged call, tagged variableFragment, tagged fieldDeclaration] c

def arguments (c : Node) : List Node :=
  if (argumentsOf methodInvocation c).isEmpty then argumentsOf instanceCreation c
  else argumentsOf methodInvocation c

def directTypes (c : Node) : List Node :=
  nodesWhere [tagged simpleName, fun n => tagged simpleType n && playing typeArgumentsRole n,
    tagged parameterizedType, tagged fieldDeclaration] c

def nestedTypes (c : Node) : List Node :=
  nodesWhere [fun _ => true, fun n => tagged parameterizedType n && playing typeArgumentsRole n,
    tagged parameterizedType, tagged fieldDeclaration] c

def leadingToken (n : Node) : String :=
  match n.children with
  | [] => n.token
  | m :: _ => m.token

def valueType (c : Node) : String :=
  match directTypes c with
  | name :: _ => name.token
  | [] => joinTexts " of " ((nestedTypes c).map leadingToken)

/-- Names below a qualified name that has the anchor among its children. -/
def shortFlags (anchor : String) (argument : Node) : List Node :=
  nodesWhere [fun n => tagged simpleName n && playing nameRole n,
    fun p => tagged qualifiedName p && p.children.any (named anchor)] argument

/-- Names below a qualified name with a qualified name that has the anchor among its children. -/
def longFlags (anchor : String) (argument : Node) : List Node :=
  nodesWhere [fun n => tagged simpleName n && playing nameRole n,
    fun p => tagged qualifiedName p && p.children.any fun r =>
      tagged qualifiedName r && r.children.any (named anchor)] argument

def flags (anchor : String) (argument : Node) : List String :=
  if (longFlags anchor argument).isEmpty then (shortFlags anchor argument).map Node.token
  else (longFlags anchor argument).map Node.token

def candidate (x : Extractor) (file : String) (c : Node) : Except Diagnostic Record :=
  match arguments c with
  | key :: value :: third :: rest =>
    .ok
      { name := key.token
        rawName := rawName c
        valueType := valueType c
        properties := (key :: value :: third :: rest).flatMap (flags x.anchor)
        defaultValue := DefaultValue.render value
        sourceLine := c.line
        sourceFile := file }
  | few =>
    .error
      { sourceFile := file
        sourceLine := c.line
        rawName := if rawName c = "" then none else some (rawName c)
        kind := .insufficientArguments few.length }

def collect (x : Extractor) (file : String) : List Node → Extraction
  | [] => ⟨[], []⟩
  | c :: cs =>
    match candidate x file c, collect x file cs with
    | .ok r, e => { e with records := r :: e.records }
    | .error d, e => { e with diagnostics := d :: e.diagnostics }

def extract (x : Extractor) (root : Node) (file : String) : Extraction :=
  collect x file (nodesWhere [declares x.settingType] root)

/-! ### The queries of the extractor -/

open Query

lemma accepts_tag (x : Axis) (tag : String) : Step.accepts ⟨x, .tag tag, []⟩ = tagged tag := by
  funext n
  simp [Step.accepts, Test.accepts, tagged]

lemma accepts_any (x : Axis) : Step.accepts ⟨x, .any, []⟩ = fun _ => true := by
  funext n
  simp [Step.accepts, Test.accepts]

lemma accepts_named (x : Axis) (token : String) :
    Step.accepts ⟨x, .tag simpleName, [.token token]⟩ = named token := by
  funext n
  simp [Step.accepts, Test.accepts, Predicate.accepts, named, tagged]

lemma accepts_tag_role (x : Axis) (tag role : String) :
    Step.accepts ⟨x, .tag tag, [.role role]⟩ = fun n => tagged tag n && playing role n := by
  funext n
  simp [Step.accepts, Test.accepts, Predicate.accepts, tagged, playing]

lemma accepts_role (x : Axis) (role : String) :
    Step.accepts ⟨x, .any, [.role role]⟩ = playing role := by
  funext n
  simp [Step.accepts, Test.accepts, Predicate.accepts, playing]

lemma asks_declarations : Asks Extractor.declarations [tagged fieldDeclaration] := by
  have h := asks_descendant (.tag fieldDeclaration) []
  rwa [accepts_tag] at h

lemma asks_fragments :
    Asks Extractor.fragments [tagged variableFragment, tagged fieldDeclaration] := by
  have h := asks_declarations.child (.tag variableFragment) []
  rwa [accepts_tag] at h

lemma asks_parameterized : Asks (Extractor.declarations.child parameterizedType)
    [tagged parameterizedType, tagged fieldDeclaration] := by
  have h := asks_declarations.child (.tag parameterizedType) []
  rwa [accepts_tag] at h

lemma asks_candidates (x : Extractor) : Asks x.candidates [declares x.settingType] := by
  have h := (asks_parameterized.child (.tag simpleType) []).child (.tag simpleName)
    [.token x.settingType]
  rw [accepts_tag, accepts_named] at h
  rw [Extractor.candidates, withToken, Query.child, Step.plain, filter_push]
  exact h.parent.parent.parent

lemma asks_variableName : Asks Extractor.variableName
    [tagged simpleName, tagged variableFragment, tagged fieldDeclaration] := by
  have h := asks_fragments.child (.tag simpleName) []
  rwa [accepts_tag] at h

lemma asks_directType : Asks Extractor.directType
    [tagged simpleName, fun n => tagged simpleType n && playing typeArgumentsRole n,
      tagged parameterizedType, tagged fieldDeclaration] := by
  have h := (asks_parameterized.child (.tag simpleType) [.role typeArgumentsRole]).child
    (.tag simpleName) []
  rw [accepts_tag, accepts_tag_role] at h
  exact h

lemma asks_nestedType : Asks Extractor.nestedType
    [fun _ => true, fun n => tagged parameterizedType n && playing typeArgumentsRole n,
      tagged parameterizedType, tagged fieldDeclaration] := by
  have h := (asks_parameterized.child (.tag parameterizedType) [.role typeArgumentsRole]).child
    .any []
  rw [accepts_any, accepts_tag_role] at h
  exact h

lemma asks_argumentsOf (call : String) :
    Asks ((Extractor.fragments.child call).anyChild.withRole argumentsRole)
      [playing argumentsRole, tagged call, tagged variableFragment, tagged fieldDeclaration] := by
  have h := (asks_fragments.child (.tag call) []).child .any [.role argumentsRole]
  rw [accepts_tag, accepts_role] at h
  exact h

lemma asks_shortForm (anchor : String) : Asks (Flags.shortForm anchor)
    [fun n => tagged simpleName n && playing nameRole n,
      fun p => tagged qualifiedName p && p.children.any (named anchor)] := by
  have h := (asks_descendant (.tag qualifiedName) []).child (.tag simpleName) [.token anchor]
  rw [accepts_tag, accepts_named] at h
  have hh := h.parent.child (.tag simpleName) [.role nameRole]
  rw [accepts_tag_role] at hh
  exact hh

lemma asks_longForm (anchor : String) : Asks (Flags.longForm anchor)
    [fun n => tagged simpleName n && playing nameRole n,
      fun p => tagged qualifiedName p && p.children.any fun r =>
        tagged qualifiedName r && r.children.any (named anchor)] := by
  have h := ((asks_descendant (.tag qualifiedName) []).child (.tag qualifiedName) []).child
    (.tag simpleName) [.token anchor]
  rw [accepts_tag, accepts_tag, accepts_named] at h
  have hh := h.parent.parent.child (.tag simpleName) [.role nameRole]
  rw [accepts_tag_role] at hh
  exact hh

/-! ### Records -/

lemma rawName_eq (c : Node) : Extractor.rawName c = rawName c := by
  rw [Extractor.rawName, first?, asks_variableName.select_eq, rawName]

lemma leadingToken_eq (n : Node) : Extractor.leadingToken n = leadingToken n := by
  unfold Extractor.leadingToken leadingToken
  cases n.children <;> rfl

lemma valueType_eq (c : Node) : Extractor.valueType c = valueType c := by
  rw [Extractor.valueType, first?, asks_directType.select_eq, asks_nestedType.select_eq, valueType,
    directTypes, nestedTypes]
  cases nodesWhere [tagged simpleName, fun n => tagged simpleType n && playing typeArgumentsRole n,
      tagged parameterizedType, tagged fieldDeclaration] c with
  | nil => simp only [List.head?_nil, funext leadingToken_eq]
  | cons n ns => rfl

lemma arguments_eq (c : Node) : Extractor.arguments c = arguments c := by
  rw [Extractor.arguments, Extractor.factoryArguments, Extractor.constructorArguments,
    (asks_argumentsOf methodInvocation).select_eq, (asks_argumentsOf instanceCreation).select_eq,
    arguments, argumentsOf, argumentsOf]
  split <;> simp_all

lemma flags_eq (anchor : String) (argument : Node) :
    Flags.ofArgument anchor argument = flags anchor argument := by
  rw [Flags.ofArgument, (asks_longForm anchor).select_eq, (asks_shortForm anchor).select_eq,
    flags, longFlags, shortFlags]
  split <;> simp_all

lemma resolve_eq (anchor : String) (arguments : List Node) :
    Flags.resolve anchor arguments = arguments.flatMap (flags anchor) := by
  rw [Flags.resolve, funext (flags_eq anchor)]

lemma candidate_eq (x : Extractor) (file : String) (c : Node) :
    x.extractCandidate c file = candidate x file c := by
  rcases h : arguments c with _ | ⟨key, _ | ⟨value, _ | ⟨third, rest⟩⟩⟩ <;>
    simp [Extractor.extractCandidate, candidate, arguments_eq, rawName_eq, valueType_eq,
      resolve_eq, h]

lemma collect_eq (x : Extractor) (file : String) (cs : List Node) :
    let results := cs.map (candidate x file)
    collect x file cs =
      { records := results.filterMap Except.toOption
        diagnostics := results.filterMap fun r => match r with
          | .ok _ => none
          | .error d => some d } := by
  induction cs with
  | nil => rfl
  | cons c cs ih =>
    rw [collect, ih, List.map_cons]
    cases candidate x file c <;> rfl

theorem extract_structural (x : Extractor) (root : Node) (file : String) :
    x.extract root file = extract x root file := by
  have hresults : (x.candidates.select root).map (x.extractCandidate · file) =
      (nodesWhere [declares x.settingType] root).map (candidate x file) := by
    rw [(asks_candidates x).select_eq, funext (candidate_eq x file)]
  rw [extract, collect_eq, ← hresults]
  rfl

end Structural

end SettingCatalog
