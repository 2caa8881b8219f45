import SettingCatalog.Proofs.Setting.Composition
import SettingCatalog.Proofs.Tree.Aligned

/-! The two ways to build a setting: a call of a factory and a construction. Where no declaration
lies inside another one, calls can be turned into constructions of the same arguments, in any of the
declarations, and nothing else is extracted. -/

namespace SettingCatalog

open Vocabulary

namespace Structural

/-- A construction with the arguments of a call. The other children may differ. -/
structure Replaces (call creation : Node) : Prop where
  fields : creation = { call with tag := instanceCreation, children := creation.children }
  arguments : creation.children.filter (playing argumentsRole) =
    call.children.filter (playing argumentsRole)
  others : ∀ n ∈ creation.children, playing argumentsRole n = false →
    nodesWhere [tagged fieldDeclaration] n = []

/-- A child of a variable that has no constructions yet: a call gives way to a construction. -/
inductive Rebuilt : Node → Node → Prop
  | call {m m' : Node} : m.tag = methodInvocation → Replaces m m' → Rebuilt m m'
  | other {m : Node} : m.tag ≠ methodInvocation → m.tag ≠ instanceCreation → Rebuilt m m

inductive RebuiltVariable : Node → Node → Prop
  | fragment {f : Node} {ms : List Node} : f.tag = variableFragment →
      List.Forall₂ Rebuilt f.children ms → RebuiltVariable f { f with children := ms }
  | other {f : Node} : f.tag ≠ variableFragment → RebuiltVariable f f

inductive Restyled : Node → Node → Prop
  | node {n : Node} {ns : List Node} : List.Forall₂ Restyled n.children ns →
      Restyled n { n with children := ns }
  | declaration {c : Node} {ns : List Node} : c.tag = fieldDeclaration →
      List.Forall₂ RebuiltVariable c.children ns → Restyled c { c with children := ns }

def Flat (t : Node) : Prop :=
  ∀ c ∈ nodesWhere [tagged fieldDeclaration] t, NoneBelow (tagged fieldDeclaration) c

/-! ### Trees without declarations -/

lemma nodesWhere_single_eq_nil {t : Node → Bool} {n : Node} :
    nodesWhere [t] n = [] ↔ t n = false ∧ NoneBelow t n := by
  rw [nodesWhere_single, List.append_eq_nil_iff, List.flatMap_eq_nil_iff]
  cases t n <;> simp [NoneBelow]

lemma Flat.child {n m : Node} (h : Flat n) (hm : m ∈ n.children) : Flat m := by
  intro c hc
  apply h c
  rw [nodesWhere_single]
  exact List.mem_append_right _ (List.mem_flatMap.mpr ⟨m, hm, hc⟩)

lemma Flat.noneBelow {c : Node} (h : Flat c) (hc : c.tag = fieldDeclaration) :
    NoneBelow (tagged fieldDeclaration) c := by
  apply h c
  rw [nodesWhere_single, tagged_self hc]
  exact List.mem_append_left _ List.mem_cons_self

lemma declares_none (settingType : String) {n : Node}
    (h : nodesWhere [tagged fieldDeclaration] n = []) :
    nodesWhere [declares settingType] n = [] := by
  rw [nodesWhere_eq_nil_iff] at h ⊢
  intro l hl m hm
  rw [declares, h l hl m hm, Bool.false_and]

lemma extract_of_noneBelow (x : Extractor) (file : String) {c : Node}
    (h : NoneBelow (tagged fieldDeclaration) c) : x.extract c file = own x file c := by
  have hbelow : c.children.flatMap (nodesWhere [declares x.settingType]) = [] := by
    rw [List.flatMap_eq_nil_iff]
    intro m hm
    exact declares_none x.settingType (h m hm)
  rw [extract_eq_ofResults, nodesWhere_single, hbelow, List.append_nil, own]
  cases declares x.settingType c <;> rfl

/-! ### One declaration -/

lemma along_single (t : Node → Bool) (n : Node) : along [t] n = n.children.filter t := by
  rw [along]
  induction n.children with
  | nil => rfl
  | cons m ms ih =>
    rw [List.flatMap_cons, ih]
    cases h : t m <;> simp [h, along]

section Parts

variable {m m' : Node}

lemma Replaces.tag_eq (h : Replaces m m') : m'.tag = instanceCreation := by
  rw [h.fields]

lemma Rebuilt.passes {t : Node → Bool} (ht : ∀ n, n.tag = methodInvocation ∨
    n.tag = instanceCreation → t n = false) (ts : List (Node → Bool)) (h : Rebuilt m m') :
    (if t m' then along ts m' else []) = if t m then along ts m else [] := by
  cases h with
  | call hm hr =>
    rw [ht m (.inl hm), ht m' (.inr hr.tag_eq)]
    rfl
  | other => rfl

lemma Rebuilt.arguments (h : Rebuilt m m') :
    (if tagged instanceCreation m' then along [playing argumentsRole] m' else []) =
      if tagged methodInvocation m then along [playing argumentsRole] m else [] := by
  cases h with
  | call hm hr =>
    rw [tagged_self hm, tagged_self hr.tag_eq, if_pos rfl, if_pos rfl, along_single, along_single,
      hr.arguments]
  | other hcall hcreation => simp [tagged, hcall, hcreation]

lemma Rebuilt.not_call (h : Rebuilt m m') : tagged methodInvocation m' = false := by
  cases h with
  | call hm hr =>
    rw [tagged, hr.tag_eq]
    decide
  | other hcall => simpa [tagged] using hcall

lemma Rebuilt.not_creation (h : Rebuilt m m') : tagged instanceCreation m = false := by
  cases h with
  | call hm =>
    rw [tagged, hm]
    decide
  | other _ hcreation => simpa [tagged] using hcreation

lemma Rebuilt.none (h : Rebuilt m m') (hnone : nodesWhere [tagged fieldDeclaration] m = []) :
    nodesWhere [tagged fieldDeclaration] m' = [] := by
  cases h with
  | other => exact hnone
  | call hm hr =>
    rw [nodesWhere_single_eq_nil] at hnone ⊢
    refine ⟨?_, fun n hn => ?_⟩
    · rw [tagged, hr.tag_eq]
      decide
    · cases ha : playing argumentsRole n with
      | false => exact hr.others n hn ha
      | true =>
        have hmem : n ∈ m.children.filter (playing argumentsRole) := by
          rw [← hr.arguments]
          exact List.mem_filter.mpr ⟨hn, ha⟩
        exact hnone.2 n (List.mem_of_mem_filter hmem)

end Parts

section Declaration

variable {c : Node} {ns : List Node} (h : List.Forall₂ RebuiltVariable c.children ns)

include h

lemma along_rebuilt {t : Node → Bool} (ht : ∀ n, tagged variableFragment n = true → t n = false)
    (ts : List (Node → Bool)) : along (t :: ts) { c with children := ns } = along (t :: ts) c := by
  rw [along, along]
  refine flatMap_eq_of_forall₂ h fun f _ f' hf => ?_
  cases hf with
  | @fragment ms hvar _ =>
    have hvar' : tagged variableFragment { f with children := ms } = true := tagged_self hvar
    rw [ht _ (tagged_self hvar), ht _ hvar']
    rfl
  | other => rfl

lemma along_rebuilt_variables {t u : Node → Bool} {ts us : List (Node → Bool)}
    (hparts : ∀ m m', Rebuilt m m' →
      (if u m' then along us m' else []) = if t m then along ts m else []) :
    along (tagged variableFragment :: u :: us) { c with children := ns } =
      along (tagged variableFragment :: t :: ts) c := by
  rw [along, along]
  refine flatMap_eq_of_forall₂ h fun f _ f' hf => ?_
  cases hf with
  | @fragment ms hvar hms =>
    have hvar' : tagged variableFragment { f with children := ms } = true := tagged_self hvar
    rw [tagged_self hvar, hvar', if_pos rfl, if_pos rfl, along, along]
    exact flatMap_eq_of_forall₂ hms fun m _ m' hm => hparts m m' hm
  | other hnot => simp [tagged, hnot]

lemma declares_rebuilt (settingType : String) :
    declares settingType { c with children := ns } = declares settingType c := by
  rw [declares, declares]
  congr 1
  refine any_eq_of_forall₂ h fun f _ f' hf => ?_
  cases hf with
  | @fragment ms hvar _ =>
    have hvar' : tagged variableFragment { f with children := ms } = true := tagged_self hvar
    rw [not_parameterized f (tagged_self hvar), not_parameterized _ hvar', Bool.false_and,
      Bool.false_and]
  | other => rfl

lemma noneBelow_rebuilt (hnone : NoneBelow (tagged fieldDeclaration) c) :
    NoneBelow (tagged fieldDeclaration) { c with children := ns } := by
  refine forall_of_forall₂ h (fun f f' hf hbelow => ?_) hnone
  cases hf with
  | @fragment ms hvar hms =>
    rw [nodesWhere_single_eq_nil] at hbelow ⊢
    exact ⟨hbelow.1, forall_of_forall₂ hms (fun m m' hm => hm.none) hbelow.2⟩
  | other => exact hbelow

variable (hc : c.tag = fieldDeclaration) (hnone : NoneBelow (tagged fieldDeclaration) c)

include hc hnone

lemma rawName_rebuilt : rawName { c with children := ns } = rawName c := by
  have hnone' := noneBelow_rebuilt h hnone
  have hname (n : Node) (hn : n.tag = methodInvocation ∨ n.tag = instanceCreation) :
      tagged simpleName n = false := by
    rw [tagged]
    rcases hn with hn | hn <;> (rw [hn]; decide)
  rw [rawName_eq_along hc hnone, rawName_eq_along (c := { c with children := ns }) hc hnone',
    along_rebuilt_variables h fun m m' hm => hm.passes hname []]

lemma valueType_rebuilt : valueType { c with children := ns } = valueType c := by
  have hnone' := noneBelow_rebuilt h hnone
  have hdirect : directTypes { c with children := ns } = directTypes c := by
    rw [directTypes_eq_along hc hnone,
      directTypes_eq_along (c := { c with children := ns }) hc hnone',
      along_rebuilt h not_parameterized]
  have hnested : nestedTypes { c with children := ns } = nestedTypes c := by
    rw [nestedTypes_eq_along hc hnone,
      nestedTypes_eq_along (c := { c with children := ns }) hc hnone',
      along_rebuilt h not_parameterized]
  rw [valueType, valueType, hdirect, hnested]

lemma arguments_rebuilt : arguments { c with children := ns } = arguments c := by
  have hnone' := noneBelow_rebuilt h hnone
  have hmoved : argumentsOf instanceCreation { c with children := ns } =
      argumentsOf methodInvocation c := by
    rw [argumentsOf_eq_along hc hnone,
      argumentsOf_eq_along (c := { c with children := ns }) hc hnone',
      along_rebuilt_variables h fun m m' hm => hm.arguments]
  -- Against a test that nothing passes, what is found on either side comes to nothing.
  have hnever (n : Node) :
      along [tagged variableFragment, fun _ => false, playing argumentsRole] n = [] := by
    simp [along]
  have hcalls : argumentsOf methodInvocation { c with children := ns } = [] := by
    rw [argumentsOf_eq_along (c := { c with children := ns }) hc hnone', ← hnever c]
    apply along_rebuilt_variables h
    intro m m' hm
    rw [hm.not_call]
    rfl
  have hcreations : argumentsOf instanceCreation c = [] := by
    rw [argumentsOf_eq_along hc hnone, ← hnever { c with children := ns }]
    symm
    apply along_rebuilt_variables h
    intro m m' hm
    rw [hm.not_creation]
    rfl
  rw [arguments, arguments, hcalls, hcreations, hmoved]
  cases argumentsOf methodInvocation c <;> rfl

lemma own_rebuilt (x : Extractor) (file : String) :
    own x file { c with children := ns } = own x file c := by
  have hline : ({ c with children := ns } : Node).line = c.line := rfl
  rw [own, own, declares_rebuilt h, candidate_eq, candidate_eq, candidate, candidate,
    arguments_rebuilt h hc hnone, rawName_rebuilt h hc hnone, valueType_rebuilt h hc hnone, hline]

end Declaration

/-! ### All declarations -/

lemma with_same_children {n : Node} {ns : List Node} (h : List.Forall₂ Restyled n.children ns)
    (heq : ∀ m ∈ n.children, ∀ m', Restyled m m' → m' = m) : { n with children := ns } = n := by
  have hsame : ns = n.children := by
    rw [← List.map_id n.children, ← List.map_id ns]
    exact map_eq_of_forall₂ h heq
  subst hsame
  cases n with
  | mk => rfl

lemma Restyled.eq_of_none {t t' : Node} (h : Restyled t t')
    (hnone : nodesWhere [tagged fieldDeclaration] t = []) : t' = t := by
  induction t using Node.child_induction generalizing t' with
  | step n ih =>
    rw [nodesWhere_single_eq_nil] at hnone
    cases h with
    | node hns => exact with_same_children hns fun m hm m' hr => ih m hm hr (hnone.2 m hm)
    | declaration hn => simp [tagged_self hn] at hnone

/-- Calls turned into constructions leave what is extracted as it is. -/
theorem extract_restyled (x : Extractor) (file : String) {t t' : Node} (hflat : Flat t)
    (h : Restyled t t') : x.extract t' file = x.extract t file := by
  induction t using Node.child_induction generalizing t' with
  | step n ih =>
    cases h with
    | @node _ ns hns =>
      by_cases hn : n.tag = fieldDeclaration
      · have hsame : { n with children := ns } = n := by
          apply with_same_children hns
          intro m hm m' hr
          exact hr.eq_of_none (hflat.noneBelow hn m hm)
        rw [hsame]
      · have hn' : ({ n with children := ns } : Node).tag ≠ fieldDeclaration := hn
        have hparts : ns.map (x.extract · file) = n.children.map (x.extract · file) :=
          map_eq_of_forall₂ hns fun m hm m' hr => ih m hm (hflat.child hm) hr
        rw [extract_of_not_field x file hn, extract_of_not_field x file hn', hparts]
    | @declaration _ ns hn hns =>
      have hnone := hflat.noneBelow hn
      have hnone' := noneBelow_rebuilt hns hnone
      rw [extract_of_noneBelow x file hnone, extract_of_noneBelow x file hnone',
        own_rebuilt hns hn hnone]

lemma Restyled.refl (n : Node) : Restyled n n := by
  induction n using Node.child_induction with
  | step n ih =>
    have h := Restyled.node (List.forall₂_same.mpr ih)
    cases n with
    | mk => exact h

def building (kind : String) (head : Node) : Node :=
  branch kind (head :: [word "StringLiteral" "a.key", word numberLiteral "1",
    word numberLiteral "2"].map (·.withRole argumentsRole))

def classOf (value : Node) : Node :=
  branch "TypeDeclaration"
    [declaration [branch variableFragment [word simpleName "A", value]],
      declaration [constructed "B" "b.key"]]

theorem extract_restyled_first :
    let call := building methodInvocation (word simpleName "setting")
    let creation := building instanceCreation (branch simpleType [word simpleName "Setting"])
    Flat (classOf call) ∧ Restyled (classOf call) (classOf creation) ∧
      Extractor.standard.extract (classOf creation) "A.java" =
        Extractor.standard.extract (classOf call) "A.java" := by
  intro call creation
  have hflat : Flat (classOf call) := by
    unfold Flat NoneBelow
    decide +kernel
  have hcall : Replaces call creation := ⟨rfl, rfl, by decide +kernel⟩
  have hvariable := RebuiltVariable.fragment
    (f := branch variableFragment [word simpleName "A", call]) rfl
    (.cons (.other (by decide) (by decide)) (.cons (.call rfl hcall) .nil))
  have hdeclaration := Restyled.declaration
    (c := declaration [branch variableFragment [word simpleName "A", call]]) rfl
    (.cons (.other (by decide)) (.cons hvariable .nil))
  have h : Restyled (classOf call) (classOf creation) :=
    .node (.cons hdeclaration (.cons (.refl _) .nil))
  exact ⟨hflat, h, extract_restyled .standard "A.java" hflat h⟩

end Structural

end SettingCatalog
