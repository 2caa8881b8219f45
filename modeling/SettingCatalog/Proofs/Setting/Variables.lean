import SettingCatalog.Proofs.Setting.Nesting

/-! Declarations of several variables. The name of a record is that of the first variable that has
one, its arguments are those of the calls of any variable, or of the constructions of any variable
where no call has arguments. So a record is that of one variable if the others add nothing to it. -/

namespace SettingCatalog

open Vocabulary Text

namespace Structural

def withoutVariables (ns : List Node) : List Node := ns.filter fun n => !tagged variableFragment n

def withOnly (c : Node) (before : List Node) (f : Node) (after : List Node) : Node :=
  { c with children := withoutVariables before ++ f :: withoutVariables after }

def namesIn (f : Node) : List Node := along [tagged simpleName] f

def argumentsIn (call : String) (f : Node) : List Node :=
  along [tagged call, playing argumentsRole] f

/-- The variable goes first by its name and has the only arguments that count. -/
structure Sole (before : List Node) (f : Node) (after : List Node) : Prop where
  tagged_self : tagged variableFragment f = true
  names_before : ∀ g ∈ before, tagged variableFragment g = true → namesIn g = []
  names_after : namesIn f = [] → ∀ g ∈ after, tagged variableFragment g = true → namesIn g = []
  calls : ∀ g ∈ before ++ after, tagged variableFragment g = true →
    argumentsIn methodInvocation g = []
  constructions : argumentsIn methodInvocation f = [] → ∀ g ∈ before ++ after,
    tagged variableFragment g = true → argumentsIn instanceCreation g = []

/-! ### Parts of a declaration without other declarations in it -/

section Parts

variable {c : Node} (hc : c.tag = fieldDeclaration) (hnone : NoneBelow (tagged fieldDeclaration) c)

include hc hnone

lemma rawName_eq_along :
    rawName c = ((along [tagged variableFragment, tagged simpleName] c).head?.map
      Node.token).getD "" := by
  rw [← nodesWhere_eq_along (tagged_self hc) hnone]
  rfl

lemma argumentsOf_eq_along (call : String) :
    argumentsOf call c = along [tagged variableFragment, tagged call, playing argumentsRole] c := by
  rw [← nodesWhere_eq_along (tagged_self hc) hnone]
  rfl

lemma directTypes_eq_along :
    directTypes c = along [tagged parameterizedType,
      fun n => tagged simpleType n && playing typeArgumentsRole n, tagged simpleName] c := by
  rw [← nodesWhere_eq_along (tagged_self hc) hnone]
  rfl

lemma nestedTypes_eq_along :
    nestedTypes c = along [tagged parameterizedType,
      fun n => tagged parameterizedType n && playing typeArgumentsRole n, fun _ => true] c := by
  rw [← nodesWhere_eq_along (tagged_self hc) hnone]
  rfl

end Parts

/-! ### Other variables taken away -/

lemma flatMap_withoutVariables {p : Node → List Node}
    (hp : ∀ n, tagged variableFragment n = true → p n = []) (ns : List Node) :
    (withoutVariables ns).flatMap p = ns.flatMap p := by
  induction ns with
  | nil => rfl
  | cons n ns ih =>
    unfold withoutVariables at ih ⊢
    rw [List.flatMap_cons, List.filter_cons, ← ih]
    cases hn : tagged variableFragment n with
    | true => simp [hp n hn]
    | false => simp

variable {ts : List (Node → Bool)}

lemma flatMap_variables_eq_nil {ns : List Node}
    (h : ∀ g ∈ ns, tagged variableFragment g = true → along ts g = []) :
    ns.flatMap (fun m => if tagged variableFragment m then along ts m else []) = [] := by
  rw [List.flatMap_eq_nil_iff]
  intro m hm
  split
  · exact h m hm ‹_›
  · rfl

variable {c f : Node} {before after : List Node}

lemma along_withOnly (hchildren : c.children = before ++ f :: after) {t : Node → Bool}
    (ht : ∀ n, tagged variableFragment n = true → t n = false) :
    along (t :: ts) (withOnly c before f after) = along (t :: ts) c := by
  have hnone (n : Node) (hn : tagged variableFragment n = true) :
      (if t n then along ts n else []) = [] := by simp [ht n hn]
  rw [along, along, hchildren, withOnly, List.flatMap_append, List.flatMap_append,
    List.flatMap_cons, List.flatMap_cons, flatMap_withoutVariables hnone,
    flatMap_withoutVariables hnone]

lemma along_variables (hchildren : c.children = before ++ f :: after)
    (hf : tagged variableFragment f = true)
    (hbefore : ∀ g ∈ before, tagged variableFragment g = true → along ts g = []) :
    along (tagged variableFragment :: ts) c =
      along ts f ++ after.flatMap fun m => if tagged variableFragment m then along ts m else [] := by
  rw [along, hchildren, List.flatMap_append, List.flatMap_cons, flatMap_variables_eq_nil hbefore,
    if_pos hf, List.nil_append]

lemma along_variables_sole (hchildren : c.children = before ++ f :: after)
    (hf : tagged variableFragment f = true)
    (hothers : ∀ g ∈ before ++ after, tagged variableFragment g = true → along ts g = []) :
    along (tagged variableFragment :: ts) c = along ts f := by
  have hbefore := fun g hg => hothers g (List.mem_append_left after hg)
  have hafter := fun g hg => hothers g (List.mem_append_right before hg)
  rw [along_variables hchildren hf hbefore, flatMap_variables_eq_nil hafter, List.append_nil]

lemma along_variables_withOnly (hf : tagged variableFragment f = true) :
    along (tagged variableFragment :: ts) (withOnly c before f after) = along ts f := by
  refine along_variables_sole rfl hf fun g hg hvar => ?_
  rcases List.mem_append.mp hg with hg | hg <;>
    · have hnot := (List.mem_filter.mp hg).2
      rw [hvar] at hnot
      cases hnot

lemma noneBelow_withOnly {t : Node → Bool} (hchildren : c.children = before ++ f :: after)
    (h : NoneBelow t c) : NoneBelow t (withOnly c before f after) := by
  intro m hm
  apply h m
  rw [hchildren]
  rcases List.mem_append.mp hm with hm | hm
  · exact List.mem_append_left _ (List.mem_of_mem_filter hm)
  · rcases List.mem_cons.mp hm with rfl | hm
    · simp
    · exact List.mem_append_right _ (List.mem_cons_of_mem f (List.mem_of_mem_filter hm))

/-! ### Records -/

lemma not_parameterized (n : Node) (hn : tagged variableFragment n = true) :
    tagged parameterizedType n = false := by
  rw [tagged, beq_iff_eq] at hn
  rw [tagged, hn]
  decide

section Record

variable (hc : c.tag = fieldDeclaration) (hnone : NoneBelow (tagged fieldDeclaration) c)
  (hchildren : c.children = before ++ f :: after)

include hc hnone hchildren

lemma valueType_withOnly : valueType (withOnly c before f after) = valueType c := by
  have hnone' := noneBelow_withOnly hchildren hnone
  have hdirect : directTypes (withOnly c before f after) = directTypes c := by
    rw [directTypes_eq_along hc hnone, directTypes_eq_along (c := withOnly c before f after) hc hnone',
      along_withOnly hchildren not_parameterized]
  have hnested : nestedTypes (withOnly c before f after) = nestedTypes c := by
    rw [nestedTypes_eq_along hc hnone, nestedTypes_eq_along (c := withOnly c before f after) hc hnone',
      along_withOnly hchildren not_parameterized]
  rw [valueType, valueType, hdirect, hnested]

variable (h : Sole before f after)

include h

lemma rawName_withOnly : rawName (withOnly c before f after) = rawName c := by
  have hnone' := noneBelow_withOnly hchildren hnone
  rw [rawName_eq_along hc hnone, rawName_eq_along (c := withOnly c before f after) hc hnone',
    along_variables_withOnly h.tagged_self, along_variables hchildren h.tagged_self h.names_before]
  cases hf : along [tagged simpleName] f with
  | nil => rw [flatMap_variables_eq_nil (h.names_after hf), List.append_nil]
  | cons n ns => rfl

lemma arguments_withOnly : arguments (withOnly c before f after) = arguments c := by
  have hnone' := noneBelow_withOnly hchildren hnone
  have hleft (call : String) :
      argumentsOf call (withOnly c before f after) = argumentsIn call f := by
    rw [argumentsOf_eq_along (c := withOnly c before f after) hc hnone',
      along_variables_withOnly h.tagged_self, argumentsIn]
  have hcalls : argumentsOf methodInvocation c = argumentsIn methodInvocation f := by
    rw [argumentsOf_eq_along hc hnone, along_variables_sole hchildren h.tagged_self h.calls,
      argumentsIn]
  rw [arguments, arguments, hleft, hleft, hcalls]
  by_cases hf : argumentsIn methodInvocation f = []
  · rw [hf, argumentsOf_eq_along hc hnone,
      along_variables_sole hchildren h.tagged_self (h.constructions hf), argumentsIn]
  · rw [if_neg (by simpa using hf), if_neg (by simpa using hf)]

end Record

/-- The record of a declaration of several variables, or what is said instead of one, is that of the
variable which has its name and its arguments. -/
theorem candidate_of_sole_variable (x : Extractor) (file : String)
    (hc : c.tag = fieldDeclaration) (hnone : NoneBelow (tagged fieldDeclaration) c)
    (hchildren : c.children = before ++ f :: after) (h : Sole before f after) :
    x.extractCandidate (withOnly c before f after) file = x.extractCandidate c file := by
  have hline : (withOnly c before f after).line = c.line := rfl
  rw [candidate_eq, candidate_eq, candidate, candidate, arguments_withOnly hc hnone hchildren h,
    rawName_withOnly hc hnone hchildren h, valueType_withOnly hc hnone hchildren, hline]

def uninitialized (name : String) : Node := branch variableFragment [word simpleName name]

def constructed (name key : String) : Node :=
  initialized name instanceCreation
    [word "StringLiteral" key, word numberLiteral "1", word numberLiteral "2"]

theorem candidate_first_constructed :
    Extractor.standard.extractCandidate
        (withOnly (declaration [constructed "A" "a.key", uninitialized "B"])
          [integerSetting] (constructed "A" "a.key") [uninitialized "B"]) "Pair.java" =
      Extractor.standard.extractCandidate
        (declaration [constructed "A" "a.key", uninitialized "B"]) "Pair.java" := by
  have hsole : Sole [integerSetting] (constructed "A" "a.key") [uninitialized "B"] :=
    ⟨by decide, by decide, by decide, by decide, by decide⟩
  have hnone : NoneBelow (tagged fieldDeclaration)
      (declaration [constructed "A" "a.key", uninitialized "B"]) := by
    unfold NoneBelow
    decide +kernel
  exact candidate_of_sole_variable _ _ rfl hnone rfl hsole

/-- The first variable gives its name to the key of the second: no variable alone has that
record. -/
theorem candidate_second_constructed :
    let c := declaration [uninitialized "A", constructed "B" "b.key"]
    c.tag = fieldDeclaration ∧ NoneBelow (tagged fieldDeclaration) c ∧
      (Extractor.standard.extractCandidate c "Pair.java").map (fun r => (r.rawName, r.name)) =
        .ok ("A", "b.key") ∧
      ∀ before f after, c.children = before ++ f :: after → f.tag = variableFragment →
        Extractor.standard.extractCandidate (withOnly c before f after) "Pair.java" ≠
          Extractor.standard.extractCandidate c "Pair.java" := by
  simp only [candidate_eq]
  refine ⟨rfl, by unfold NoneBelow; decide +kernel, by decide +kernel, ?_⟩
  intro before f after hchildren hf
  change [integerSetting, uninitialized "A", constructed "B" "b.key"] = before ++ f :: after
    at hchildren
  rcases before with _ | ⟨t, _ | ⟨a, _ | ⟨b, before⟩⟩⟩ <;>
    simp only [List.nil_append, List.cons_append, List.cons.injEq] at hchildren
  · obtain ⟨rfl, rfl⟩ := hchildren
    exact absurd hf (by decide)
  · obtain ⟨rfl, rfl, rfl⟩ := hchildren
    decide +kernel
  · obtain ⟨rfl, rfl, rfl, rfl⟩ := hchildren
    decide +kernel
  · simp at hchildren

end Structural

end SettingCatalog
