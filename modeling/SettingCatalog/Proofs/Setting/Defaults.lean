import Mathlib.Data.List.Forall2
import SettingCatalog.Proofs.Tree.Attributes
import SettingCatalog.Setting.DefaultValue

/-! The table of default values: which text stands for a tree, by the tag of its root and the tags
of the parts. Every tree has one text by the table, and that text is rendered. -/

namespace SettingCatalog.DefaultValue

open Vocabulary Text

variable {n : Node} {s : String}

/-! ### The table -/

inductive NumberText (n : Node) : String → Prop
  | attribute {s : String} : (tokenAttribute, s) ∈ n.attributes.entries → NumberText n s
  | token : (∀ s, (tokenAttribute, s) ∉ n.attributes.entries) → NumberText n n.token

def SameLetters (s t : String) : Prop :=
  List.Forall₂ (fun c d => c.toLower = d.toLower) s.toList t.toList

inductive TruthText (n : Node) : String → Prop
  | yes {v : String} : (booleanAttribute, v) ∈ n.attributes.entries →
      SameLetters (trim v) "true" → TruthText n "true"
  | no {v : String} : (booleanAttribute, v) ∈ n.attributes.entries →
      SameLetters (trim v) "false" → TruthText n "false"
  | token : (∀ v, (booleanAttribute, v) ∈ n.attributes.entries →
      ¬ SameLetters (trim v) "true" ∧ ¬ SameLetters (trim v) "false") → TruthText n n.token

inductive PartText : Node → String → Prop
  | number {n : Node} {s : String} : n.tag = numberLiteral → NumberText n s → PartText n s
  | token {n : Node} : n.tag ≠ numberLiteral → PartText n n.token

/-- The texts of the parts of a construction. Only numbers and qualified names have one. -/
inductive PartTexts : List Node → List String → Prop
  | nil : PartTexts [] []
  | number {n : Node} {ns : List Node} {s : String} {ss : List String} :
      n.tag = numberLiteral → NumberText n s → PartTexts ns ss → PartTexts (n :: ns) (s :: ss)
  | name {n : Node} {ns : List Node} {ss : List String} : n.tag = qualifiedName →
      PartTexts ns ss → PartTexts (n :: ns) (".".intercalate (n.children.map Node.token) :: ss)
  | other {n : Node} {ns : List Node} {ss : List String} : n.tag ≠ numberLiteral →
      n.tag ≠ qualifiedName → PartTexts ns ss → PartTexts (n :: ns) ss

inductive Shows (n : Node) : String → Prop
  | number {s : String} : n.tag = numberLiteral → NumberText n s → Shows n s
  | truth {s : String} : n.tag = booleanLiteral → TruthText n s → Shows n s
  | call {ss : List String} : n.tag = methodInvocation → List.Forall₂ PartText n.children ss →
      Shows n ("->".intercalate ss)
  | construction {ss : List String} : n.tag = instanceCreation → PartTexts n.children ss →
      Shows n ("->".intercalate ss)
  | token : n.tag ∉ [numberLiteral, booleanLiteral, methodInvocation, instanceCreation] →
      Shows n n.token

/-! ### Rendering by the table -/

lemma joinTexts_eq_intercalate (separator : String) (ss : List String) :
    joinTexts separator ss = separator.intercalate ss := by
  induction ss with
  | nil => rfl
  | cons s ss ih =>
    cases ss with
    | nil => rfl
    | cons t ss =>
      rw [joinTexts, ih, String.intercalate_cons_cons]
      exact List.cons_ne_nil t ss

lemma numberText_iff : NumberText n s ↔ literalText n = s := by
  rw [literalText, Node.attributeValue]
  cases ha : n.attributes.get? tokenAttribute with
  | none =>
    have hnone (t : String) : (tokenAttribute, t) ∉ n.attributes.entries := by
      rw [← Attributes.get?_eq_some_iff, ha]
      exact Option.some_ne_none t ∘ Eq.symm
    constructor
    · rintro (hs | -)
      · exact absurd hs (hnone s)
      · rfl
    · rintro rfl
      exact .token hnone
  | some t =>
    have ht := (Attributes.get?_eq_some_iff _ _ _).mp ha
    constructor
    · rintro (hs | hnone)
      · have hs' := (Attributes.get?_eq_some_iff _ _ _).mpr hs
        exact Option.some.inj (ha.symm.trans hs')
      · exact absurd ht (hnone t)
    · rintro rfl
      exact .attribute ht

lemma sameLetters_iff (s t : String) : SameLetters s t ↔ lowered s = lowered t := by
  rw [SameLetters, lowered, lowered, String.ofList_inj, ← List.forall₂_eq_eq_eq,
    List.forall₂_map_left_iff, List.forall₂_map_right_iff]

lemma truthText_iff : TruthText n s ↔ booleanText n = s := by
  have htrue (v : String) : SameLetters (trim v) "true" ↔ lowered (trim v) = "true" :=
    sameLetters_iff _ _
  have hfalse (v : String) : SameLetters (trim v) "false" ↔ lowered (trim v) = "false" :=
    sameLetters_iff _ _
  rw [booleanText, Node.attributeValue]
  cases ha : n.attributes.get? booleanAttribute with
  | none =>
    have hnone (v : String) : (booleanAttribute, v) ∉ n.attributes.entries := by
      rw [← Attributes.get?_eq_some_iff, ha]
      exact Option.some_ne_none v ∘ Eq.symm
    constructor
    · rintro (⟨hv, -⟩ | ⟨hv, -⟩ | -)
      · exact absurd hv (hnone _)
      · exact absurd hv (hnone _)
      · rfl
    · rintro rfl
      exact .token fun v hv => absurd hv (hnone v)
  | some v =>
    have hv := (Attributes.get?_eq_some_iff _ _ _).mp ha
    have honly {w : String} (hw : (booleanAttribute, w) ∈ n.attributes.entries) : w = v :=
      Option.some.inj (((Attributes.get?_eq_some_iff _ _ _).mpr hw).symm.trans ha)
    rw [Option.map_some]
    constructor
    · rintro (⟨hw, hsame⟩ | ⟨hw, hsame⟩ | hneither)
      · obtain rfl := honly hw
        rw [(htrue _).mp hsame]
        rfl
      · obtain rfl := honly hw
        rw [(hfalse _).mp hsame]
        rfl
      · obtain ⟨hyes, hno⟩ := hneither v hv
        rw [htrue] at hyes
        rw [hfalse] at hno
        split
        · rename_i heq
          exact absurd (Option.some.inj heq) hyes
        · rename_i heq
          exact absurd (Option.some.inj heq) hno
        · rfl
    · rintro rfl
      split
      · rename_i heq
        exact .yes hv ((htrue v).mpr (Option.some.inj heq))
      · rename_i heq
        exact .no hv ((hfalse v).mpr (Option.some.inj heq))
      · rename_i hyes hno
        refine .token fun w hw => ?_
        obtain rfl := honly hw
        exact ⟨fun h => hyes (congrArg some ((htrue _).mp h)),
          fun h => hno (congrArg some ((hfalse _).mp h))⟩

lemma partText_iff : PartText n s ↔ callPart n = s := by
  rw [callPart]
  by_cases hnumber : n.tag = numberLiteral
  · rw [if_pos hnumber, ← numberText_iff]
    constructor
    · rintro (⟨-, hs⟩ | htag)
      · exact hs
      · exact absurd hnumber htag
    · exact .number hnumber
  · rw [if_neg hnumber]
    constructor
    · rintro (⟨htag, -⟩ | -)
      · exact absurd htag hnumber
      · rfl
    · rintro rfl
      exact .token hnumber

lemma forall₂_partText_iff {ns : List Node} {ss : List String} :
    List.Forall₂ PartText ns ss ↔ ns.map callPart = ss := by
  have hrel : PartText = fun n s => callPart n = s := by
    funext n s
    exact propext partText_iff
  rw [hrel, ← List.forall₂_eq_eq_eq, List.forall₂_map_left_iff]

lemma partTexts_filterMap (ns : List Node) : PartTexts ns (ns.filterMap creationPart?) := by
  induction ns with
  | nil => exact .nil
  | cons n ns ih =>
    rw [List.filterMap_cons, creationPart?]
    by_cases hnumber : n.tag = numberLiteral
    · rw [if_pos hnumber]
      exact .number hnumber (numberText_iff.mpr rfl) ih
    · rw [if_neg hnumber]
      by_cases hname : n.tag = qualifiedName
      · rw [if_pos hname, qualifiedText, joinTexts_eq_intercalate]
        exact .name hname ih
      · rw [if_neg hname]
        exact .other hnumber hname ih

lemma partTexts_iff {ns : List Node} {ss : List String} :
    PartTexts ns ss ↔ ns.filterMap creationPart? = ss := by
  constructor
  · intro h
    induction h with
    | nil => rfl
    | number htag hs _ ih =>
      rw [List.filterMap_cons, creationPart?, if_pos htag, ih, numberText_iff.mp hs]
    | name htag _ ih =>
      have hnumber : ¬ qualifiedName = numberLiteral := by decide
      rw [List.filterMap_cons, creationPart?, htag, if_neg hnumber, if_pos rfl, ih, qualifiedText,
        joinTexts_eq_intercalate]
    | other hnumber hname _ ih =>
      rw [List.filterMap_cons, creationPart?, if_neg hnumber, if_neg hname, ih]
  · rintro rfl
    exact partTexts_filterMap ns

lemma shows_render (n : Node) : Shows n (render n) := by
  rw [render]
  split_ifs with hnumber hboolean hcall hcreation
  · exact .number hnumber (numberText_iff.mpr rfl)
  · exact .truth hboolean (truthText_iff.mpr rfl)
  · rw [joinTexts_eq_intercalate]
    exact .call hcall (forall₂_partText_iff.mpr rfl)
  · rw [joinTexts_eq_intercalate]
    exact .construction hcreation (partTexts_filterMap n.children)
  · exact .token (by simp [hnumber, hboolean, hcall, hcreation])

/-- What is rendered is the text of the table. -/
theorem render_eq_iff : render n = s ↔ Shows n s := by
  constructor
  · rintro rfl
    exact shows_render n
  · intro h
    cases h with
    | number htag hs => rw [render, if_pos htag, numberText_iff.mp hs]
    | truth htag hs => rw [render, htag, if_neg (by decide), if_pos rfl, truthText_iff.mp hs]
    | call htag hs =>
      rw [render, htag, if_neg (by decide), if_neg (by decide), if_pos rfl,
        joinTexts_eq_intercalate, forall₂_partText_iff.mp hs]
    | construction htag hs =>
      rw [render, htag, if_neg (by decide), if_neg (by decide), if_neg (by decide), if_pos rfl,
        joinTexts_eq_intercalate, partTexts_iff.mp hs]
    | token htag =>
      simp only [List.mem_cons, List.not_mem_nil, or_false, not_or] at htag
      obtain ⟨hnumber, hboolean, hcall, hcreation⟩ := htag
      rw [render, if_neg hnumber, if_neg hboolean, if_neg hcall, if_neg hcreation]

end SettingCatalog.DefaultValue
