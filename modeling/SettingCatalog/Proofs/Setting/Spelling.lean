import SettingCatalog.Proofs.Query.Alignment
import SettingCatalog.Proofs.Setting.Nesting

/-! Roles spelled by attributes. A tree some roles of which are spelled by the attribute has, once
normalized, the same places for every query and the same settings as the tree it was made from. -/

namespace SettingCatalog

open Vocabulary Node Query Text

/-! ### The queries of the extractor -/

namespace Extractor

lemma built_declarations : Built declarations := .descendant _ .empty

lemma built_fragments : Built fragments := .child _ built_declarations

lemma built_candidates (x : Extractor) : Built x.candidates :=
  .parent (.parent (.parent (.withToken _ (.child _ (.child _ (.child _ built_declarations))))))

lemma built_variableName : Built variableName := .child _ built_fragments

lemma built_directType : Built directType :=
  .child _ (.withRole _ (.child _ (.child _ built_declarations)))

lemma built_nestedType : Built nestedType :=
  .anyChild (.withRole _ (.child _ (.child _ built_declarations)))

lemma built_factoryArguments : Built factoryArguments :=
  .withRole _ (.anyChild (.child _ built_fragments))

lemma built_constructorArguments : Built constructorArguments :=
  .withRole _ (.anyChild (.child _ built_fragments))

end Extractor

namespace Flags

lemma built_longForm (anchor : String) : Built (longForm anchor) :=
  .withRole _ (.child _ (.parent (.parent (.withToken _ (.child _ (.child _ (.descendant _
    .empty)))))))

lemma built_shortForm (anchor : String) : Built (shortForm anchor) :=
  .withRole _ (.child _ (.parent (.withToken _ (.child _ (.descendant _ .empty)))))

end Flags

/-! ### Parts of a record -/

section Parts

variable {n m : Node} (h : Aligned Marked n m)

include h

lemma Node.Aligned.own : Marked n m := by
  obtain ⟨hown, -⟩ := h
  exact hown

lemma Node.Aligned.children : List.Forall₂ (Aligned Marked) n.children m.children := by
  obtain ⟨-, hchildren⟩ := h
  exact hchildren

lemma map_token_select {q : Query} (hq : Built q) :
    (q.select m).map Node.token = (q.select n).map Node.token :=
  map_eq_of_forall₂ (select_marked hq h) fun _ _ _ hk => hk.own.token_eq

lemma ofArgument_marked (anchor : String) :
    Flags.ofArgument anchor m = Flags.ofArgument anchor n := by
  have hlong := map_token_select h (Flags.built_longForm anchor)
  have hshort := map_token_select h (Flags.built_shortForm anchor)
  rw [Flags.ofArgument, Flags.ofArgument]
  cases hn : (Flags.longForm anchor).select n with
  | nil =>
    rw [hn, List.map_nil, List.map_eq_nil_iff] at hlong
    rw [hlong]
    exact hshort
  | cons a as =>
    cases hm : (Flags.longForm anchor).select m with
    | nil => simp [hn, hm] at hlong
    | cons b bs =>
      rw [hn, hm] at hlong
      exact hlong

lemma literalText_marked : DefaultValue.literalText m = DefaultValue.literalText n := by
  rw [DefaultValue.literalText, DefaultValue.literalText, h.own.token_eq,
    h.own.attributeValue_eq (by decide)]

lemma booleanText_marked : DefaultValue.booleanText m = DefaultValue.booleanText n := by
  rw [DefaultValue.booleanText, DefaultValue.booleanText, h.own.token_eq,
    h.own.attributeValue_eq (by decide)]

lemma qualifiedText_marked : DefaultValue.qualifiedText m = DefaultValue.qualifiedText n := by
  rw [DefaultValue.qualifiedText, DefaultValue.qualifiedText,
    map_eq_of_forall₂ h.children fun _ _ _ hk => hk.own.token_eq]

lemma callPart_marked : DefaultValue.callPart m = DefaultValue.callPart n := by
  rw [DefaultValue.callPart, DefaultValue.callPart, h.own.tag_eq, h.own.token_eq,
    literalText_marked h]

lemma creationPart_marked : DefaultValue.creationPart? m = DefaultValue.creationPart? n := by
  rw [DefaultValue.creationPart?, DefaultValue.creationPart?, h.own.tag_eq, literalText_marked h,
    qualifiedText_marked h]

lemma render_marked : DefaultValue.render m = DefaultValue.render n := by
  have hcall : m.children.map DefaultValue.callPart = n.children.map DefaultValue.callPart :=
    map_eq_of_forall₂ h.children fun _ _ _ hk => callPart_marked hk
  have hcreation : m.children.filterMap DefaultValue.creationPart? =
      n.children.filterMap DefaultValue.creationPart? := by
    have hmap : m.children.map DefaultValue.creationPart? =
        n.children.map DefaultValue.creationPart? :=
      map_eq_of_forall₂ h.children fun _ _ _ hk => creationPart_marked hk
    simpa [List.filterMap_map] using congrArg (List.filterMap id) hmap
  rw [DefaultValue.render, DefaultValue.render, h.own.tag_eq, h.own.token_eq, literalText_marked h,
    booleanText_marked h, hcall, hcreation]

lemma leadingToken_marked : Extractor.leadingToken m = Extractor.leadingToken n := by
  have hchildren := h.children
  rw [Extractor.leadingToken, Extractor.leadingToken]
  generalize n.children = ns at hchildren ⊢
  generalize m.children = ms at hchildren ⊢
  cases hchildren with
  | nil => exact h.own.token_eq
  | cons hk _ => exact hk.own.token_eq

lemma rawName_marked : Extractor.rawName m = Extractor.rawName n := by
  rw [Extractor.rawName, Extractor.rawName, first?, first?, ← List.head?_map, ← List.head?_map,
    map_token_select h Extractor.built_variableName]

lemma valueType_marked : Extractor.valueType m = Extractor.valueType n := by
  have hdirect := select_marked Extractor.built_directType h
  have hnested := map_eq_of_forall₂ (select_marked Extractor.built_nestedType h)
    fun _ _ _ hk => leadingToken_marked hk
  rw [Extractor.valueType, Extractor.valueType, first?, first?]
  generalize Extractor.directType.select n = ns at hdirect ⊢
  generalize Extractor.directType.select m = ms at hdirect ⊢
  cases hdirect with
  | nil => simp [hnested]
  | cons hk _ => exact hk.own.token_eq

lemma arguments_marked :
    List.Forall₂ (Aligned Marked) (Extractor.arguments n) (Extractor.arguments m) := by
  have hfactory := select_marked Extractor.built_factoryArguments h
  rw [Extractor.arguments, Extractor.arguments]
  generalize Extractor.factoryArguments.select n = ns at hfactory ⊢
  generalize Extractor.factoryArguments.select m = ms at hfactory ⊢
  cases hfactory with
  | nil => exact select_marked Extractor.built_constructorArguments h
  | cons hk hks => exact .cons hk hks

lemma extractCandidate_marked (x : Extractor) (file : String) :
    x.extractCandidate m file = x.extractCandidate n file := by
  have harguments := arguments_marked h
  have hresolve : Flags.resolve x.anchor (Extractor.arguments m) =
      Flags.resolve x.anchor (Extractor.arguments n) :=
    flatMap_eq_of_forall₂ harguments fun _ _ _ hk => ofArgument_marked hk x.anchor
  rw [Extractor.extractCandidate, Extractor.extractCandidate, rawName_marked h, valueType_marked h,
    h.own.line_eq]
  generalize Extractor.arguments n = ns at harguments hresolve ⊢
  generalize Extractor.arguments m = ms at harguments hresolve ⊢
  rcases harguments with _ | ⟨hkey, _ | ⟨hvalue, _ | ⟨hthird, hrest⟩⟩⟩
  · rfl
  · rfl
  · rfl
  · simp only [hresolve, hkey.own.token_eq, render_marked hvalue]

lemma extract_marked (x : Extractor) (file : String) : x.extract m file = x.extract n file := by
  rw [Extractor.extract, Extractor.extract,
    map_eq_of_forall₂ (select_marked (Extractor.built_candidates x) h)
      fun _ _ _ hk => extractCandidate_marked hk x file]

end Parts

/-- Where no attribute spells a role, any roles can be moved to that attribute: normalizing brings
them back and leaves the attributes, which neither a query nor the extraction of settings sees.
Normalizing any tree sets roles that are unset and changes nothing else, so once is enough. -/
theorem role_spelling_immaterial {t b : Node} (ht : Everywhere Unmarked t)
    (hb : Aligned Moved t b) :
    Aligned Marked t.normalize b.normalize ∧
    (∀ q, Built q →
      (q.places b.normalize).map Chain.ordinal = (q.places t).map Chain.ordinal) ∧
    (∀ (x : Extractor) (file : String), x.extract b.normalize file = x.extract t file) ∧
    ∀ n : Node, Aligned Lifted n n.normalize ∧ n.normalize.normalize = n.normalize := by
  have hmarked : Aligned Marked t b.normalize := hb.normalize ht
  refine ⟨?_, fun q hq => ordinals_marked hq hmarked, extract_marked hmarked, fun n => ?_⟩
  · rwa [normalize_of_unmarked ht]
  · exact ⟨aligned_normalize n, normalize_normalize n⟩

def dynamicFlag (last : Node) : Node :=
  Structural.branch qualifiedName [Structural.word simpleName defaultAnchor, last]

theorem role_spelling_immaterial_flag :
    let last := Structural.word simpleName "Dynamic"
    let t := dynamicFlag (last.withRole nameRole)
    let b := dynamicFlag (last.withAttribute roleAttribute nameRole)
    let q := Flags.shortForm defaultAnchor
    Everywhere Unmarked t ∧ Aligned Moved t b ∧ Aligned Marked t.normalize b.normalize ∧
      (q.places b.normalize).map Chain.ordinal = (q.places t).map Chain.ordinal := by
  intro last t b q
  have hleaf (m : Node) (hm : Unmarked m) (hnil : m.children = []) : Everywhere Unmarked m :=
    .mk hm (by simp [hnil])
  have hleaves : ∀ m ∈ t.children, Everywhere Unmarked m :=
    List.forall_mem_cons.mpr ⟨hleaf _ rfl rfl, List.forall_mem_singleton.mpr (hleaf _ rfl rfl)⟩
  have ht : Everywhere Unmarked t := .mk rfl hleaves
  have hb : Aligned Moved t b :=
    .mk (.kept rfl) (.cons (.mk (.kept rfl) .nil) (.cons (.mk (.moved rfl rfl) .nil) .nil))
  obtain ⟨hmarked, hplaces, -⟩ := role_spelling_immaterial ht hb
  exact ⟨ht, hb, hmarked, hplaces q (Flags.built_shortForm defaultAnchor)⟩

end SettingCatalog
