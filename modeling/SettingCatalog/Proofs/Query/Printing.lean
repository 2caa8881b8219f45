import SettingCatalog.Proofs.Query.Parsing
import SettingCatalog.Query.Printer

/-! Which queries are parsed back from their texts. A value is printed between single quotes as it
is, so a query whose values hold none comes back. With one inside it does not, whatever its text is
parsed to: a derivation spells a value in no more characters than the printer, so a text that means
its own query has every value where the printer put it. -/

namespace SettingCatalog.Query

open Grammar

inductive Built : Query → Prop
  | parsed {s : String} {q : Query} : parse s = .ok q → Built q
  | empty : Built empty
  | descendant {q : Query} (tag : String) : Built q → Built (q.descendant tag)
  | child {q : Query} (tag : String) : Built q → Built (q.child tag)
  | anyChild {q : Query} : Built q → Built q.anyChild
  | parent {q : Query} : Built q → Built q.parent
  | withToken {q : Query} (value : String) : Built q → Built (q.withToken value)
  | withRole {q : Query} (value : String) : Built q → Built (q.withRole value)
  | withAttribute {q : Query} (name value : String) : Built q → Built (q.withAttribute name value)

def Test.tag? : Test → Option String
  | any => none
  | tag name => some name

def Predicate.attribute? : Predicate → Option String
  | attr name _ => some name
  | _ => none

def tags (q : Query) : List String := q.steps.filterMap fun s => s.test.tag?

def attributeNames (q : Query) : List String :=
  (q.steps.flatMap Step.predicates).filterMap Predicate.attribute?

def values (q : Query) : List String :=
  (q.steps.flatMap Step.predicates).map fun p => p.nameAndValue.2

def IsName (name : String) : Prop := name ≠ "" ∧ ∀ c ∈ name.toList, isNameChar c = true

instance (name : String) : Decidable (IsName name) :=
  decidable_of_iff (name ≠ "" ∧ name.toList.all isNameChar = true) (by simp [IsName])

/-! ### Texts of queries -/

lemma toList_render (q : Query) :
    q.render.toList = q.steps.flatMap fun s => s.render.toList := by
  rw [render, String.toList_join, List.flatMap_map]

lemma Step.toList_render (s : Step) :
    s.render.toList =
      s.renderTarget.toList ++ s.predicates.flatMap fun p => p.render.toList := by
  rw [render, String.toList_append, String.toList_join, List.flatMap_map]

lemma Predicate.toList_render (p : Predicate) :
    p.render.toList = '[' :: '@' :: (p.nameAndValue.1.toList ++
      '=' :: '\x27' :: (p.nameAndValue.2.toList ++ ['\x27', ']'])) := by
  simp [render]

lemma Predicate.nameAndValue_ofName (name value : String) :
    (ofName name value).nameAndValue = (name, value) := by
  unfold ofName
  split
  · simp_all [nameAndValue]
  · split <;> simp_all [nameAndValue]

lemma Grammar.Segment.toList_renderTarget (g : Segment) :
    g.step.renderTarget.toList = g.target.text := by
  obtain ⟨_ | _ | ⟨_ | _, _ | n⟩, fs⟩ := g <;>
    simp [Segment.step, Step.renderTarget, Target.axis, Target.test, Target.text, testText,
      Test.render, Name.spelled]

lemma Grammar.Filter.toList_render (f : Filter) :
    f.predicate.render.toList = '[' :: '@' :: (f.name.chars ++
      '=' :: '\x27' :: (f.value.chars ++ ['\x27', ']'])) := by
  rw [Predicate.toList_render, Filter.predicate, Predicate.nameAndValue_ofName, Name.spelled,
    Value.spelled, String.toList_ofList, String.toList_ofList]

/-! ### A text that means its own query -/

section Items

variable {α : Type} {short long : α → List Char}

lemma length_flatMap_le (h : ∀ a, (short a).length ≤ (long a).length) (as : List α) :
    (as.flatMap short).length ≤ (as.flatMap long).length := by
  induction as with
  | nil => exact Nat.le_refl _
  | cons a as ih =>
    simp only [List.flatMap_cons, List.length_append]
    exact Nat.add_le_add (h a) ih

/-- If no item is longer in the one way than in the other, equal texts have equal items. -/
lemma eq_of_flatMap_eq (hle : ∀ a, (short a).length ≤ (long a).length) {as : List α}
    (h : as.flatMap short = as.flatMap long) : ∀ a ∈ as, short a = long a := by
  induction as with
  | nil => simp
  | cons a as ih =>
    simp only [List.flatMap_cons] at h
    have hlen : (short a).length = (long a).length := by
      have hl := congrArg List.length h
      simp only [List.length_append] at hl
      have hhead := hle a
      have htail := length_flatMap_le hle as
      omega
    obtain ⟨ha, has⟩ := List.append_inj h hlen
    exact List.forall_mem_cons.mpr ⟨ha, ih has⟩

end Items

lemma Grammar.Filter.length_text_le (f : Filter) :
    f.text.length ≤ f.predicate.render.toList.length := by
  have hv : f.value.text.length ≤ f.value.chars.length + 2 := by
    cases f.value <;> simp [Value.text, Value.chars]
  simp only [Filter.toList_render, Filter.text, List.length_cons, List.length_append,
    List.length_nil]
  omega

lemma Grammar.Segment.toList_render (g : Segment) :
    g.step.render.toList =
      g.target.text ++ g.filters.flatMap fun f => f.predicate.render.toList := by
  rw [Step.toList_render, g.toList_renderTarget, Segment.step, List.flatMap_map]

lemma Grammar.Segment.length_text_le (g : Segment) :
    g.text.length ≤ g.step.render.toList.length := by
  rw [Segment.text, Segment.toList_render, List.length_append, List.length_append]
  apply Nat.add_le_add_left
  exact length_flatMap_le Filter.length_text_le g.filters

lemma Grammar.Filter.no_quote {f : Filter} (h : f.text = f.predicate.render.toList) :
    '\x27' ∉ f.value.chars := by
  rw [Filter.toList_render, Filter.text] at h
  simp only [List.cons.injEq, true_and, List.append_cancel_left_eq] at h
  cases hv : f.value with
  | quoted q cs hq hc =>
    rw [hv, Value.text] at h
    obtain rfl : q = '\x27' := (List.cons.inj h).1
    exact hc
  | bare cs hn hu hc =>
    have hl := congrArg List.length h
    simp [hv, Value.text, Value.chars] at hl

lemma no_quote_of_text {d : Derivation} (h : d.text = d.query.render.toList) :
    ∀ v ∈ d.query.values, '\x27' ∉ v.toList := by
  rw [toList_render, Derivation.query, List.flatMap_map] at h
  have hg := eq_of_flatMap_eq Segment.length_text_le h
  intro v hv
  simp only [values, Derivation.query, List.flatMap_map, List.mem_map, List.mem_flatMap,
    Segment.step] at hv
  obtain ⟨_, ⟨g, hgm, f, hf, rfl⟩, rfl⟩ := hv
  have htext := hg g hgm
  rw [Segment.text, Segment.toList_render, List.append_cancel_left_eq] at htext
  rw [Filter.predicate, Predicate.nameAndValue_ofName, Value.spelled, String.toList_ofList]
  exact Filter.no_quote (eq_of_flatMap_eq Filter.length_text_le htext f hf)

/-! ### Names in a text -/

lemma Grammar.Derivation.steps_ne_nil (d : Derivation) : d.query.steps ≠ [] := by
  simpa [Derivation.query] using d.nonempty

lemma Grammar.Name.isName (n : Name) : IsName n.spelled := by
  refine ⟨?_, ?_⟩
  · intro h
    exact n.nonempty (by simpa [Name.spelled] using congrArg String.toList h)
  · rw [Name.spelled, String.toList_ofList]
    exact n.named

lemma isName_of_mem_tags {d : Derivation} {t : String} (h : t ∈ d.query.tags) : IsName t := by
  simp only [tags, Derivation.query, List.mem_filterMap, List.mem_map, exists_exists_and_eq_and,
    Segment.step] at h
  obtain ⟨⟨target, fs⟩, -, ht⟩ := h
  obtain _ | _ | ⟨deep, _ | n⟩ := target
  case down.some =>
    obtain rfl : n.spelled = t := by simpa [Target.test, Test.tag?] using ht
    exact n.isName
  all_goals simp [Target.test, Test.tag?] at ht

lemma Predicate.attribute?_ofName {name value n : String}
    (h : (ofName name value).attribute? = some n) : n = name := by
  unfold ofName at h
  split at h
  · cases h
  · split at h
    · cases h
    · simpa [attribute?] using h.symm

lemma isName_of_mem_attributeNames {d : Derivation} {n : String}
    (h : n ∈ d.query.attributeNames) : IsName n := by
  simp only [attributeNames, Derivation.query, List.flatMap_map, List.mem_filterMap,
    List.mem_flatMap, Segment.step, List.mem_map] at h
  obtain ⟨_, ⟨g, -, f, -, rfl⟩, hn⟩ := h
  rw [Predicate.attribute?_ofName hn]
  exact f.name.isName

/-! ### Queries that are built -/

/-- Steps of the axes without a tag have none, and no predicate has a name that stands for
another. -/
structure Step.Regular (s : Step) : Prop where
  test : s.axis = .parent ∨ s.axis = .current → s.test = .any
  predicates : ∀ p ∈ s.predicates, p = .ofName p.nameAndValue.1 p.nameAndValue.2

def Regular (q : Query) : Prop := ∀ s ∈ q.steps, s.Regular

lemma Grammar.Segment.regular (g : Segment) : g.step.Regular where
  test h := by
    obtain ⟨_ | _ | ⟨_ | _, _ | n⟩, fs⟩ := g <;> simp_all [Segment.step, Target.axis, Target.test]
  predicates p hp := by
    obtain ⟨f, -, rfl⟩ := List.mem_map.mp hp
    rw [Filter.predicate, Predicate.nameAndValue_ofName]

lemma Regular.push {q : Query} (h : q.Regular) (axis : Axis) (test : Test)
    (ht : axis = .parent ∨ axis = .current → test = .any) :
    (q.push (.plain axis test)).Regular := by
  intro s hs
  rw [Query.push] at hs
  rcases List.mem_append.mp hs with hs | hs
  · exact h s hs
  · obtain rfl := List.mem_singleton.mp hs
    exact ⟨ht, by simp [Step.plain]⟩

lemma Regular.filter {q : Query} (h : q.Regular) (p : Predicate)
    (hp : p = .ofName p.nameAndValue.1 p.nameAndValue.2) : (q.filter p).Regular := by
  obtain ⟨steps⟩ := q
  change ∀ s ∈ filterSteps p steps, s.Regular
  fun_induction filterSteps p steps with
  | case1 =>
    intro s hs
    obtain rfl := List.mem_singleton.mp hs
    exact ⟨by simp, by simpa using hp⟩
  | case2 s =>
    intro s' hs
    obtain rfl := List.mem_singleton.mp hs
    have hr := h s (by simp)
    refine ⟨hr.test, ?_⟩
    intro p' hp'
    rcases List.mem_append.mp hp' with hp' | hp'
    · exact hr.predicates p' hp'
    · rw [List.mem_singleton.mp hp']
      exact hp
  | case3 s steps _ ih =>
    have hsteps : Regular ⟨steps⟩ := fun s' hs => h s' (List.mem_cons_of_mem s hs)
    exact List.forall_mem_cons.mpr ⟨h s List.mem_cons_self, ih hsteps⟩

lemma Built.regular {q : Query} (h : Built q) : q.Regular := by
  induction h with
  | parsed h =>
    obtain ⟨d, -, rfl⟩ := parse_eq_ok_iff.mp h
    intro s hs
    obtain ⟨g, -, rfl⟩ := List.mem_map.mp hs
    exact g.regular
  | empty =>
    intro s hs
    cases hs
  | descendant tag _ ih => exact ih.push .descendant (.tag tag) (by simp)
  | child tag _ ih => exact ih.push .child (.tag tag) (by simp)
  | anyChild _ ih => exact ih.push .child .any (by simp)
  | parent _ ih => exact ih.push .parent .any (by simp)
  | withToken value _ ih => exact ih.filter (.token value) rfl
  | withRole value _ ih => exact ih.filter (.role value) rfl
  | withAttribute name value _ ih =>
    exact ih.filter (.ofName name value) (by rw [Predicate.nameAndValue_ofName])

/-! ### Derivations of printed queries -/

lemma exists_items {α β : Type} {text : α → List Char} {means : α → β} {render : β → List Char}
    {bs : List β} (h : ∀ b ∈ bs, ∃ a, text a = render b ∧ means a = b) :
    ∃ as : List α, as.flatMap text = bs.flatMap render ∧ as.map means = bs := by
  induction bs with
  | nil => exact ⟨[], rfl, rfl⟩
  | cons b bs ih =>
    obtain ⟨hb, hbs⟩ := List.forall_mem_cons.mp h
    obtain ⟨a, ha, hm⟩ := hb
    obtain ⟨as, has, hms⟩ := ih hbs
    exact ⟨a :: as, by rw [List.flatMap_cons, List.flatMap_cons, ha, has],
      by rw [List.map_cons, hm, hms]⟩

lemma IsName.exists_name {name : String} (h : IsName name) : ∃ n : Name, n.spelled = name :=
  ⟨⟨name.toList, by simpa using h.1, h.2⟩, String.ofList_toList⟩

lemma Predicate.isName_nameAndValue {p : Predicate} (h : ∀ n ∈ p.attribute?, IsName n) :
    IsName p.nameAndValue.1 := by
  cases p with
  | token value => exact (by decide +kernel : IsName tokenName)
  | role value => exact (by decide +kernel : IsName Node.roleAttribute)
  | attr name value => exact h name rfl

lemma exists_filter {p : Predicate} (hp : p = .ofName p.nameAndValue.1 p.nameAndValue.2)
    (hn : ∀ n ∈ p.attribute?, IsName n) (hv : '\x27' ∉ p.nameAndValue.2.toList) :
    ∃ f : Filter, f.text = p.render.toList ∧ f.predicate = p := by
  obtain ⟨n, hname⟩ := (Predicate.isName_nameAndValue hn).exists_name
  let v : Value := .quoted '\x27' p.nameAndValue.2.toList (by decide) hv
  have hpred : Filter.predicate ⟨n, v⟩ = p := by
    rw [Filter.predicate, hname, Value.spelled]
    exact (congrArg _ String.ofList_toList).trans hp.symm
  refine ⟨⟨n, v⟩, ?_, hpred⟩
  rw [← hpred, Filter.toList_render]
  simp [Filter.text, v, Value.text, Value.chars]

lemma exists_target {s : Step} (hs : s.Regular) (ht : ∀ t ∈ s.test.tag?, IsName t) :
    ∃ t : Target, t.axis = s.axis ∧ t.test = s.test := by
  have down (deep : Bool) : ∃ name?, (Target.down deep name?).test = s.test := by
    cases htest : s.test with
    | any => exact ⟨none, rfl⟩
    | tag name =>
      obtain ⟨n, rfl⟩ := (ht name (by simp [htest, Test.tag?])).exists_name
      exact ⟨some n, rfl⟩
  cases haxis : s.axis with
  | child =>
    obtain ⟨name?, hname⟩ := down false
    exact ⟨.down false name?, rfl, hname⟩
  | descendant =>
    obtain ⟨name?, hname⟩ := down true
    exact ⟨.down true name?, rfl, hname⟩
  | parent => exact ⟨.parent, rfl, (hs.test (.inl haxis)).symm⟩
  | current => exact ⟨.current, rfl, (hs.test (.inr haxis)).symm⟩

lemma exists_segment {s : Step} (hs : s.Regular) (ht : ∀ t ∈ s.test.tag?, IsName t)
    (hn : ∀ p ∈ s.predicates, ∀ n ∈ p.attribute?, IsName n)
    (hv : ∀ p ∈ s.predicates, '\x27' ∉ p.nameAndValue.2.toList) :
    ∃ g : Segment, g.text = s.render.toList ∧ g.step = s := by
  obtain ⟨t, haxis, htest⟩ := exists_target hs ht
  obtain ⟨fs, htext, hfs⟩ := exists_items fun p hp =>
    exists_filter (hs.predicates p hp) (hn p hp) (hv p hp)
  have hstep : Segment.step ⟨t, fs⟩ = s := by rw [Segment.step, haxis, htest, hfs]
  refine ⟨⟨t, fs⟩, ?_, hstep⟩
  rw [Segment.text, htext, Step.toList_render, ← Segment.toList_renderTarget, hstep]

lemma exists_derivation {q : Query} (hq : q.Regular) (hs : q.steps ≠ [])
    (ht : ∀ t ∈ q.tags, IsName t) (hn : ∀ n ∈ q.attributeNames, IsName n)
    (hv : ∀ v ∈ q.values, '\x27' ∉ v.toList) :
    ∃ d : Derivation, d.text = q.render.toList ∧ d.query = q := by
  have hsegment : ∀ s ∈ q.steps, ∃ g : Segment, g.text = s.render.toList ∧ g.step = s := by
    intro s hsm
    have mem {p : Predicate} (hp : p ∈ s.predicates) : p ∈ q.steps.flatMap Step.predicates :=
      List.mem_flatMap.mpr ⟨s, hsm, hp⟩
    apply exists_segment (hq s hsm)
    · intro t htag
      exact ht t (List.mem_filterMap.mpr ⟨s, hsm, htag⟩)
    · intro p hp n hname
      exact hn n (List.mem_filterMap.mpr ⟨p, mem hp, hname⟩)
    · intro p hp
      exact hv _ (List.mem_map.mpr ⟨p, mem hp, rfl⟩)
  obtain ⟨gs, htext, hgs⟩ := exists_items hsegment
  refine ⟨⟨gs, ?_⟩, htext.trans (toList_render q).symm, ?_⟩
  · rintro rfl
    exact hs hgs.symm
  · rw [Derivation.query, hgs]

lemma Regular.parse_render {q : Query} (h : q.Regular) :
    parse q.render = .ok q ↔ q.steps ≠ [] ∧ (∀ t ∈ q.tags, IsName t) ∧
      (∀ n ∈ q.attributeNames, IsName n) ∧ ∀ v ∈ q.values, '\x27' ∉ v.toList := by
  rw [parse_eq_ok_iff]
  constructor
  · rintro ⟨d, htext, rfl⟩
    exact ⟨d.steps_ne_nil, fun _ => isName_of_mem_tags, fun _ => isName_of_mem_attributeNames,
      no_quote_of_text htext⟩
  · rintro ⟨hs, ht, hn, hv⟩
    exact exists_derivation h hs ht hn hv

/-- A query comes back from its text exactly if it has steps, its names are names, and no single
quote is in its values. For a query that was parsed only the quotes count. -/
theorem parse_render_iff {q : Query} (h : Built q) :
    (parse q.render = .ok q ↔ q.steps ≠ [] ∧ (∀ t ∈ q.tags, IsName t) ∧
      (∀ n ∈ q.attributeNames, IsName n) ∧ ∀ v ∈ q.values, '\x27' ∉ v.toList) ∧
    ∀ s, parse s = .ok q → (parse q.render ≠ .ok q ↔ ∃ v ∈ q.values, '\x27' ∈ v.toList) := by
  refine ⟨h.regular.parse_render, fun s hs => ?_⟩
  obtain ⟨d, -, rfl⟩ := parse_eq_ok_iff.mp hs
  rw [ne_eq, h.regular.parse_render]
  constructor
  · intro hne
    by_contra hv
    push Not at hv
    exact hne ⟨d.steps_ne_nil, fun _ => isName_of_mem_tags,
      fun _ => isName_of_mem_attributeNames, hv⟩
  · rintro ⟨v, hv, hq⟩ ⟨-, -, -, hno⟩
    exact hno v hv hq

/-- A bare value may hold a quote, and then the query does not come back. -/
theorem parse_render_bare_quote :
    let q : Query := ⟨[⟨.child, .tag "A", [.attr "x" "it's"]⟩]⟩
    Built q ∧ parse "/A[@x=it's]" = .ok q ∧ parse q.render ≠ .ok q := by
  intro q
  have hp : parse "/A[@x=it's]" = .ok q := by decide +kernel
  have hq : '\x27' ∈ "it's".toList := by decide
  exact ⟨.parsed hp, hp, ((parse_render_iff (.parsed hp)).2 _ hp).mpr ⟨"it's", by decide, hq⟩⟩

end SettingCatalog.Query
