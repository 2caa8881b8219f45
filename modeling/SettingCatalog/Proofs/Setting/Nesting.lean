import SettingCatalog.Proofs.Query.Descent
import SettingCatalog.Proofs.Setting.Structure

/-! Declarations inside declarations. An argument of a declaration may hold a class with fields of
its own, and the queries of the extractor look for them too. The record of a declaration is its own
as long as each node that it is read from has no other declaration above it on the way to its own
one; then the declarations below may be of any other kind. -/

namespace SettingCatalog

open Vocabulary Text Query

namespace Node

mutual

def retag (tag : String) : Node → Node
  | ⟨own, token, role, attributes, children, position⟩ =>
    ⟨if own = fieldDeclaration then tag else own, token, role, attributes, retagAll tag children,
      position⟩

def retagAll (tag : String) : List Node → List Node
  | [] => []
  | n :: ns => n.retag tag :: retagAll tag ns

end

def retagBelow (tag : String) (c : Node) : Node := { c with children := c.children.map (retag tag) }

end Node

namespace Structural

open Node

def knownTags : List String :=
  [fieldDeclaration, variableFragment, parameterizedType, simpleType, simpleName, qualifiedName,
    methodInvocation, instanceCreation, numberLiteral, booleanLiteral]

/-! ### What is asked of the nodes from a part of a record up to its declaration -/

def nameTests : List (Node → Bool) := [tagged simpleName, tagged variableFragment]

def argumentTests (call : String) : List (Node → Bool) :=
  [playing argumentsRole, tagged call, tagged variableFragment]

def directTests : List (Node → Bool) :=
  [tagged simpleName, fun n => tagged simpleType n && playing typeArgumentsRole n,
    tagged parameterizedType]

def nestedTests : List (Node → Bool) :=
  [fun _ => true, fun n => tagged parameterizedType n && playing typeArgumentsRole n,
    tagged parameterizedType]

def declared (tests : List (Node → Bool)) (c : Node) : List (List Node) :=
  (lineages [] c).filter (stands (tests ++ [tagged fieldDeclaration]))

def sources (c : Node) : List (List Node) :=
  (declared nameTests c).take 1 ++
    (if (declared directTests c).isEmpty then declared nestedTests c
      else (declared directTests c).take 1) ++
    (if (declared (argumentTests methodInvocation) c).isEmpty
      then declared (argumentTests instanceCreation) c
      else declared (argumentTests methodInvocation) c)

/-- No field declaration stands between the node of a lineage and the root. -/
def Own (l : List Node) : Prop := ∀ n ∈ l.tail.dropLast, n.tag ≠ fieldDeclaration

instance (l : List Node) : Decidable (Own l) := inferInstanceAs (Decidable (∀ n ∈ _, _))

/-! ### Other tags -/

lemma retagAll_eq_map (tag : String) (ns : List Node) : retagAll tag ns = ns.map (retag tag) := by
  induction ns with
  | nil => rfl
  | cons n ns ih => rw [retagAll, ih, List.map_cons]

lemma children_retag (tag : String) (n : Node) :
    (n.retag tag).children = n.children.map (retag tag) := by
  cases n with
  | mk => rw [retag, retagAll_eq_map]

lemma tag_retag (tag : String) (n : Node) :
    (n.retag tag).tag = if n.tag = fieldDeclaration then tag else n.tag := by
  cases n with
  | mk => rw [retag]

@[simp] lemma token_retag (tag : String) (n : Node) : (n.retag tag).token = n.token := by
  cases n with
  | mk => rw [retag]

@[simp] lemma playing_retag (tag role : String) (n : Node) :
    playing role (n.retag tag) = playing role n := by
  cases n with
  | mk => rw [retag]; rfl

@[simp] lemma attributeValue_retag (tag name : String) (n : Node) :
    (n.retag tag).attributeValue name = n.attributeValue name := by
  cases n with
  | mk => rw [retag]; rfl

section Retag

variable {tag : String} (htag : tag ∉ knownTags)

include htag

lemma tag_retag_eq_iff (known : String) (hk : known ∈ knownTags) (hne : known ≠ fieldDeclaration)
    (n : Node) : (n.retag tag).tag = known ↔ n.tag = known := by
  have hother : tag ≠ known := fun h => htag (h ▸ hk)
  rw [tag_retag]
  split <;> simp_all [eq_comm]

lemma tagged_retag (known : String) (hk : known ∈ knownTags) (hne : known ≠ fieldDeclaration)
    (n : Node) : tagged known (n.retag tag) = tagged known n := by
  rw [tagged, tagged, Bool.eq_iff_iff, beq_iff_eq, beq_iff_eq, tag_retag_eq_iff htag known hk hne]

lemma named_retag (token : String) (n : Node) : named token (n.retag tag) = named token n := by
  rw [named, named, tagged_retag htag simpleName (by decide) (by decide), token_retag]

omit htag in
lemma any_children_retag (t : Node → Bool) (ht : ∀ n, t (n.retag tag) = t n) (n : Node) :
    (n.retag tag).children.any t = n.children.any t := by
  rw [children_retag, List.any_map]
  exact List.any_congr rfl ht

lemma flags_retag (anchor : String) (n : Node) : flags anchor (n.retag tag) = flags anchor n := by
  have hname := tagged_retag htag simpleName (by decide) (by decide)
  have hqual := tagged_retag htag qualifiedName (by decide) (by decide)
  have hanchor := any_children_retag (named anchor) (named_retag htag anchor)
  have hshort : shortFlags anchor (n.retag tag) = (shortFlags anchor n).map (retag tag) := by
    apply nodesWhere_map (children_retag tag)
    simp [hname, hqual, hanchor]
  have hlong : longFlags anchor (n.retag tag) = (longFlags anchor n).map (retag tag) := by
    have hholds (r : Node) : (tagged qualifiedName (r.retag tag) &&
        (r.retag tag).children.any (named anchor)) =
          (tagged qualifiedName r && r.children.any (named anchor)) := by rw [hqual, hanchor]
    have hinner := any_children_retag
      (fun r => tagged qualifiedName r && r.children.any (named anchor)) hholds
    apply nodesWhere_map (children_retag tag)
    simp [hname, hqual, hinner]
  simp [flags, hshort, hlong, Function.comp_def]

lemma callPart_retag (n : Node) :
    DefaultValue.callPart (n.retag tag) = DefaultValue.callPart n := by
  have hnumber := tag_retag_eq_iff htag numberLiteral (by decide) (by decide)
  simp [DefaultValue.callPart, DefaultValue.literalText, hnumber]

lemma creationPart_retag (n : Node) :
    DefaultValue.creationPart? (n.retag tag) = DefaultValue.creationPart? n := by
  have hnumber := tag_retag_eq_iff htag numberLiteral (by decide) (by decide)
  have hqual := tag_retag_eq_iff htag qualifiedName (by decide) (by decide)
  simp [DefaultValue.creationPart?, DefaultValue.literalText, DefaultValue.qualifiedText, hnumber,
    hqual, children_retag, Function.comp_def]

lemma render_retag (n : Node) : DefaultValue.render (n.retag tag) = DefaultValue.render n := by
  have hnumber := tag_retag_eq_iff htag numberLiteral (by decide) (by decide)
  have hboolean := tag_retag_eq_iff htag booleanLiteral (by decide) (by decide)
  have hcall := tag_retag_eq_iff htag methodInvocation (by decide) (by decide)
  have hcreation := tag_retag_eq_iff htag instanceCreation (by decide) (by decide)
  simp [DefaultValue.render, DefaultValue.literalText, DefaultValue.booleanText, hnumber, hboolean,
    hcall, hcreation, children_retag, Function.comp_def, callPart_retag htag,
    creationPart_retag htag]

omit htag in
lemma leadingToken_retag (n : Node) : leadingToken (n.retag tag) = leadingToken n := by
  rw [leadingToken, leadingToken, children_retag]
  cases n.children with
  | nil => exact token_retag tag n
  | cons m ms => exact token_retag tag m

end Retag

/-! ### The lineages that stay -/

structure Inside (tag : String) (tests : List (Node → Bool)) : Prop where
  ne_nil : tests ≠ []
  blind : ∀ t ∈ tests, ∀ n, t (n.retag tag) = t n
  between : ∀ t ∈ tests.tail, ∀ n, t n = true → n.tag ≠ fieldDeclaration

section Inside

variable {tag : String} {tests : List (Node → Bool)} {t : Node → Bool}

lemma Inside.single (ht : ∀ n, t (n.retag tag) = t n) : Inside tag [t] :=
  ⟨by simp, by simpa using ht, by simp⟩

lemma Inside.push (h : Inside tag tests) (ht : ∀ n, t (n.retag tag) = t n)
    (hno : ∀ n, t n = true → n.tag ≠ fieldDeclaration) : Inside tag (tests ++ [t]) where
  ne_nil := by simp
  blind u hu := by
    rcases List.mem_append.mp hu with hu | hu
    · exact h.blind u hu
    · rw [List.mem_singleton.mp hu]
      exact ht
  between u hu := by
    rw [List.tail_append_of_ne_nil h.ne_nil] at hu
    rcases List.mem_append.mp hu with hu | hu
    · exact h.between u hu
    · rw [List.mem_singleton.mp hu]
      exact hno

variable (htag : tag ∉ knownTags) {known : String} (hk : known ∈ knownTags)
  (hne : known ≠ fieldDeclaration)

include htag hk hne

lemma Inside.push_tagged (h : Inside tag tests) : Inside tag (tests ++ [tagged known]) := by
  apply h.push (tagged_retag htag known hk hne)
  intro n hn
  rw [tagged, beq_iff_eq] at hn
  rwa [hn]

lemma Inside.push_tagged_playing (h : Inside tag tests) (role : String) :
    Inside tag (tests ++ [fun n => tagged known n && playing role n]) := by
  apply h.push
  · intro n
    rw [tagged_retag htag known hk hne, playing_retag]
  · intro n hn
    rw [Bool.and_eq_true, tagged, beq_iff_eq] at hn
    rwa [hn.1]

end Inside

section Patterns

variable {tag : String} (htag : tag ∉ knownTags)

include htag

lemma inside_nameTests : Inside tag nameTests := by
  have hname : Inside tag [tagged simpleName] :=
    .single (tagged_retag htag simpleName (by decide) (by decide))
  exact hname.push_tagged htag (by decide) (by decide)

lemma inside_argumentTests {call : String} (hcall : call ∈ knownTags)
    (hne : call ≠ fieldDeclaration) : Inside tag (argumentTests call) := by
  have hargument : Inside tag [playing argumentsRole] := .single (playing_retag tag argumentsRole)
  exact (hargument.push_tagged htag hcall hne).push_tagged htag (by decide) (by decide)

lemma inside_directTests : Inside tag directTests := by
  have hname : Inside tag [tagged simpleName] :=
    .single (tagged_retag htag simpleName (by decide) (by decide))
  exact (hname.push_tagged_playing htag (by decide) (by decide) typeArgumentsRole).push_tagged htag
    (by decide) (by decide)

lemma inside_nestedTests : Inside tag nestedTests := by
  have hany : Inside tag [fun _ => true] := .single fun _ => rfl
  exact (hany.push_tagged_playing htag (by decide) (by decide) typeArgumentsRole).push_tagged htag
    (by decide) (by decide)

end Patterns

lemma forall_of_stands {ts : List (Node → Bool)} {s : List Node} (hlen : s.length ≤ ts.length)
    (h : stands ts s = true) {P : Node → Prop} (hP : ∀ t ∈ ts, ∀ n, t n = true → P n) :
    ∀ n ∈ s, P n := by
  induction ts generalizing s with
  | nil =>
    obtain rfl := List.length_eq_zero_iff.mp (Nat.le_zero.mp hlen)
    simp
  | cons t ts ih =>
    cases s with
    | nil => simp
    | cons m s =>
      rw [stands, Bool.and_eq_true] at h
      have hrest := ih (Nat.le_of_succ_le_succ hlen) h.2
        fun t' ht' => hP t' (List.mem_cons_of_mem t ht')
      exact List.forall_mem_cons.mpr ⟨hP t List.mem_cons_self m h.1, hrest⟩

def retagLineage (tag : String) (c : Node) (l : List Node) : List Node :=
  l.dropLast.map (retag tag) ++ [c.retagBelow tag]

lemma lineages_retagBelow (tag : String) (c : Node) :
    lineages [] (c.retagBelow tag) = (lineages [] c).map (retagLineage tag c) := by
  have hchildren : (c.retagBelow tag).children = c.children.map (retag tag) := rfl
  rw [lineages_nil, lineages_nil, hchildren, List.flatMap_map, List.map_cons, List.map_flatMap]
  congr 1
  refine List.flatMap_congr fun m _ => ?_
  rw [lineages_map (children_retag tag), List.map_map, List.map_map]
  simp [Function.comp_def, retagLineage]

lemma own_concat {s : List Node} (hs : s ≠ []) (c : Node) :
    Own (s ++ [c]) ↔ ∀ n ∈ s.tail, n.tag ≠ fieldDeclaration := by
  rw [Own, List.tail_append_of_ne_nil hs, List.dropLast_concat]

lemma tagged_self {known : String} {n : Node} (h : n.tag = known) : tagged known n = true := by
  rw [tagged, h]
  exact beq_self_eq_true known

lemma stands_retagLineage {tag : String} (htag : tag ∉ knownTags) {tests : List (Node → Bool)}
    (h : Inside tag tests) {c : Node} (hc : c.tag = fieldDeclaration) (s : List Node) :
    stands (tests ++ [tagged fieldDeclaration]) (retagLineage tag c (s ++ [c])) =
      (stands (tests ++ [tagged fieldDeclaration]) (s ++ [c]) && decide (Own (s ++ [c]))) := by
  have hpos : 0 < tests.length := List.length_pos_of_ne_nil h.ne_nil
  rw [stands_concat, stands_concat, retagLineage, List.dropLast_concat]
  rcases lt_trichotomy tests.length s.length with hlt | heq | hgt
  · -- The declaration lies below the root: it has another tag now, and the lineage is not its own.
    have hgone (n : Node) : tagged fieldDeclaration (n.retag tag) = false := by
      rw [tagged, tag_retag, beq_eq_false_iff_ne]
      split
      · rintro rfl
        exact htag List.mem_cons_self
      · assumption
    rw [List.getElem?_append_left (by simpa using hlt), List.getElem?_append_left hlt,
      List.getElem?_map, List.getElem?_eq_getElem hlt]
    have hmem : s[tests.length] ∈ s.tail := by
      refine List.mem_of_getElem? (i := tests.length - 1) ?_
      rw [List.getElem?_tail, Nat.sub_add_cancel hpos, List.getElem?_eq_getElem hlt]
    have hnot : tagged fieldDeclaration s[tests.length] = true → ¬ Own (s ++ [c]) := by
      intro hn hown
      have hs : s ≠ [] := List.ne_nil_of_length_pos (by omega)
      exact (own_concat hs c).mp hown _ hmem (beq_iff_eq.mp hn)
    cases hn : tagged fieldDeclaration s[tests.length] with
    | false => simp [hgone, hn]
    | true => simp [hgone, hnot hn]
  · have hs : s ≠ [] := List.ne_nil_of_length_pos (by omega)
    have hroot : tagged fieldDeclaration (c.retagBelow tag) = true := tagged_self hc
    have hmap : tests.length = (s.map (retag tag)).length := by simpa using heq
    rw [stands_append (Nat.le_of_eq hmap), stands_append (Nat.le_of_eq heq), stands_map h.blind,
      List.getElem?_append_right (Nat.le_of_eq hmap.symm),
      List.getElem?_append_right (Nat.le_of_eq heq.symm), ← hmap, ← heq, Nat.sub_self]
    simp only [List.getElem?_cons_zero, Option.any_some, hroot, tagged_self hc, Bool.and_true]
    cases hst : stands tests s with
    | false => rfl
    | true =>
    rw [Bool.true_and, eq_comm, decide_eq_true_eq, own_concat hs]
    cases tests with
    | nil => simp at hpos
    | cons t ts =>
      cases s with
      | nil => simp at hs
      | cons n s =>
        rw [stands, Bool.and_eq_true] at hst
        exact forall_of_stands (Nat.le_of_succ_le_succ (Nat.le_of_eq heq.symm)) hst.2 h.between
  · have hnone (r : List Node) (hr : r.length = s.length) (m : Node) :
        (r ++ [m])[tests.length]? = none := by
      rw [List.getElem?_eq_none_iff]
      simp only [List.length_append, List.length_singleton]
      omega
    rw [hnone _ (List.length_map _), hnone s rfl]
    simp

lemma declared_retagBelow {tag : String} (htag : tag ∉ knownTags) {tests : List (Node → Bool)}
    (h : Inside tag tests) {c : Node} (hc : c.tag = fieldDeclaration) :
    declared tests (c.retagBelow tag) =
      ((declared tests c).filter fun l => Own l).map (retagLineage tag c) := by
  rw [declared, lineages_retagBelow, List.filter_map, declared, List.filter_filter]
  congr 1
  refine List.filter_congr fun l hl => ?_
  obtain ⟨s, rfl⟩ := exists_of_mem_lineages hl
  rw [Function.comp_apply, stands_retagLineage htag h hc, Bool.and_comm]

lemma head_retagLineage (tag : String) {tests : List (Node → Bool)} (h : tests ≠ []) {c : Node}
    {l : List Node} (hl : l ∈ declared tests c) :
    ∃ n, l.head? = some n ∧ (retagLineage tag c l).head? = some (n.retag tag) := by
  obtain ⟨hl, hst⟩ := List.mem_filter.mp hl
  obtain ⟨s, rfl⟩ := exists_of_mem_lineages hl
  cases s with
  | nil =>
    -- One node cannot pass two tests.
    cases tests with
    | nil => exact absurd rfl h
    | cons t ts => cases ts <;> simp [stands] at hst
  | cons n s => exact ⟨n, rfl, by rw [retagLineage, List.dropLast_concat]; rfl⟩

section Below

variable {tag : String} (htag : tag ∉ knownTags) {tests : List (Node → Bool)}
  (h : Inside tag tests) {c : Node} (hc : c.tag = fieldDeclaration)

include htag h hc

lemma first_retagBelow (hown : ∀ l ∈ (declared tests c).take 1, Own l) :
    (nodesWhere (tests ++ [tagged fieldDeclaration]) (c.retagBelow tag)).head? =
      (nodesWhere (tests ++ [tagged fieldDeclaration]) c).head?.map (retag tag) := by
  change ((declared tests (c.retagBelow tag)).filterMap List.head?).head? =
    ((declared tests c).filterMap List.head?).head?.map (retag tag)
  rw [declared_retagBelow htag h hc]
  cases hd : declared tests c with
  | nil => rfl
  | cons l ls =>
    rw [hd] at hown
    have hlo : Own l := hown l (by simp)
    obtain ⟨n, hn, hr⟩ := head_retagLineage tag h.ne_nil (hd ▸ List.mem_cons_self)
    rw [List.filter_cons_of_pos (by simpa using hlo), List.map_cons, List.filterMap_cons_some hr,
      List.filterMap_cons_some hn]
    rfl

lemma all_retagBelow (hown : ∀ l ∈ declared tests c, Own l) :
    nodesWhere (tests ++ [tagged fieldDeclaration]) (c.retagBelow tag) =
      (nodesWhere (tests ++ [tagged fieldDeclaration]) c).map (retag tag) := by
  change (declared tests (c.retagBelow tag)).filterMap List.head? =
    ((declared tests c).filterMap List.head?).map (retag tag)
  rw [declared_retagBelow htag h hc, List.filter_eq_self.mpr fun l hl => decide_eq_true (hown l hl),
    List.filterMap_map, List.map_filterMap]
  refine List.filterMap_congr fun l hl => ?_
  obtain ⟨n, hn, hr⟩ := head_retagLineage tag h.ne_nil hl
  rw [Function.comp_apply, hr, hn, Option.map_some]

end Below

/-! ### Records -/

lemma nodesWhere_eq_nil_of_declared {tests : List (Node → Bool)} {c : Node}
    (h : declared tests c = []) : nodesWhere (tests ++ [tagged fieldDeclaration]) c = [] := by
  change (declared tests c).filterMap List.head? = []
  rw [h, List.filterMap_nil]

lemma nodesWhere_ne_nil_of_declared {tests : List (Node → Bool)} {c : Node}
    (h : declared tests c ≠ []) : nodesWhere (tests ++ [tagged fieldDeclaration]) c ≠ [] := by
  change (declared tests c).filterMap List.head? ≠ []
  obtain ⟨l, hl⟩ := List.exists_mem_of_ne_nil _ h
  obtain ⟨s, rfl⟩ := exists_of_mem_lineages (List.mem_filter.mp hl).1
  intro hnone
  have hhead := List.filterMap_eq_nil_iff.mp hnone _ hl
  simp at hhead

section Record

variable {tag : String} (htag : tag ∉ knownTags) {c : Node} (hc : c.tag = fieldDeclaration)

include htag hc

lemma rawName_retagBelow (hown : ∀ l ∈ (declared nameTests c).take 1, Own l) :
    rawName (c.retagBelow tag) = rawName c := by
  have hfirst := first_retagBelow htag (inside_nameTests htag) hc hown
  change ((nodesWhere (nameTests ++ [tagged fieldDeclaration]) (c.retagBelow tag)).head?.map
    Node.token).getD "" = ((nodesWhere (nameTests ++ [tagged fieldDeclaration]) c).head?.map
    Node.token).getD ""
  rw [hfirst, Option.map_map]
  simp [Function.comp_def]

lemma valueType_retagBelow
    (hown : ∀ l ∈ if (declared directTests c).isEmpty then declared nestedTests c
      else (declared directTests c).take 1, Own l) :
    valueType (c.retagBelow tag) = valueType c := by
  have hdirect := inside_directTests htag
  unfold valueType
  by_cases hd : declared directTests c = []
  · rw [hd] at hown
    have hnone : directTypes c = [] := nodesWhere_eq_nil_of_declared hd
    have hnone' : directTypes (c.retagBelow tag) = [] :=
      (all_retagBelow htag hdirect hc (by simp [hd])).trans (congrArg _ hnone)
    have hnested : nestedTypes (c.retagBelow tag) = (nestedTypes c).map (retag tag) :=
      all_retagBelow htag (inside_nestedTests htag) hc hown
    rw [hnone, hnone', hnested, List.map_map]
    simp [Function.comp_def, leadingToken_retag]
  · rw [if_neg (by simpa using hd)] at hown
    have hfirst : (directTypes (c.retagBelow tag)).head? = (directTypes c).head?.map (retag tag) :=
      first_retagBelow htag hdirect hc hown
    obtain ⟨name, names, hnames⟩ :=
      List.exists_cons_of_ne_nil (show directTypes c ≠ [] from nodesWhere_ne_nil_of_declared hd)
    rw [hnames] at hfirst
    obtain ⟨names', hnames'⟩ := List.head?_eq_some_iff.mp hfirst
    rw [hnames, hnames']
    exact token_retag tag name

lemma arguments_retagBelow
    (hown : ∀ l ∈ if (declared (argumentTests methodInvocation) c).isEmpty
      then declared (argumentTests instanceCreation) c
      else declared (argumentTests methodInvocation) c, Own l) :
    arguments (c.retagBelow tag) = (arguments c).map (retag tag) := by
  have hfactory : Inside tag (argumentTests methodInvocation) :=
    inside_argumentTests htag (by decide) (by decide)
  have hconstructor : Inside tag (argumentTests instanceCreation) :=
    inside_argumentTests htag (by decide) (by decide)
  unfold arguments
  by_cases hd : declared (argumentTests methodInvocation) c = []
  · rw [hd] at hown
    have hnone : argumentsOf methodInvocation c = [] := nodesWhere_eq_nil_of_declared hd
    have hnone' : argumentsOf methodInvocation (c.retagBelow tag) = [] :=
      (all_retagBelow htag hfactory hc (by simp [hd])).trans (congrArg _ hnone)
    rw [hnone, hnone']
    exact all_retagBelow htag hconstructor hc hown
  · rw [if_neg (by simpa using hd)] at hown
    have hsome : argumentsOf methodInvocation c ≠ [] := nodesWhere_ne_nil_of_declared hd
    have hall : argumentsOf methodInvocation (c.retagBelow tag) =
        (argumentsOf methodInvocation c).map (retag tag) := all_retagBelow htag hfactory hc hown
    rw [hall, if_neg (by simpa using hsome), if_neg (by simpa using hsome)]

end Record

/-- The record of a declaration, or what is said instead of one, is the same whatever the tags of
the declarations below it, as long as no part of it is read from one of those. -/
theorem candidate_of_own_sources (x : Extractor) (file : String) {c : Node} {tag : String}
    (hc : c.tag = fieldDeclaration) (htag : tag ∉ knownTags) (hown : ∀ l ∈ sources c, Own l) :
    x.extractCandidate (c.retagBelow tag) file = x.extractCandidate c file := by
  simp only [sources, List.mem_append] at hown
  have hname := rawName_retagBelow htag hc fun l hl => hown l (.inl (.inl hl))
  have htype := valueType_retagBelow htag hc fun l hl => hown l (.inl (.inr hl))
  have harguments := arguments_retagBelow htag hc fun l hl => hown l (.inr hl)
  have hline : (c.retagBelow tag).line = c.line := rfl
  rw [candidate_eq, candidate_eq, candidate, candidate, harguments, hname, htype, hline]
  rcases arguments c with _ | ⟨key, _ | ⟨value, _ | ⟨third, rest⟩⟩⟩
  · rfl
  · rfl
  · rfl
  · simp [render_retag htag, flags_retag htag, List.flatMap_map]

/-! ### Declarations of one variable -/

def branch (tag : String) (parts : List Node) : Node := (ofTag tag).withChildren parts

def word (tag token : String) : Node := (ofTag tag).withToken token

def integerSetting : Node :=
  branch parameterizedType
    [branch simpleType [word simpleName defaultSettingType],
      (branch simpleType [word simpleName "Integer"]).withRole typeArgumentsRole]

def initialized (name call : String) (arguments : List Node) : Node :=
  branch variableFragment
    [word simpleName name, branch call (arguments.map (·.withRole argumentsRole))]

def declaration (fragments : List Node) : Node :=
  branch fieldDeclaration (integerSetting :: fragments)

def enclosing (outer inner : String) : Node :=
  let within := declaration [initialized "INNER" inner
    [word "StringLiteral" "inner.key", word numberLiteral "2", word numberLiteral "3"]]
  declaration [initialized "OUTER" outer
    [word "StringLiteral" "outer.key", word numberLiteral "1",
      branch instanceCreation [branch "AnonymousClassDeclaration" [within]]]]

/-- A call for the outer variable goes before a construction for the inner one. -/
theorem candidate_enclosing_call :
    (∀ l ∈ sources (enclosing methodInvocation instanceCreation), Own l) ∧
      Extractor.standard.extractCandidate
          ((enclosing methodInvocation instanceCreation).retagBelow "Block") "Outer.java" =
        Extractor.standard.extractCandidate (enclosing methodInvocation instanceCreation)
          "Outer.java" := by
  have hown : ∀ l ∈ sources (enclosing methodInvocation instanceCreation), Own l := by
    decide +kernel
  exact ⟨hown, candidate_of_own_sources _ _ rfl (by decide) hown⟩

/-- A call for the inner variable goes before a construction for the outer one: the outer
declaration takes the key of the inner one. -/
theorem candidate_enclosing_construction :
    let c := enclosing instanceCreation methodInvocation
    let naming := fun r : Record => (r.rawName, r.name)
    c.tag = fieldDeclaration ∧ "Block" ∉ knownTags ∧
      (Extractor.standard.extractCandidate c "Outer.java").map naming =
        .ok ("OUTER", "inner.key") ∧
      (Extractor.standard.extractCandidate (c.retagBelow "Block") "Outer.java").map naming =
        .ok ("OUTER", "outer.key") := by
  simp only [candidate_eq]
  decide +kernel

end Structural

end SettingCatalog
