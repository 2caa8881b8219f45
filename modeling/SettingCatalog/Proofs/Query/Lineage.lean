import SettingCatalog.Proofs.Query.Selection

/-! Queries that ask only for a node and the nodes right above it. What such a query selects can be
told without it: by one test for the node, one for its parent, one for the parent of that, and so
on. A step to children puts a test in front; a step to parents turns the first test into a question
about children. -/

namespace SettingCatalog

mutual

/-- A node and the nodes below it in pre-order, each followed by the nodes above it, the nearest
first. -/
def lineages (above : List Node) : Node → List (List Node)
  | ⟨tag, token, role, attributes, children, position⟩ =>
    let here := ⟨tag, token, role, attributes, children, position⟩ :: above
    here :: lineagesAll here children

def lineagesAll (above : List Node) : List Node → List (List Node)
  | [] => []
  | n :: ns => lineages above n ++ lineagesAll above ns

end

def stands : List (Node → Bool) → List Node → Bool
  | [], _ => true
  | _ :: _, [] => false
  | t :: ts, n :: ns => t n && stands ts ns

/-- The nodes of a tree in pre-order that pass the first test while their parents pass the second
one, and so on. -/
def nodesWhere (tests : List (Node → Bool)) (root : Node) : List Node :=
  ((lineages [] root).filter (stands tests)).filterMap List.head?

namespace Query

open Chain

lemma lineages_eq (above : List Node) (n : Node) :
    lineages above n = (n :: above) :: lineagesAll (n :: above) n.children := by
  cases n with
  | mk => rw [lineages]

lemma nodes_walkAll_of_walk {c : Chain} {i : ℕ} {ns : List Node}
    (h : ∀ n ∈ ns, ∀ j, (walk c j n).map (List.map Entry.node) = lineages (c.map Entry.node) n) :
    (walkAll c i ns).map (List.map Entry.node) = lineagesAll (c.map Entry.node) ns := by
  induction ns generalizing i with
  | nil => rfl
  | cons n ns ih =>
    rw [walkAll, List.map_append, lineagesAll, h n List.mem_cons_self i,
      ih fun m hm => h m (List.mem_cons_of_mem n hm)]

lemma nodes_walk (c : Chain) (i : ℕ) (n : Node) :
    (walk c i n).map (List.map Entry.node) = lineages (c.map Entry.node) n := by
  induction n using Node.child_induction generalizing c i with
  | step n ih =>
    have hc := nodes_walkAll_of_walk (i := 0) fun m hm j => ih m hm (⟨i, n⟩ :: c) j
    rw [walk_eq, List.map_cons, hc, lineages_eq, List.map_cons]

lemma nodes_all (root : Node) : (all root).map (List.map Entry.node) = lineages [] root := by
  have h := nodes_walk [] 0 root
  simpa [all, descendants, walkAll] using h

lemma nodesWhere_eq (tests : List (Node → Bool)) (root : Node) :
    nodesWhere tests root =
      ((all root).filter fun c => stands tests (c.map Entry.node)).filterMap node? := by
  rw [nodesWhere, ← nodes_all, List.filter_map, List.filterMap_map]
  refine List.filterMap_congr fun c _ => ?_
  cases c <;> rfl

/-- The query selects the nodes whose lineages pass the tests. -/
structure Asks (q : Query) (tests : List (Node → Bool)) : Prop where
  steps_ne : q.steps ≠ []
  mem_iff : ∀ root c, c ∈ q.places root ↔ c ∈ all root ∧ stands tests (c.map Entry.node) = true

instance : Std.Antisymm Before :=
  ⟨fun _ _ h h' => absurd (List.lt_trans h h') (List.lt_irrefl _)⟩

theorem Asks.select_eq {q : Query} {tests : List (Node → Bool)} (h : Asks q tests) (root : Node) :
    q.select root = nodesWhere tests root := by
  have hp : q.places root = (all root).filter fun c => stands tests (c.map Entry.node) := by
    refine (pairwise_places q root).eq_of_mem_iff ((pairwise_all root).filter _) fun c => ?_
    rw [h.mem_iff, List.mem_filter]
  rw [select, hp, nodesWhere_eq]

/-! ### One step more -/

lemma follow_append (root : Node) (steps more : List Step) (cs : List Chain) :
    follow root (steps ++ more) cs = follow root more (follow root steps cs) := by
  induction steps generalizing cs with
  | nil => rfl
  | cons t steps ih => exact ih _

lemma places_eq_follow {q : Query} (hq : q.steps ≠ []) (root : Node) :
    q.places root = follow root q.steps [[]] := by
  rw [places, List.filter_eq_self]
  intro c hc
  simpa using ne_nil_of_mem_follow hq hc

lemma push_steps_ne (q : Query) (s : Step) : (q.push s).steps ≠ [] := by
  simp [push]

lemma mem_follow_push {root : Node} {q : Query} {s : Step} {d : Chain} :
    d ∈ (q.push s).places root ↔ ∃ c ∈ follow root q.steps [[]], d ∈ s.expand root c := by
  have hv : ∀ c ∈ follow root q.steps [[]], Valid root c := fun c hc =>
    (mem_follow_document.mp hc).1
  rw [places_eq_follow (push_steps_ne q s), push, follow_append, follow, follow,
    mem_inDocumentOrder (valid_expand hv), List.mem_flatMap]

lemma mem_places_push {root : Node} {q : Query} (hq : q.steps ≠ []) {s : Step} {d : Chain} :
    d ∈ (q.push s).places root ↔ ∃ c ∈ q.places root, d ∈ s.expand root c := by
  rw [mem_follow_push, places_eq_follow hq]

lemma acceptedBy_cons (s : Step) (e : Entry) (c : Chain) :
    acceptedBy s (e :: c) = s.accepts e.node := rfl

lemma asks_descendant (t : Test) (ps : List Predicate) :
    Asks (empty.push ⟨.descendant, t, ps⟩) [Step.accepts ⟨.descendant, t, ps⟩] where
  steps_ne := push_steps_ne _ _
  mem_iff root c := by
    have hd : c ∈ (empty.push ⟨.descendant, t, ps⟩).places root ↔
        c ∈ Step.expand ⟨.descendant, t, ps⟩ root [] := by
      simp [mem_follow_push, empty, follow]
    rw [hd, Step.expand_eq, List.mem_filter]
    refine and_congr_right fun hc => ?_
    cases c with
    | nil => exact absurd rfl (mem_all.mp hc).2
    | cons e c => simp [acceptedBy_cons, stands]

lemma Asks.child {q : Query} {u : Node → Bool} {tests : List (Node → Bool)}
    (h : Asks q (u :: tests)) (t : Test) (ps : List Predicate) :
    Asks (q.push ⟨.child, t, ps⟩) (Step.accepts ⟨.child, t, ps⟩ :: u :: tests) where
  steps_ne := push_steps_ne _ _
  mem_iff root c := by
    simp only [mem_places_push h.steps_ne, Step.expand_eq, List.mem_filter, along]
    constructor
    · rintro ⟨d, hd, hc, ha⟩
      obtain ⟨hda, hs⟩ := (h.mem_iff root d).mp hd
      obtain ⟨hv, e, rfl⟩ := (mem_children (mem_all.mp hda).1).mp hc
      refine ⟨mem_all.mpr ⟨hv, by simp⟩, ?_⟩
      rw [List.map_cons, stands, hs, Bool.and_true]
      exact ha
    · rintro ⟨hc, hs⟩
      obtain ⟨hv, hne⟩ := mem_all.mp hc
      cases c with
      | nil => exact absurd rfl hne
      | cons e d =>
        rw [List.map_cons, stands, Bool.and_eq_true] at hs
        have hd : d ∈ all root := by
          refine mem_all.mpr ⟨hv.2, ?_⟩
          rintro rfl
          simp [stands] at hs
        exact ⟨d, (h.mem_iff root d).mpr ⟨hd, hs.2⟩, (mem_children hv.2).mpr ⟨hv, e, rfl⟩, hs.1⟩

lemma Asks.parent {q : Query} {t u : Node → Bool} {tests : List (Node → Bool)}
    (h : Asks q (t :: u :: tests)) :
    Asks q.parent ((fun n => u n && n.children.any t) :: tests) where
  steps_ne := push_steps_ne _ _
  mem_iff root c := by
    simp only [Query.parent, mem_places_push h.steps_ne, Step.expand_eq, List.mem_filter, along,
      Step.plain, mem_parents]
    constructor
    · rintro ⟨_, hd, ⟨hne, e, rfl⟩, _⟩
      obtain ⟨hda, hs⟩ := (h.mem_iff root _).mp hd
      obtain ⟨hv, _⟩ := mem_all.mp hda
      refine ⟨mem_all.mpr ⟨hv.2, hne⟩, ?_⟩
      cases c with
      | nil => exact absurd rfl hne
      | cons p c =>
        have hm : e.node ∈ p.node.children := List.mem_of_getElem? hv.1
        simp only [List.map_cons, stands, Bool.and_eq_true, List.any_eq_true] at hs ⊢
        exact ⟨⟨hs.2.1, e.node, hm, hs.1⟩, hs.2.2⟩
    · rintro ⟨hc, hs⟩
      obtain ⟨hv, hne⟩ := mem_all.mp hc
      cases c with
      | nil => exact absurd rfl hne
      | cons p c =>
        simp only [List.map_cons, stands, Bool.and_eq_true, List.any_eq_true] at hs
        obtain ⟨⟨hu, m, hm, ht⟩, hrest⟩ := hs
        obtain ⟨i, hi⟩ := List.mem_iff_getElem?.mp hm
        have hmv : Valid root (⟨i, m⟩ :: p :: c) := ⟨hi, hv⟩
        refine ⟨⟨i, m⟩ :: p :: c, (h.mem_iff root _).mpr ⟨mem_all.mpr ⟨hmv, by simp⟩, ?_⟩,
          ⟨hne, _, rfl⟩, ?_⟩
        · simp [stands, ht, hu, hrest]
        · simp [acceptedBy_cons, Step.accepts, Test.accepts]

lemma filterSteps_append (p : Predicate) (steps : List Step) (s : Step) :
    filterSteps p (steps ++ [s]) = steps ++ [{ s with predicates := s.predicates ++ [p] }] := by
  induction steps with
  | nil => rfl
  | cons t steps ih =>
    cases steps with
    | nil => rfl
    | cons u steps => exact congrArg (t :: ·) ih

lemma filter_push (q : Query) (s : Step) (p : Predicate) :
    (q.push s).filter p = q.push { s with predicates := s.predicates ++ [p] } := by
  rw [filter, push, push, filterSteps_append]

end Query

end SettingCatalog
