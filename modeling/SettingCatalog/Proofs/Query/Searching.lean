import SettingCatalog.Proofs.Query.Places

/-! The search below a place. What a search has found and what its step accepts in the subtrees on
the stack are, together, the same before and after each turn. A search makes one turn for each node
of those subtrees; then it has found the accepted places below its start in document order. From a
place of the tree it never comes upon a chain that names no node. -/

namespace SettingCatalog.Query

open Chain

def Chain.subtree : Chain → List Chain
  | [] => []
  | e :: c => walk c e.index e.node

lemma flatMap_subtree_extendAll (c : Chain) (i : ℕ) (ns : List Node) :
    (extendAll c i ns).flatMap subtree = walkAll c i ns := by
  induction ns generalizing i with
  | nil => rfl
  | cons n ns ih => rw [extendAll, List.flatMap_cons, ih, subtree, walkAll]

namespace Search

inductive Turns (s : Step) : ℕ → Search → Search → Prop
  | none (d : Search) : Turns s 0 d d
  | next {k : ℕ} {d e f : Search} : d.turn s = some e → Turns s k e f → Turns s (k + 1) d f

def outcome (s : Step) (d : Search) : List Chain :=
  d.found.toList ++ (d.stack.flatMap subtree).filter (·.acceptedBy s)

lemma turn_eq_none_iff {s : Step} {d : Search} : d.turn s = none ↔ d.stack = [] := by
  obtain ⟨_ | ⟨_ | ⟨e, c⟩, stack⟩, found⟩ := d <;> simp [turn]

lemma outcome_turn {s : Step} {d d' : Search} (h : d.turn s = some d') :
    d'.outcome s = d.outcome s := by
  obtain ⟨stack, found, rfl, rfl⟩ | ⟨e, c, stack, found, rfl, rfl⟩ := turn_cases h
  · rfl
  · have hwalk : subtree (e :: c) = (e :: c) :: walkAll (e :: c) 0 e.node.children :=
      walk_eq c e.index e.node
    have haccepted : acceptedBy s (e :: c) = s.accepts e.node := rfl
    rw [outcome, outcome, List.flatMap_append, flatMap_subtree_extendAll, List.flatMap_cons,
      hwalk, List.cons_append, List.filter_cons, haccepted]
    -- an accepted place moves from the head of the subtrees to the end of what has been found
    cases s.accepts e.node <;> simp

lemma Turns.outcome_eq {s : Step} {k : ℕ} {d d' : Search} (h : Turns s k d d') :
    d'.outcome s = d.outcome s := by
  induction h with
  | none => rfl
  | next hturn _ ih => rw [ih, outcome_turn hturn]

/-- The search comes to its end in as many turns as visits remain. -/
lemma exists_turns (s : Step) (d : Search) :
    ∃ d', Turns s d.remaining d d' ∧ d'.stack = [] ∧ d.run s = d'.found := by
  fun_induction run s d with
  | case1 d h =>
    have hstack := turn_eq_none_iff.mp h
    have hremaining : d.remaining = 0 := by rw [remaining, hstack]; rfl
    exact ⟨d, hremaining ▸ .none d, hstack, rfl⟩
  | case2 d e h ih =>
    obtain ⟨d', hturns, hstack, hrun⟩ := ih
    exact ⟨d', remaining_turn h ▸ .next h hturns, hstack, hrun⟩

lemma toList_run (s : Step) (d : Search) : (d.run s).toList = d.outcome s := by
  obtain ⟨d', hturns, hstack, hrun⟩ := exists_turns s d
  rw [hrun, ← hturns.outcome_eq, outcome, hstack]
  simp

def Sound (root : Node) (d : Search) : Prop :=
  (∀ c ∈ d.stack, Valid root c ∧ c ≠ []) ∧ ∀ c ∈ d.found, Valid root c ∧ c ≠ []

lemma sound_start {root : Node} {c : Chain} (hc : Valid root c) : (start root c).Sound root := by
  refine ⟨fun d hd => ?_, by simp [start]⟩
  obtain ⟨hv, e, rfl⟩ := (mem_children hc).mp hd
  exact ⟨hv, by simp⟩

lemma Sound.turn {root : Node} {s : Step} {d d' : Search} (h : d.Sound root)
    (hturn : d.turn s = some d') : d'.Sound root := by
  obtain ⟨stack, found, rfl, rfl⟩ | ⟨e, c, stack, found, rfl, rfl⟩ := turn_cases hturn
  · exact ⟨fun c hc => h.1 c (List.mem_cons_of_mem _ hc), h.2⟩
  · obtain ⟨hstack, hfound⟩ := h
    obtain ⟨hhere, hrest⟩ := List.forall_mem_cons.mp hstack
    have hbelow := (sound_start hhere.1).1
    refine ⟨List.forall_mem_append.mpr ⟨hbelow, hrest⟩, fun d hd => ?_⟩
    cases hs : s.accepts e.node with
    | false => exact hfound d (by simpa [hs] using hd)
    | true =>
      rcases Array.mem_push.mp (by simpa [hs] using hd) with hd | rfl
      · exact hfound d hd
      · exact hhere

lemma Turns.sound {root : Node} {s : Step} {k : ℕ} {d d' : Search} (h : Turns s k d d')
    (hd : d.Sound root) : d'.Sound root := by
  induction h with
  | none => exact hd
  | next hturn _ ih => exact ih (hd.turn hturn)

lemma remaining_start (root : Node) (c : Chain) :
    (start root c).remaining = Node.sizeAll (offspring root c) := by
  have h := visits_extendAll c 0 (offspring root c) []
  rw [remaining, start, children_eq, ← List.append_nil (extendAll _ _ _), h]
  rfl

lemma outcome_start (s : Step) (root : Node) (c : Chain) :
    (start root c).outcome s = (c.descendants root).filter (·.acceptedBy s) := by
  rw [outcome, start, children_eq, flatMap_subtree_extendAll, descendants_eq]
  rfl

end Search

lemma Step.expand_eq (s : Step) (root : Node) (c : Chain) :
    s.expand root c = (c.along root s.axis).filter (·.acceptedBy s) := by
  rw [expand]
  cases s.axis with
  | child => rfl
  | descendant => rw [Search.toList_run, Search.outcome_start, along]
  | parent => rfl
  | current => rfl

end SettingCatalog.Query
