import SettingCatalog.Proofs.Query.Lineage

/-! The chains between the steps of a query. Every chain that a step leads to names a node of the
tree, and a step to descendants leads to the accepted ones below its start, one after the other as
the pre-order has them. -/

namespace SettingCatalog.Query

open Chain

lemma Step.valid_of_mem_expand {root : Node} {c : Chain} (hc : Valid root c) {s : Step} {d : Chain}
    (hd : d ∈ s.expand root c) : Valid root d ∧ d ≠ [] := by
  rw [Step.expand_eq, List.mem_filter, mem_along hc] at hd
  exact ⟨hd.1.1, hd.1.2.1⟩

lemma valid_of_mem_follow {root : Node} {steps : List Step} (hs : steps ≠ []) {d : Chain}
    (hd : d ∈ follow root steps [[]]) : Valid root d ∧ d ≠ [] :=
  ⟨(mem_follow_document.mp hd).1, ne_nil_of_mem_follow hs hd⟩

lemma places_resume {q : Query} {before after : List Step} (hq : q.steps = before ++ after)
    (hne : before ≠ []) (root : Node) :
    q.places root = follow root after (follow root before [[]]) := by
  have hs : q.steps ≠ [] := by simp [hq, hne]
  rw [places_eq_follow hs, hq, follow_append]

/-! ### Descendants -/

namespace Chain

lemma descendants_block {root : Node} {c : Chain} (hc : Valid root c) :
    c.descendants root <:+: all root := by
  cases c with
  | nil => exact List.infix_refl _
  | cons e c =>
    obtain ⟨before, after, hall, -⟩ := walk_in_all hc
    refine ⟨before ++ [e :: c], after, ?_⟩
    rw [hall, walk_eq, descendants_eq, offspring]
    simp

end Chain

section Descendants

variable {root : Node} {c : Chain} (hc : Valid root c) {s : Step} (hs : s.axis = .descendant)

include hs in
lemma Step.expand_by_turns (root : Node) (c : Chain) :
    ∃ d, Search.Turns s (Node.sizeAll (offspring root c)) (.start root c) d ∧ d.stack = [] ∧
      s.expand root c = d.found.toList := by
  obtain ⟨d, hturns, hstack, hrun⟩ := Search.exists_turns s (.start root c)
  rw [Search.remaining_start] at hturns
  refine ⟨d, hturns, hstack, ?_⟩
  rw [Step.expand, hs, hrun]

include hs hc

lemma Step.mem_expand_descendant {d : Chain} :
    d ∈ s.expand root c ↔
      Valid root d ∧ (∃ t, t ≠ [] ∧ d = t ++ c) ∧ ∃ n, d.node? = some n ∧ s.Admits n := by
  rw [Step.expand_eq, hs, along, List.mem_filter, mem_descendants hc, acceptedBy_iff, and_assoc]

lemma Step.addresses_sublist : ((s.expand root c).map address).Sublist (preorder [0] root) := by
  rw [← address_all, Step.expand_eq, hs, along]
  exact (List.filter_sublist.trans (descendants_block hc).sublist).map address

end Descendants

/-- From a place of the tree every step leads to places of nodes only, and so do the first steps of
a query. A step to descendants holds such places only at every turn, and makes one turn for each
node below its start; then its stack is empty and it has found the accepted nodes below, each once
and in pre-order. -/
theorem expand_in_preorder {root : Node} {c : Chain} (hc : Valid root c) :
    (∀ s : Step, ∀ d ∈ s.expand root c, Valid root d ∧ d ≠ []) ∧
    (∀ (q : Query) (before after : List Step), q.steps = before ++ after → before ≠ [] →
      q.places root = follow root after (follow root before [[]]) ∧
      ∀ d ∈ follow root before [[]], Valid root d ∧ d ≠ []) ∧
    ∀ s : Step, s.axis = .descendant →
      (∀ k d, Search.Turns s k (.start root c) d → d.Sound root) ∧
      (∃ d, Search.Turns s (Node.sizeAll (offspring root c)) (.start root c) d ∧ d.stack = [] ∧
        s.expand root c = d.found.toList) ∧
      (∀ d, d ∈ s.expand root c ↔
        Valid root d ∧ (∃ t, t ≠ [] ∧ d = t ++ c) ∧ ∃ n, d.node? = some n ∧ s.Admits n) ∧
      ((s.expand root c).map address).Nodup ∧
      ((s.expand root c).map address).Sublist (preorder [0] root) := by
  refine ⟨fun s d hd => Step.valid_of_mem_expand hc hd, ?_, ?_⟩
  · intro q before after hq hne
    exact ⟨places_resume hq hne root, fun d hd => valid_of_mem_follow hne hd⟩
  · intro s hs
    have hsound : ∀ k d, Search.Turns s k (.start root c) d → d.Sound root :=
      fun k d hturns => hturns.sound (Search.sound_start hc)
    have hsub := Step.addresses_sublist hc hs
    exact ⟨hsound, Step.expand_by_turns hs root c, fun d => Step.mem_expand_descendant hc hs,
      (nodup_preorder root).sublist hsub, hsub⟩

/-- Two equal subtrees below the root: their nodes are told apart by the places. -/
theorem expand_in_preorder_twins :
    let twin := (Node.ofTag "B").withChild (.ofTag "A")
    let root := (Node.ofTag "A").withChildren [twin, twin]
    let c : Chain := [⟨0, root⟩]
    let s : Step := .plain .descendant (.tag "A")
    let q := (empty.descendant "B").child "A"
    let before : List Step := [.plain .descendant (.tag "B")]
    let after : List Step := [.plain .child (.tag "A")]
    let d : Chain := [⟨1, twin⟩, ⟨0, root⟩]
    Valid root c ∧ s.axis = .descendant ∧ q.steps = before ++ after ∧ before ≠ [] ∧
      (s.expand root c).map address = [[0, 0, 0], [0, 1, 0]] ∧
      (∀ d ∈ s.expand root c, Valid root d ∧ d ≠ []) ∧
      d ∈ follow root before [[]] ∧ Valid root d ∧
      q.places root = follow root after (follow root before [[]]) ∧
      (∃ d, Search.Turns s 4 (.start root c) d ∧ d.stack = [] ∧
        s.expand root c = d.found.toList) ∧
      ((s.expand root c).map address).Sublist (preorder [0] root) := by
  intro twin root c s q before after d
  have hc : Valid root c := ⟨rfl, trivial⟩
  obtain ⟨hvalid, hcontexts, hdescendants⟩ := expand_in_preorder hc
  obtain ⟨-, hturns, -, -, hsub⟩ := hdescendants s rfl
  have hbefore : before ≠ [] := by simp [before]
  obtain ⟨hplaces, hplace⟩ := hcontexts q before after rfl hbefore
  have htrail : Trail root before [] d.address :=
    .cons (n := twin) ⟨[0, 1], by simp, rfl⟩ rfl ⟨rfl, by simp [Step.plain]⟩ (.nil _)
  have hd : d ∈ follow root before [[]] := mem_follow_document.mpr ⟨⟨rfl, rfl, trivial⟩, htrail⟩
  exact ⟨hc, rfl, rfl, hbefore, by decide +kernel, hvalid s, hd, (hplace d hd).1, hplaces, hturns,
    hsub⟩

end SettingCatalog.Query
