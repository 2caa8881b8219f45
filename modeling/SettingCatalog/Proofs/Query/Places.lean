import Mathlib.Data.List.Sort
import SettingCatalog.Proofs.Tree.Normal
import SettingCatalog.Query.Select

/-! Places of a tree. A chain is valid if each of its entries stands below the next one; the walk
over a tree lists the valid chains in the lexicographic order of their addresses, and the ordinal
of a chain is its index in that list. -/

namespace SettingCatalog.Query.Chain

@[simp] lemma address_nil : address [] = [] := rfl

@[simp] lemma address_cons (e : Entry) (c : Chain) : address (e :: c) = address c ++ [e.index] := by
  simp [address]

def offspring (root : Node) : Chain → List Node
  | [] => [root]
  | e :: _ => e.node.children

def Valid (root : Node) : Chain → Prop
  | [] => True
  | e :: c => (offspring root c)[e.index]? = some e.node ∧ Valid root c

mutual

/-- The place of a node below a chain, and all places under it, in document order. -/
def walk (c : Chain) (index : Nat) : Node → List Chain
  | ⟨tag, token, role, attributes, children, position⟩ =>
    let here : Chain := ⟨index, ⟨tag, token, role, attributes, children, position⟩⟩ :: c
    here :: walkAll here 0 children

def walkAll (c : Chain) (index : Nat) : List Node → List Chain
  | [] => []
  | n :: ns => walk c index n ++ walkAll c (index + 1) ns

end

def descendants (root : Node) : Chain → List Chain
  | [] => walkAll [] 0 [root]
  | e :: rest => walkAll (e :: rest) 0 e.node.children

def along (root : Node) : Axis → Chain → List Chain
  | .child, c => c.children root
  | .descendant, c => c.descendants root
  | .parent, c => c.parents
  | .current, c => c.itself

lemma children_eq (root : Node) (c : Chain) :
    c.children root = extendAll c 0 (offspring root c) := by
  cases c <;> rfl

lemma descendants_eq (root : Node) (c : Chain) :
    c.descendants root = walkAll c 0 (offspring root c) := by
  cases c <;> rfl

lemma walk_eq (c : Chain) (i : ℕ) (n : Node) :
    walk c i n = (⟨i, n⟩ :: c) :: walkAll (⟨i, n⟩ :: c) 0 n.children := by
  cases n with
  | mk => rw [walk]

lemma Valid.of_append {root : Node} {s c : Chain} (h : Valid root (s ++ c)) : Valid root c := by
  induction s with
  | nil => exact h
  | cons e s ih => exact ih h.2

lemma mem_extendAll {c d : Chain} {i : ℕ} {ns : List Node} :
    d ∈ extendAll c i ns ↔ ∃ j n, ns[j]? = some n ∧ d = ⟨i + j, n⟩ :: c := by
  induction ns generalizing i with
  | nil => simp [extendAll]
  | cons n ns ih =>
    rw [extendAll, List.mem_cons, ih]
    constructor
    · rintro (rfl | ⟨j, m, hm, rfl⟩)
      · exact ⟨0, n, rfl, rfl⟩
      · exact ⟨j + 1, m, hm, by rw [Nat.add_assoc, Nat.add_comm 1 j]⟩
    · rintro ⟨j, m, hm, rfl⟩
      cases j with
      | zero => exact Or.inl (by simp_all)
      | succ j => exact Or.inr ⟨j, m, hm, by rw [Nat.add_assoc, Nat.add_comm 1 j]⟩

lemma mem_walkAll {c d : Chain} {i : ℕ} {ns : List Node} :
    d ∈ walkAll c i ns ↔ ∃ j n, ns[j]? = some n ∧ d ∈ walk c (i + j) n := by
  induction ns generalizing i with
  | nil => simp [walkAll]
  | cons n ns ih =>
    rw [walkAll, List.mem_append, ih]
    constructor
    · rintro (h | ⟨j, m, hm, h⟩)
      · exact ⟨0, n, rfl, h⟩
      · exact ⟨j + 1, m, hm, by rwa [Nat.add_assoc, Nat.add_comm 1 j] at h⟩
    · rintro ⟨j, m, hm, h⟩
      cases j with
      | zero => exact Or.inl (by simp_all)
      | succ j => exact Or.inr ⟨j, m, hm, by rwa [Nat.add_assoc, Nat.add_comm 1 j]⟩

lemma mem_children {root : Node} {c d : Chain} (hc : Valid root c) :
    d ∈ c.children root ↔ Valid root d ∧ ∃ e, d = e :: c := by
  rw [children_eq, mem_extendAll]
  constructor
  · rintro ⟨j, n, hn, rfl⟩
    exact ⟨⟨by simpa using hn, hc⟩, _, rfl⟩
  · rintro ⟨hd, ⟨i, n⟩, rfl⟩
    exact ⟨i, n, hd.1, by simp⟩

lemma mem_walk {root : Node} {n : Node} {c d : Chain} {i : ℕ}
    (hc : Valid root (⟨i, n⟩ :: c)) :
    d ∈ walk c i n ↔ Valid root d ∧ ∃ s, d = s ++ ⟨i, n⟩ :: c := by
  induction n using Node.child_induction generalizing c d i with
  | step n ih =>
    rw [walk_eq, List.mem_cons, mem_walkAll]
    constructor
    · rintro (rfl | ⟨j, m, hm, hd⟩)
      · exact ⟨hc, [], rfl⟩
      · have hmv : Valid root (⟨j, m⟩ :: ⟨i, n⟩ :: c) := ⟨hm, hc⟩
        rw [Nat.zero_add] at hd
        obtain ⟨hv, s, rfl⟩ := (ih m (List.mem_of_getElem? hm) hmv).mp hd
        exact ⟨hv, s ++ [⟨j, m⟩], by simp⟩
    · rintro ⟨hd, s, rfl⟩
      -- the entry right above the chain tells in which subtree the place lies
      rcases List.eq_nil_or_concat s with rfl | ⟨s, ⟨j, m⟩, rfl⟩
      · exact Or.inl rfl
      · rw [List.concat_eq_append, List.append_assoc] at hd ⊢
        have hm : n.children[j]? = some m := hd.of_append.1
        refine Or.inr ⟨j, m, hm, ?_⟩
        rw [Nat.zero_add]
        exact (ih m (List.mem_of_getElem? hm) hd.of_append).mpr ⟨hd, s, rfl⟩

lemma mem_descendants {root : Node} {c d : Chain} (hc : Valid root c) :
    d ∈ c.descendants root ↔ Valid root d ∧ ∃ s, s ≠ [] ∧ d = s ++ c := by
  rw [descendants_eq, mem_walkAll]
  simp only [Nat.zero_add]
  constructor
  · rintro ⟨j, n, hn, hd⟩
    obtain ⟨hv, s, rfl⟩ := (mem_walk ⟨hn, hc⟩).mp hd
    exact ⟨hv, s ++ [⟨j, n⟩], by simp, by simp⟩
  · rintro ⟨hd, s, hs, rfl⟩
    rcases List.eq_nil_or_concat s with rfl | ⟨s, ⟨j, n⟩, rfl⟩
    · exact absurd rfl hs
    · rw [List.concat_eq_append, List.append_assoc] at hd ⊢
      exact ⟨j, n, hd.of_append.1, (mem_walk hd.of_append).mpr ⟨hd, s, rfl⟩⟩

def all (root : Node) : List Chain := descendants root []

lemma mem_all {root : Node} {c : Chain} : c ∈ all root ↔ Valid root c ∧ c ≠ [] := by
  have hd : Valid root [] := trivial
  rw [all, mem_descendants hd]
  simp

lemma address_of_mem_walk {c d : Chain} {i : ℕ} {n : Node} (h : d ∈ walk c i n) :
    ∃ s, d.address = c.address ++ i :: s := by
  induction n using Node.child_induction generalizing c d i with
  | step n ih =>
    rw [walk_eq, List.mem_cons, mem_walkAll] at h
    rcases h with rfl | ⟨j, m, hm, hd⟩
    · exact ⟨[], by simp⟩
    · obtain ⟨s, hs⟩ := ih m (List.mem_of_getElem? hm) hd
      exact ⟨(0 + j) :: s, by simp [hs]⟩

lemma address_of_mem_walkAll {c d : Chain} {i : ℕ} {ns : List Node} (h : d ∈ walkAll c i ns) :
    ∃ j s, i ≤ j ∧ d.address = c.address ++ j :: s := by
  obtain ⟨j, n, _, hd⟩ := mem_walkAll.mp h
  obtain ⟨s, hs⟩ := address_of_mem_walk hd
  exact ⟨i + j, s, Nat.le_add_right i j, hs⟩

def Before (c d : Chain) : Prop := c.address < d.address

instance : Std.Irrefl Before := ⟨fun c => List.lt_irrefl c.address⟩

lemma before_of_prefix {c d : Chain} {i : ℕ} {s : List ℕ}
    (h : d.address = c.address ++ i :: s) : Before c d := by
  have hs : c.address ++ [] < c.address ++ i :: s := List.append_left_lt (List.nil_lt_cons i s)
  rwa [Before, h, ← List.append_nil c.address, List.append_assoc]

lemma before_of_index_lt {a b c : Chain} {i j : ℕ} {s t : List ℕ} (hij : i < j)
    (ha : a.address = c.address ++ i :: s) (hb : b.address = c.address ++ j :: t) : Before a b := by
  rw [Before, ha, hb]
  exact List.append_left_lt (List.cons_lt_cons_iff.mpr (Or.inl hij))

lemma pairwise_walkAll_of_walk {c : Chain} {i : ℕ} {ns : List Node}
    (h : ∀ n ∈ ns, ∀ j, (walk c j n).Pairwise Before) : (walkAll c i ns).Pairwise Before := by
  induction ns generalizing i with
  | nil => exact List.Pairwise.nil
  | cons n ns ih =>
    rw [walkAll, List.pairwise_append]
    refine ⟨h n List.mem_cons_self i, ih fun m hm => h m (List.mem_cons_of_mem n hm), ?_⟩
    intro a ha b hb
    obtain ⟨s, hs⟩ := address_of_mem_walk ha
    obtain ⟨j, t, hj, ht⟩ := address_of_mem_walkAll hb
    exact before_of_index_lt hj hs ht

lemma pairwise_walk (c : Chain) (i : ℕ) (n : Node) : (walk c i n).Pairwise Before := by
  induction n using Node.child_induction generalizing c i with
  | step n ih =>
    rw [walk_eq, List.pairwise_cons]
    refine ⟨fun d hd => ?_, pairwise_walkAll_of_walk fun m hm j => ih m hm _ j⟩
    obtain ⟨j, s, _, hs⟩ := address_of_mem_walkAll hd
    exact before_of_prefix hs

lemma pairwise_all (root : Node) : (all root).Pairwise Before := by
  rw [all, descendants_eq]
  exact pairwise_walkAll_of_walk fun n _ j => pairwise_walk [] j n

lemma Valid.eq_of_address {root : Node} {c d : Chain} (hc : Valid root c) (hd : Valid root d)
    (h : c.address = d.address) : c = d := by
  induction c generalizing d with
  | nil =>
    cases d with
    | nil => rfl
    | cons e d => simp at h
  | cons a c ih =>
    cases d with
    | nil => simp at h
    | cons b d =>
      rw [address_cons, address_cons] at h
      obtain ⟨hcd, hi⟩ := List.append_inj' h rfl
      obtain rfl := ih hc.2 hd.2 hcd
      have hi' : a.index = b.index := by simpa using hi
      have hn : some a.node = some b.node := by rw [← hc.1, ← hd.1, hi']
      cases a
      cases b
      simp_all

/-! ### Ordinals -/

lemma length_walkAll_of_walk {c : Chain} {i : ℕ} {ns : List Node}
    (h : ∀ n ∈ ns, ∀ j, (walk c j n).length = n.size) :
    (walkAll c i ns).length = Node.sizeAll ns := by
  induction ns generalizing i with
  | nil => rfl
  | cons n ns ih =>
    rw [walkAll, List.length_append, Node.sizeAll, h n List.mem_cons_self i,
      ih fun m hm => h m (List.mem_cons_of_mem n hm)]

lemma length_walk (c : Chain) (i : ℕ) (n : Node) : (walk c i n).length = n.size := by
  induction n using Node.child_induction generalizing c i with
  | step n ih =>
    rw [walk_eq, List.length_cons, length_walkAll_of_walk fun m hm j => ih m hm _ j, Node.size_eq,
      Nat.add_comm]

lemma length_walkAll (c : Chain) (i : ℕ) (ns : List Node) :
    (walkAll c i ns).length = Node.sizeAll ns :=
  length_walkAll_of_walk fun n _ j => length_walk c j n

lemma walkAll_append (c : Chain) (i : ℕ) (ms ns : List Node) :
    walkAll c i (ms ++ ns) = walkAll c i ms ++ walkAll c (i + ms.length) ns := by
  induction ms generalizing i with
  | nil => simp [walkAll]
  | cons m ms ih =>
    rw [List.cons_append, walkAll, ih, walkAll, List.append_assoc, List.length_cons]
    congr 3
    omega

lemma walkAll_split (c : Chain) {i : ℕ} {n : Node} {ns : List Node} (h : ns[i]? = some n) :
    ∃ rest, walkAll c 0 ns = walkAll c 0 (ns.take i) ++ (walk c i n ++ rest) := by
  obtain ⟨hi, hn⟩ := List.getElem?_eq_some_iff.mp h
  refine ⟨walkAll c (i + 1) (ns.drop (i + 1)), ?_⟩
  have hs : ns = ns.take i ++ n :: ns.drop (i + 1) := by
    rw [← hn, List.getElem_cons_drop, List.take_append_drop]
  have hl : 0 + (ns.take i).length = i := by
    rw [List.length_take]
    omega
  conv_lhs => rw [hs, walkAll_append, hl, walkAll]

/-- The walk below a place stands in the list of all places as one block, which begins at the
ordinal of the place. -/
lemma walk_in_all {root : Node} {e : Entry} {c : Chain} (h : Valid root (e :: c)) :
    ∃ before after, all root = before ++ (walk c e.index e.node ++ after) ∧
      before.length = ordinal (e :: c) := by
  induction c generalizing e with
  | nil =>
    obtain ⟨i, n⟩ := e
    have hi : i = 0 := by
      by_contra hne
      simp [Valid, offspring, hne] at h
    subst hi
    obtain rfl : root = n := by simpa [Valid, offspring] using h
    exact ⟨[], [], by simp [all, descendants, walkAll], rfl⟩
  | cons p c ih =>
    obtain ⟨before, after, ha, hb⟩ := ih h.2
    obtain ⟨rest, hr⟩ := walkAll_split (p :: c) h.1
    refine ⟨before ++ (p :: c) :: walkAll (p :: c) 0 (p.node.children.take e.index),
      rest ++ after, ?_, ?_⟩
    · rw [offspring] at hr
      rw [ha, walk_eq, hr]
      simp
    · simp only [List.length_append, List.length_cons, length_walkAll, hb, ordinal]
      omega

theorem all_ordinal {root : Node} {c : Chain} (hc : Valid root c) (hne : c ≠ []) :
    (all root)[c.ordinal]? = some c := by
  cases c with
  | nil => exact absurd rfl hne
  | cons e c =>
    obtain ⟨before, after, ha, hb⟩ := walk_in_all hc
    rw [ha, ← hb, List.getElem?_append_right (Nat.le_refl _), Nat.sub_self, walk_eq]
    rfl

lemma ordinal_lt {root : Node} {c d : Chain} (hc : c ∈ all root) (hd : d ∈ all root)
    (h : Before c d) : c.ordinal < d.ordinal := by
  obtain ⟨hcv, hcn⟩ := mem_all.mp hc
  obtain ⟨hdv, hdn⟩ := mem_all.mp hd
  obtain ⟨hi, hci⟩ := List.getElem?_eq_some_iff.mp (all_ordinal hcv hcn)
  obtain ⟨hj, hdj⟩ := List.getElem?_eq_some_iff.mp (all_ordinal hdv hdn)
  by_contra hle
  rcases Nat.lt_or_eq_of_le (Nat.le_of_not_lt hle) with hlt | heq
  · have hb : Before d c := by
      have := List.pairwise_iff_getElem.mp (pairwise_all root) _ _ hj hi hlt
      rwa [hci, hdj] at this
    exact List.lt_irrefl _ (List.lt_trans h hb)
  · have : c = d := by
      rw [← hci, ← hdj]
      simp [heq]
    subst this
    exact List.lt_irrefl _ h

end SettingCatalog.Query.Chain
