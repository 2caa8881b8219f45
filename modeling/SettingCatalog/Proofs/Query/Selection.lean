import Mathlib.Data.List.Induction
import SettingCatalog.Proofs.Query.Searching
import SettingCatalog.Proofs.Tree.Attributes

/-! A query selects the places at the ends of its trails. A trail begins at the document and goes
from address to address, each step along its axis to a node that it admits. -/

namespace SettingCatalog

def Node.descend : Node → List ℕ → Option Node
  | n, [] => some n
  | n, i :: a => n.children[i]?.bind fun m => m.descend a

namespace Query

/-- The node at an address. The document is at the empty address and the root is its only child. -/
def nodeAt (root : Node) : List ℕ → Option Node
  | 0 :: a => root.descend a
  | _ => none

mutual

/-- The addresses of a node and of the nodes below it: the node first, then its children in their
order, each with what is below it. -/
def preorder (a : List ℕ) : Node → List (List ℕ)
  | ⟨_, _, _, _, children, _⟩ => a :: preorderAll a 0 children

def preorderAll (a : List ℕ) (i : ℕ) : List Node → List (List ℕ)
  | [] => []
  | n :: ns => preorder (a ++ [i]) n ++ preorderAll a (i + 1) ns

end

def Axis.Relates : Axis → List ℕ → List ℕ → Prop
  | .child, a, b => ∃ i, b = a ++ [i]
  | .descendant, a, b => ∃ s, s ≠ [] ∧ b = a ++ s
  | .parent, a, b => ∃ i, a = b ++ [i]
  | .current, a, b => b = a

def Step.Admits (s : Step) (n : Node) : Prop :=
  s.test.accepts n = true ∧ ∀ p ∈ s.predicates, p.accepts n = true

inductive Trail (root : Node) : List Step → List ℕ → List ℕ → Prop
  | nil (a : List ℕ) : Trail root [] a a
  | cons {s : Step} {steps : List Step} {a b c : List ℕ} {n : Node} :
      s.axis.Relates a b → nodeAt root b = some n → s.Admits n → Trail root steps b c →
      Trail root (s :: steps) a c

def Reaches (q : Query) (root : Node) (a : List ℕ) : Prop :=
  q.steps ≠ [] ∧ Trail root q.steps [] a

@[simp] lemma trail_nil {root : Node} {a b : List ℕ} : Trail root [] a b ↔ b = a := by
  constructor
  · intro h
    cases h
    rfl
  · rintro rfl
    exact .nil b

lemma trail_cons {root : Node} {s : Step} {steps : List Step} {a c : List ℕ} :
    Trail root (s :: steps) a c ↔
      ∃ b n, s.axis.Relates a b ∧ nodeAt root b = some n ∧ s.Admits n ∧ Trail root steps b c := by
  constructor
  · rintro (_ | ⟨hr, hn, ha, ht⟩)
    exact ⟨_, _, hr, hn, ha, ht⟩
  · rintro ⟨b, n, hr, hn, ha, ht⟩
    exact .cons hr hn ha ht

lemma Step.accepts_iff (s : Step) (n : Node) : s.accepts n = true ↔ s.Admits n := by
  simp [Step.accepts, Step.Admits]

/-! ### What steps ask -/

/-- What a node has under a name: two names stand for its token and its role. -/
inductive Has (n : Node) (name value : String) : Prop
  | token : name = "token" → n.token = value → Has n name value
  | role : name = "internalRole" → n.role = some value → Has n name value
  | attribute : name ∉ ["token", "internalRole"] → (name, value) ∈ n.attributes.entries →
      Has n name value

lemma Test.accepts_iff (t : Test) (n : Node) : t.accepts n = true ↔ t = .any ∨ t = .tag n.tag := by
  cases t with
  | any => exact ⟨fun _ => .inl rfl, fun _ => rfl⟩
  | tag name =>
    rw [Test.accepts, beq_iff_eq, Test.tag.injEq]
    exact ⟨fun h => .inr h.symm, fun h => (h.resolve_left (by simp)).symm⟩

lemma Predicate.accepts_attr_iff {name value : String} {n : Node} :
    (Predicate.attr name value).accepts n = true ↔ (name, value) ∈ n.attributes.entries := by
  rw [accepts, Node.attributeValue, beq_iff_eq, Attributes.get?_eq_some_iff]

/-- The predicate that is written with a name and a value asks whether the node has the value under
that name. -/
theorem Predicate.ofName_accepts_iff {name value : String} {n : Node} :
    (Predicate.ofName name value).accepts n = true ↔ Has n name value := by
  have hnames : Predicate.tokenName ≠ Node.roleAttribute := by decide
  rw [ofName]
  split_ifs with htoken hrole
  · rw [accepts, beq_iff_eq]
    refine ⟨.token htoken, ?_⟩
    rintro (⟨-, hvalue⟩ | ⟨hrole, -⟩ | ⟨hname, -⟩)
    · exact hvalue
    · exact absurd (htoken.symm.trans hrole) hnames
    · exact absurd (List.mem_cons.mpr (.inl htoken)) hname
  · rw [accepts, beq_iff_eq]
    refine ⟨.role hrole, ?_⟩
    rintro (⟨htoken', -⟩ | ⟨-, hvalue⟩ | ⟨hname, -⟩)
    · exact absurd htoken' htoken
    · exact hvalue
    · exact absurd (List.mem_cons_of_mem _ (List.mem_singleton.mpr hrole)) hname
  · rw [accepts_attr_iff]
    constructor
    · refine .attribute fun hmem => ?_
      rcases List.mem_cons.mp hmem with heq | hmem
      · exact htoken heq
      · exact hrole (List.mem_singleton.mp hmem)
    · rintro (⟨htoken', -⟩ | ⟨hrole', -⟩ | ⟨-, hvalue⟩)
      · exact absurd htoken' htoken
      · exact absurd hrole' hrole
      · exact hvalue

/-! ### Addresses and chains -/

lemma descend_append (n : Node) (a b : List ℕ) :
    n.descend (a ++ b) = (n.descend a).bind fun m => m.descend b := by
  induction a generalizing n with
  | nil => rfl
  | cons i a ih =>
    simp only [List.cons_append, Node.descend]
    cases n.children[i]? with
    | none => rfl
    | some m => exact ih m

namespace Chain

lemma address_append (s c : Chain) : address (s ++ c) = c.address ++ address s := by
  simp [address]

lemma nodeAt_snoc (root : Node) (a : List ℕ) (i j : ℕ) :
    nodeAt root (i :: a ++ [j]) = (nodeAt root (i :: a)).bind fun n => n.children[j]? := by
  cases i with
  | zero =>
    rw [List.cons_append, nodeAt, nodeAt, descend_append]
    congr 1
    funext n
    cases h : n.children[j]? <;> simp [Node.descend, h]
  | succ i => rfl

lemma Valid.address_eq {root : Node} {e : Entry} {c : Chain} (h : Valid root (e :: c)) :
    ∃ a, address (e :: c) = 0 :: a := by
  induction c generalizing e with
  | nil =>
    have hi : e.index = 0 := by
      by_contra hne
      simp [Valid, offspring, hne] at h
    exact ⟨[], by simp [hi]⟩
  | cons p c ih =>
    obtain ⟨a, ha⟩ := ih h.2
    exact ⟨a ++ [e.index], by rw [address_cons, ha]; rfl⟩

lemma Valid.nodeAt {root : Node} {c : Chain} (h : Valid root c) :
    nodeAt root c.address = c.node? := by
  induction c with
  | nil => rfl
  | cons e c ih =>
    cases c with
    | nil =>
      obtain ⟨i, n⟩ := e
      cases i with
      | zero =>
        have hn : root = n := by simpa [Valid, offspring] using h
        simp [Query.nodeAt, Node.descend, node?, hn]
      | succ i => simp [Valid, offspring] at h
    | cons p c =>
      obtain ⟨a, ha⟩ := h.2.address_eq
      have hp := ih h.2
      rw [address_cons, ha, nodeAt_snoc, ← ha, hp]
      simpa [node?, offspring] using h.1

lemma exists_valid {root : Node} {a : List ℕ} {n : Node} (h : Query.nodeAt root a = some n) :
    ∃ c, Valid root c ∧ c.address = a ∧ c.node? = some n := by
  induction a using List.reverseRecOn generalizing n with
  | nil => simp [Query.nodeAt] at h
  | append_singleton a i ih =>
    cases a with
    | nil =>
      cases i with
      | zero =>
        refine ⟨[⟨0, n⟩], ?_, by simp, rfl⟩
        simpa [Valid, offspring, Query.nodeAt, Node.descend] using h
      | succ i => simp [Query.nodeAt] at h
    | cons j a =>
      rw [nodeAt_snoc, Option.bind_eq_some_iff] at h
      obtain ⟨m, hm, hn⟩ := h
      obtain ⟨c, hc, ha, hcm⟩ := ih hm
      refine ⟨⟨i, n⟩ :: c, ⟨?_, hc⟩, by simp [ha], rfl⟩
      cases c with
      | nil => simp [node?] at hcm
      | cons e c =>
        obtain rfl : e.node = m := by simpa [node?] using hcm
        exact hn

lemma address_walkAll_of_walk {c : Chain} {i : ℕ} {ns : List Node}
    (h : ∀ n ∈ ns, ∀ j, (walk c j n).map address = preorder (c.address ++ [j]) n) :
    (walkAll c i ns).map address = preorderAll c.address i ns := by
  induction ns generalizing i with
  | nil => rfl
  | cons n ns ih =>
    rw [walkAll, List.map_append, preorderAll, h n List.mem_cons_self i,
      ih fun m hm => h m (List.mem_cons_of_mem n hm)]

lemma address_walk (c : Chain) (i : ℕ) (n : Node) :
    (walk c i n).map address = preorder (c.address ++ [i]) n := by
  induction n using Node.child_induction generalizing c i with
  | step n ih =>
    have hc := address_walkAll_of_walk (i := 0) fun m hm j => ih m hm (⟨i, n⟩ :: c) j
    rw [walk_eq, List.map_cons, hc, address_cons]
    cases n with
    | mk => rw [preorder]

lemma address_all (root : Node) : (all root).map address = preorder [0] root := by
  have h := address_walk [] 0 root
  simpa [all, descendants, walkAll] using h

/-! ### One step -/

@[simp] lemma length_address (c : Chain) : c.address.length = c.length := by
  simp [address]

lemma Valid.suffix_of_address {root : Node} {c d : Chain} (hc : Valid root c) (hd : Valid root d)
    {s : List ℕ} (h : d.address = c.address ++ s) : ∃ t : Chain, d = t ++ c ∧ t.address = s := by
  have hs : d.take s.length ++ d.drop s.length = d := List.take_append_drop s.length d
  have hl : (d.take s.length).length = s.length := by
    have hh := congrArg List.length h
    rw [List.length_append, length_address, length_address] at hh
    rw [List.length_take]
    omega
  have ha : address (d.drop s.length) ++ address (d.take s.length) = c.address ++ s := by
    rw [← address_append, hs, h]
  obtain ⟨hcd, ht⟩ := List.append_inj' ha (by rw [length_address, hl])
  rw [← hs] at hd
  exact ⟨d.take s.length, by rw [← hd.of_append.eq_of_address hc hcd, hs], ht⟩

lemma Valid.cons_of_address {root : Node} {c d : Chain} (hc : Valid root c) (hd : Valid root d)
    {i : ℕ} (h : d.address = c.address ++ [i]) : ∃ e, d = e :: c := by
  obtain ⟨t, rfl, ht⟩ := hc.suffix_of_address hd h
  obtain ⟨e, rfl⟩ := List.length_eq_one_iff.mp
    (show t.length = 1 by rw [← length_address, ht, List.length_singleton])
  exact ⟨e, rfl⟩

lemma mem_parents {c d : Chain} : d ∈ c.parents ↔ d ≠ [] ∧ ∃ e, c = e :: d := by
  rcases c with _ | ⟨e, _ | ⟨p, c⟩⟩
  · simp [parents]
  · simp [parents]
  · simp only [parents, List.mem_singleton, List.cons.injEq]
    constructor
    · rintro rfl
      exact ⟨by simp, e, rfl, rfl⟩
    · rintro ⟨_, _, _, h⟩
      exact h.symm

lemma mem_itself {c d : Chain} : d ∈ c.itself ↔ d ≠ [] ∧ d = c := by
  cases c with
  | nil => simp [itself]
  | cons e c =>
    simp only [itself, List.mem_singleton]
    constructor
    · rintro rfl
      exact ⟨by simp, rfl⟩
    · exact And.right

lemma mem_along {root : Node} {x : Axis} {c d : Chain} (hc : Valid root c) :
    d ∈ c.along root x ↔ Valid root d ∧ d ≠ [] ∧ x.Relates c.address d.address := by
  cases x with
  | child =>
    rw [along, mem_children hc]
    constructor
    · rintro ⟨hd, e, rfl⟩
      exact ⟨hd, by simp, e.index, by simp⟩
    · rintro ⟨hd, _, i, hi⟩
      exact ⟨hd, hc.cons_of_address hd hi⟩
  | descendant =>
    rw [along, mem_descendants hc]
    constructor
    · rintro ⟨hd, s, hs, rfl⟩
      refine ⟨hd, by simp [hs], address s, ?_, address_append s c⟩
      simpa [address] using hs
    · rintro ⟨hd, _, s, hs, ha⟩
      obtain ⟨t, rfl, rfl⟩ := hc.suffix_of_address hd ha
      exact ⟨hd, t, by rintro rfl; exact hs rfl, rfl⟩
  | parent =>
    rw [along, mem_parents]
    constructor
    · rintro ⟨hd, e, rfl⟩
      exact ⟨hc.2, hd, e.index, by simp⟩
    · rintro ⟨hd, hne, i, hi⟩
      exact ⟨hne, hd.cons_of_address hc hi⟩
  | current =>
    rw [along, mem_itself]
    constructor
    · rintro ⟨hd, rfl⟩
      exact ⟨hc, hd, rfl⟩
    · rintro ⟨hd, hne, h⟩
      exact ⟨hne, hd.eq_of_address hc h⟩

end Chain

open Chain

lemma acceptedBy_iff {s : Step} {c : Chain} :
    c.acceptedBy s = true ↔ ∃ n, c.node? = some n ∧ s.Admits n := by
  simp only [acceptedBy, Option.any_eq_true, Step.accepts_iff]

lemma mem_expand {root : Node} {s : Step} {c d : Chain} (hc : Valid root c) :
    d ∈ s.expand root c ↔ Valid root d ∧ s.axis.Relates c.address d.address ∧
      ∃ n, nodeAt root d.address = some n ∧ s.Admits n := by
  rw [Step.expand_eq, List.mem_filter, mem_along hc, acceptedBy_iff]
  constructor
  · rintro ⟨⟨hd, _, hr⟩, n, hn, ha⟩
    exact ⟨hd, hr, n, by rw [hd.nodeAt, hn], ha⟩
  · rintro ⟨hd, hr, n, hn, ha⟩
    rw [hd.nodeAt] at hn
    exact ⟨⟨hd, by rintro rfl; simp [node?] at hn, hr⟩, n, hn, ha⟩

/-! ### Document order between steps -/

section Repeated

variable {α : Type} (key : α → List ℕ)

lemma exists_of_mem_dropRepeated {l : List (List ℕ × α)} {a : α} (h : a ∈ dropRepeated l) :
    ∃ k, (k, a) ∈ l := by
  fun_induction dropRepeated l with
  | case1 => simp at h
  | case2 k b => exact ⟨k, by simpa using h⟩
  | case3 b k c rest ih =>
    obtain ⟨m, hm⟩ := ih h
    refine ⟨m, ?_⟩
    rcases List.mem_cons.mp hm with hm | hm <;> simp [hm]
  | case4 k b l c rest hne ih =>
    rcases List.mem_cons.mp h with rfl | h
    · exact ⟨k, by simp⟩
    · obtain ⟨m, hm⟩ := ih h
      exact ⟨m, List.mem_cons_of_mem _ hm⟩

lemma exists_mem_dropRepeated {l : List (List ℕ × α)} (hk : ∀ p ∈ l, p.1 = key p.2)
    {k : List ℕ} {b : α} (h : (k, b) ∈ l) : ∃ a ∈ dropRepeated l, key a = k := by
  fun_induction dropRepeated l generalizing b with
  | case1 => simp at h
  | case2 k' b' =>
    obtain ⟨rfl, rfl⟩ := Prod.mk.inj (List.mem_singleton.mp h)
    exact ⟨b, by simp, (hk _ h).symm⟩
  | case3 b' k' c rest ih =>
    have hk' : ∀ q ∈ (k', b') :: rest, q.1 = key q.2 := by
      intro q hq
      apply hk q
      rcases List.mem_cons.mp hq with hq | hq <;> simp [hq]
    simp only [List.mem_cons, Prod.mk.injEq] at h
    rcases h with ⟨rfl, _⟩ | ⟨rfl, _⟩ | h
    · exact ih hk' List.mem_cons_self
    · exact ih hk' List.mem_cons_self
    · exact ih hk' (List.mem_cons_of_mem _ h)
  | case4 k' b' l c rest hne ih =>
    rcases List.mem_cons.mp h with h' | h'
    · obtain ⟨rfl, rfl⟩ := Prod.mk.inj h'
      exact ⟨b, by simp, (hk _ h).symm⟩
    · obtain ⟨a, ha, hp⟩ := ih (fun q hq => hk q (List.mem_cons_of_mem _ hq)) h'
      exact ⟨a, List.mem_cons_of_mem _ ha, hp⟩

lemma pairwise_dropRepeated {l : List (List ℕ × α)} (hk : ∀ p ∈ l, p.1 = key p.2)
    (h : l.Pairwise fun p r => ¬ r.1 < p.1) :
    (dropRepeated l).Pairwise fun a b => key a < key b := by
  fun_induction dropRepeated l with
  | case1 => exact List.Pairwise.nil
  | case2 k b => exact List.pairwise_singleton _ b
  | case3 b k c rest ih =>
    apply ih
    · intro q hq
      apply hk q
      rcases List.mem_cons.mp hq with hq | hq <;> simp [hq]
    · exact h.sublist (by simp)
  | case4 k b l c rest hne ih =>
    obtain ⟨hfirst, hrest⟩ := List.pairwise_cons.mp h
    have hkl : k < l := by
      have hle := List.not_lt.mp (hfirst (l, c) List.mem_cons_self)
      exact List.not_le.mp fun hge => hne (List.le_antisymm hle hge)
    have hk' : ∀ q ∈ (l, c) :: rest, q.1 = key q.2 := fun q hq => hk q (List.mem_cons_of_mem _ hq)
    refine List.pairwise_cons.mpr ⟨fun a ha => ?_, ih hk' hrest⟩
    obtain ⟨m, hm⟩ := exists_of_mem_dropRepeated ha
    have hlm : ¬ m < l := by
      rcases List.mem_cons.mp hm with hm' | hm'
      · obtain rfl : m = l := congrArg Prod.fst hm'
        exact List.lt_irrefl m
      · exact (List.pairwise_cons.mp hrest).1 _ hm'
    have hb : k = key b := hk (k, b) List.mem_cons_self
    have hma : m = key a := hk' (m, a) hm
    rw [← hb, ← hma]
    exact List.not_le.mp fun hmk =>
      List.not_le.mpr hkl (List.le_trans (List.not_lt.mp hlm) hmk)

end Repeated

lemma pairwise_inDocumentOrder (cs : List Chain) : (inDocumentOrder cs).Pairwise Before := by
  refine pairwise_dropRepeated address ?_ ?_
  · intro p hp
    rw [List.mem_mergeSort, List.mem_map] at hp
    obtain ⟨c, _, rfl⟩ := hp
    rfl
  · have hlex : ∀ a b : List ℕ, (!b.lex a) = true ↔ ¬ b < a := by
      intro a b
      rw [Bool.not_eq_true', ← Bool.not_eq_true, List.lex_eq_true_iff_lt]
    have htrans : ∀ a b c : List ℕ × Chain,
        (!b.1.lex a.1) = true → (!c.1.lex b.1) = true → (!c.1.lex a.1) = true := by
      simp only [hlex]
      exact fun a b c hab hbc =>
        List.not_lt.mpr (List.le_trans (List.not_lt.mp hab) (List.not_lt.mp hbc))
    have htotal : ∀ a b : List ℕ × Chain, ((!b.1.lex a.1) || (!a.1.lex b.1)) = true := by
      intro a b
      rw [Bool.or_eq_true, hlex, hlex]
      exact (List.le_total a.1 b.1).imp List.not_lt.mpr List.not_lt.mpr
    have hs := List.pairwise_mergeSort htrans htotal (cs.map fun c => (c.address, c))
    exact hs.imp fun h => (hlex _ _).mp h

lemma mem_inDocumentOrder {root : Node} {cs : List Chain} (hv : ∀ c ∈ cs, Valid root c)
    {c : Chain} : c ∈ inDocumentOrder cs ↔ c ∈ cs := by
  have hback : ∀ d, d ∈ inDocumentOrder cs → d ∈ cs := by
    intro d hd
    obtain ⟨k, hk⟩ := exists_of_mem_dropRepeated hd
    rw [List.mem_mergeSort, List.mem_map] at hk
    obtain ⟨e, he, hed⟩ := hk
    obtain rfl : e = d := congrArg Prod.snd hed
    exact he
  refine ⟨hback c, fun hc => ?_⟩
  obtain ⟨d, hd, hdc⟩ := exists_mem_dropRepeated address
    (l := (cs.map fun c => (c.address, c)).mergeSort fun a b => !b.1.lex a.1)
    (k := c.address) (b := c)
    (by
      intro p hp
      rw [List.mem_mergeSort, List.mem_map] at hp
      obtain ⟨e, _, rfl⟩ := hp
      rfl)
    (List.mem_mergeSort.mpr (List.mem_map_of_mem hc))
  -- a chain of the same address was kept, and the address names the chain
  obtain rfl := (hv d (hback d hd)).eq_of_address (hv c hc) hdc
  exact hd

/-! ### All steps -/

lemma pairwise_follow {root : Node} {steps : List Step} {cs : List Chain}
    (h : cs.Pairwise Before) : (follow root steps cs).Pairwise Before := by
  induction steps generalizing cs with
  | nil => exact h
  | cons s steps ih => exact ih (pairwise_inDocumentOrder _)

lemma valid_expand {root : Node} {s : Step} {cs : List Chain} (hv : ∀ c ∈ cs, Valid root c) :
    ∀ d ∈ cs.flatMap (s.expand root), Valid root d := by
  intro d hd
  obtain ⟨c, hc, hd⟩ := List.mem_flatMap.mp hd
  exact ((mem_expand (hv c hc)).mp hd).1

lemma mem_follow {root : Node} {steps : List Step} {cs : List Chain}
    (hv : ∀ c ∈ cs, Valid root c) {d : Chain} :
    d ∈ follow root steps cs ↔ Valid root d ∧ ∃ c ∈ cs, Trail root steps c.address d.address := by
  induction steps generalizing cs with
  | nil =>
    constructor
    · intro hd
      exact ⟨hv d hd, d, hd, .nil _⟩
    · rintro ⟨hd, c, hc, ht⟩
      obtain rfl := hd.eq_of_address (hv c hc) (trail_nil.mp ht)
      exact hc
  | cons s steps ih =>
    have he := valid_expand (s := s) hv
    rw [follow, ih fun c hc => he c ((mem_inDocumentOrder he).mp hc)]
    refine and_congr_right fun hd => ?_
    simp only [mem_inDocumentOrder he, List.mem_flatMap]
    constructor
    · rintro ⟨b, ⟨c, hc, hb⟩, ht⟩
      obtain ⟨_, hr, n, hn, ha⟩ := (mem_expand (hv c hc)).mp hb
      exact ⟨c, hc, .cons hr hn ha ht⟩
    · rintro ⟨c, hc, ht⟩
      obtain ⟨_, n, hr, hn, ha, ht⟩ := trail_cons.mp ht
      obtain ⟨b, hb, rfl, _⟩ := exists_valid hn
      exact ⟨b, ⟨c, hc, (mem_expand (hv c hc)).mpr ⟨hb, hr, n, hn, ha⟩⟩, ht⟩

lemma Trail.nodeAt_isSome {root : Node} {steps : List Step} {a b : List ℕ}
    (h : Trail root steps a b) (hne : steps ≠ []) : ∃ n, nodeAt root b = some n := by
  induction h with
  | nil => exact absurd rfl hne
  | @cons s steps a b c n hr hn ha ht ih =>
    cases steps with
    | nil =>
      cases ht
      exact ⟨n, hn⟩
    | cons s steps => exact ih (by simp)

lemma Trail.ne_nil {root : Node} {steps : List Step} {a b : List ℕ} (h : Trail root steps a b)
    (hne : steps ≠ []) : b ≠ [] := by
  obtain ⟨n, hn⟩ := h.nodeAt_isSome hne
  rintro rfl
  simp [nodeAt] at hn

lemma mem_follow_document {root : Node} {steps : List Step} {c : Chain} :
    c ∈ follow root steps [[]] ↔ Valid root c ∧ Trail root steps [] c.address := by
  have hdocument : ∀ d ∈ [([] : Chain)], Valid root d := by
    intro d hd
    obtain rfl := List.mem_singleton.mp hd
    trivial
  rw [mem_follow hdocument]
  simp

lemma ne_nil_of_mem_follow {root : Node} {steps : List Step} (hs : steps ≠ []) {c : Chain}
    (hc : c ∈ follow root steps [[]]) : c ≠ [] := by
  rintro rfl
  exact (mem_follow_document.mp hc).2.ne_nil hs rfl

lemma mem_places {q : Query} {root : Node} {c : Chain} :
    c ∈ q.places root ↔ Valid root c ∧ q.Reaches root c.address := by
  rw [places, List.mem_filter, mem_follow_document]
  constructor
  · rintro ⟨⟨hc, ht⟩, hne⟩
    refine ⟨hc, fun hs => ?_, ht⟩
    rw [hs, trail_nil] at ht
    cases c with
    | nil => simp at hne
    | cons e c => simp at ht
  · rintro ⟨hc, hs, ht⟩
    have hne : c ≠ [] := ne_nil_of_mem_follow hs (mem_follow_document.mpr ⟨hc, ht⟩)
    exact ⟨⟨hc, ht⟩, by simpa using hne⟩

lemma pairwise_places (q : Query) (root : Node) : (q.places root).Pairwise Before :=
  (pairwise_follow (List.pairwise_singleton _ _)).filter _

lemma mem_all_of_mem_places {q : Query} {root : Node} {c : Chain} (h : c ∈ q.places root) :
    c ∈ all root := by
  obtain ⟨hc, hs, ht⟩ := mem_places.mp h
  exact mem_all.mpr ⟨hc, ne_nil_of_mem_follow hs (mem_follow_document.mpr ⟨hc, ht⟩)⟩

lemma preorder_ordinal {root : Node} {c : Chain} (h : c ∈ all root) :
    (preorder [0] root)[c.ordinal]? = some c.address := by
  obtain ⟨hc, hne⟩ := mem_all.mp h
  rw [← address_all, List.getElem?_map, all_ordinal hc hne]
  rfl

lemma nodup_preorder (root : Node) : (preorder [0] root).Nodup := by
  rw [← address_all, List.nodup_iff_pairwise_ne, List.pairwise_map]
  refine (pairwise_all root).imp fun h heq => ?_
  rw [Before, heq] at h
  exact List.lt_irrefl _ h

lemma mem_preorder {root : Node} {a : List ℕ} :
    a ∈ preorder [0] root ↔ ∃ n, nodeAt root a = some n := by
  rw [← address_all, List.mem_map]
  constructor
  · rintro ⟨c, hc, rfl⟩
    obtain ⟨hv, hne⟩ := mem_all.mp hc
    rw [hv.nodeAt]
    cases c with
    | nil => exact absurd rfl hne
    | cons e c => exact ⟨e.node, rfl⟩
  · rintro ⟨n, hn⟩
    obtain ⟨c, hc, rfl, hcn⟩ := exists_valid hn
    refine ⟨c, mem_all.mpr ⟨hc, ?_⟩, rfl⟩
    rintro rfl
    simp [node?] at hcn

lemma pairwise_ordinal_places (q : Query) (root : Node) :
    ((q.places root).map ordinal).Pairwise (· < ·) := by
  rw [List.pairwise_map]
  exact (pairwise_places q root).imp_of_mem fun hc hd h =>
    ordinal_lt (mem_all_of_mem_places hc) (mem_all_of_mem_places hd) h

lemma exists_ordinal_iff {q : Query} {root : Node} {a : List ℕ} :
    (∃ i ∈ (q.places root).map ordinal, (preorder [0] root)[i]? = some a) ↔ q.Reaches root a := by
  simp only [List.mem_map, exists_exists_and_eq_and]
  constructor
  · rintro ⟨c, hc, hi⟩
    rw [preorder_ordinal (mem_all_of_mem_places hc)] at hi
    exact Option.some.inj hi ▸ (mem_places.mp hc).2
  · intro h
    obtain ⟨n, hn⟩ := h.2.nodeAt_isSome h.1
    obtain ⟨c, hc, rfl, _⟩ := exists_valid hn
    have hm : c ∈ q.places root := mem_places.mpr ⟨hc, h⟩
    exact ⟨c, hm, preorder_ordinal (mem_all_of_mem_places hm)⟩

lemma select_eq_ordinals (q : Query) (root : Node) :
    q.select root = ((q.places root).map ordinal).filterMap fun i =>
      (preorder [0] root)[i]?.bind (nodeAt root) := by
  rw [List.filterMap_map]
  refine List.filterMap_congr fun c hc => ?_
  rw [Function.comp_apply, preorder_ordinal (mem_all_of_mem_places hc), Option.bind_some,
    (mem_places.mp hc).1.nodeAt]

lemma head?_eq_min? {is : List ℕ} (h : is.Pairwise (· < ·)) : is.head? = is.min? := by
  cases is with
  | nil => rfl
  | cons i is =>
    symm
    refine List.min?_eq_some_iff.mpr ⟨List.mem_cons_self, fun j hj => ?_⟩
    rcases List.mem_cons.mp hj with rfl | hj
    · exact Nat.le_refl j
    · exact Nat.le_of_lt ((List.pairwise_cons.mp h).1 j hj)

/-- What a query selects, told by indices into the pre-order of the tree: they are those of the
addresses that end a trail, in increasing order, and the first node is at the least of them. -/
theorem select_trail_ends (q : Query) (root : Node) :
    let order := preorder [0] root
    let indices := (q.places root).map ordinal
    (order.Nodup ∧ ∀ a, a ∈ order ↔ ∃ n, nodeAt root a = some n) ∧
    (∀ a, (∃ i ∈ indices, order[i]? = some a) ↔ q.Reaches root a) ∧
    (∀ i ∈ indices, ∃ a n, order[i]? = some a ∧ nodeAt root a = some n) ∧
    indices.Pairwise (· < ·) ∧
    q.select root = indices.filterMap (fun i => order[i]?.bind (nodeAt root)) ∧
    (q.steps = [] → q.select root = []) ∧
    q.first? root = indices.min?.bind (fun i => order[i]?.bind (nodeAt root)) := by
  intro order indices
  have hi : ∀ i ∈ indices, ∃ a n, order[i]? = some a ∧ nodeAt root a = some n := by
    intro i hi
    obtain ⟨c, hc, rfl⟩ := List.mem_map.mp hi
    have ha := preorder_ordinal (mem_all_of_mem_places hc)
    obtain ⟨n, hn⟩ := mem_preorder.mp (List.mem_of_getElem? ha)
    exact ⟨c.address, n, ha, hn⟩
  refine ⟨⟨nodup_preorder root, fun _ => mem_preorder⟩, fun _ => exists_ordinal_iff, hi,
    pairwise_ordinal_places q root, select_eq_ordinals q root, ?_, ?_⟩
  · intro hs
    rw [select_eq_ordinals, List.filterMap_eq_nil_iff]
    intro i him
    obtain ⟨a, _, ha, _⟩ := hi i him
    exact absurd hs (exists_ordinal_iff.mp ⟨i, him, ha⟩).1
  · rw [first?, select_eq_ordinals, ← head?_eq_min? (pairwise_ordinal_places q root)]
    cases hp : (q.places root).map ordinal with
    | nil => rfl
    | cons i is =>
      obtain ⟨a, n, ha, hn⟩ := hi i (by simp [indices, hp])
      have hin : (preorder [0] root)[i]?.bind (nodeAt root) = some n := by
        rw [ha, Option.bind_some, hn]
      simp [hin, order]

end Query

end SettingCatalog
