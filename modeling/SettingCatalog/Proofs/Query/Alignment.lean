import SettingCatalog.Proofs.Query.Printing
import SettingCatalog.Proofs.Query.Selection
import SettingCatalog.Proofs.Tree.Aligned

/-! Queries on trees of one shape. If the steps of a query cannot tell related nodes apart, the
query finds the same places in both trees. -/

namespace SettingCatalog

open Node

variable {R : Node → Node → Prop}

/-! ### Addresses -/

lemma Node.Aligned.descend {n m : Node} (h : Aligned R n m) (a : List ℕ) :
    Option.Rel (Aligned R) (n.descend a) (m.descend a) := by
  induction a generalizing n m with
  | nil => exact .some h
  | cons i a ih =>
    obtain ⟨-, hchildren⟩ := h
    exact rel_bind (getElem?_of_forall₂ hchildren i) fun k k' hk => ih hk

namespace Query

lemma nodeAt_aligned {t t' : Node} (h : Aligned R t t') (a : List ℕ) :
    Option.Rel (Aligned R) (nodeAt t a) (nodeAt t' a) := by
  rcases a with _ | ⟨_ | i, a⟩
  · exact .none
  · exact h.descend a
  · exact .none

lemma preorderAll_of_preorder {ns ms : List Node}
    (h : List.Forall₂ (fun n m => ∀ a, preorder a n = preorder a m) ns ms) (a : List ℕ) (i : ℕ) :
    preorderAll a i ns = preorderAll a i ms := by
  induction h generalizing i with
  | nil => rfl
  | cons hnm _ ih => rw [preorderAll, preorderAll, hnm, ih]

lemma preorder_eq (a : List ℕ) (n : Node) : preorder a n = a :: preorderAll a 0 n.children := by
  cases n with
  | mk => rw [preorder]

lemma preorder_aligned {n m : Node} (h : Aligned R n m) (a : List ℕ) :
    preorder a n = preorder a m := by
  induction n using child_induction generalizing m a with
  | step n ih =>
    obtain ⟨-, hchildren⟩ := h
    have hboth := (List.forall₂_and_left _ _).mpr ⟨fun k hk => hk, hchildren⟩
    have hpairs := hboth.imp fun k k' hk => fun b => ih k hk.1 hk.2 b
    rw [preorder_eq, preorder_eq, preorderAll_of_preorder hpairs]

/-! ### Trails -/

lemma exists_admitted_iff {t t' : Node} (h : Aligned R t t') {s : Step}
    (hs : ∀ n m, R n m → (s.Admits n ↔ s.Admits m)) (a : List ℕ) :
    (∃ n, nodeAt t a = some n ∧ s.Admits n) ↔ ∃ n, nodeAt t' a = some n ∧ s.Admits n := by
  have hrel := nodeAt_aligned h a
  generalize nodeAt t a = x at hrel ⊢
  generalize nodeAt t' a = y at hrel ⊢
  cases hrel with
  | none => rfl
  | some hnm =>
    obtain ⟨hnm, -⟩ := hnm
    simp [hs _ _ hnm]

lemma trail_aligned {t t' : Node} (h : Aligned R t t') {steps : List Step}
    (hs : ∀ s ∈ steps, ∀ n m, R n m → (s.Admits n ↔ s.Admits m)) (a c : List ℕ) :
    Trail t steps a c ↔ Trail t' steps a c := by
  induction steps generalizing a with
  | nil => rw [trail_nil, trail_nil]
  | cons s steps ih =>
    obtain ⟨hstep, hsteps⟩ := List.forall_mem_cons.mp hs
    rw [trail_cons, trail_cons]
    refine exists_congr fun b => ?_
    have hadmitted := exists_admitted_iff h hstep b
    have hrest := ih hsteps b
    constructor
    · rintro ⟨n, hr, hn, ha, ht⟩
      obtain ⟨m, hm, ha'⟩ := hadmitted.mp ⟨n, hn, ha⟩
      exact ⟨m, hr, hm, ha', hrest.mp ht⟩
    · rintro ⟨n, hr, hn, ha, ht⟩
      obtain ⟨m, hm, ha'⟩ := hadmitted.mpr ⟨n, hn, ha⟩
      exact ⟨m, hr, hm, ha', hrest.mpr ht⟩

/-! ### Selections -/

lemma mem_ordinals_iff {q : Query} {root : Node} {i : ℕ} :
    i ∈ (q.places root).map Chain.ordinal ↔
      ∃ a, (preorder [0] root)[i]? = some a ∧ q.Reaches root a := by
  constructor
  · intro hi
    obtain ⟨c, hc, rfl⟩ := List.mem_map.mp hi
    exact ⟨c.address, preorder_ordinal (mem_all_of_mem_places hc), (mem_places.mp hc).2⟩
  · rintro ⟨a, ha, hr⟩
    obtain ⟨j, hj, haj⟩ := exists_ordinal_iff.mpr hr
    have hlt : i < (preorder [0] root).length := (List.getElem?_eq_some_iff.mp ha).1
    obtain rfl : i = j := (List.getElem?_inj hlt (nodup_preorder root)).mp (ha.trans haj.symm)
    exact hj

section Selection

variable {q : Query} (hq : ∀ s ∈ q.steps, ∀ n m, R n m → (s.Admits n ↔ s.Admits m))
  {t t' : Node} (h : Aligned R t t')

include hq h

lemma ordinals_aligned :
    (q.places t').map Chain.ordinal = (q.places t).map Chain.ordinal := by
  refine (pairwise_ordinal_places q t').eq_of_mem_iff (pairwise_ordinal_places q t) fun i => ?_
  rw [mem_ordinals_iff, mem_ordinals_iff, preorder_aligned h]
  refine exists_congr fun a => and_congr_right fun _ => and_congr_right fun _ => ?_
  exact (trail_aligned h hq [] a).symm

lemma select_aligned : List.Forall₂ (Aligned R) (q.select t) (q.select t') := by
  rw [select_eq_ordinals, select_eq_ordinals, ordinals_aligned hq h, ← preorder_aligned h]
  have hsame : List.Forall₂ Eq ((q.places t).map Chain.ordinal) ((q.places t).map Chain.ordinal) :=
    List.forall₂_refl _
  refine List.rel_filterMap ?_ hsame
  rintro i _ rfl
  change Option.Rel _ ((preorder [0] t)[i]?.bind (nodeAt t)) ((preorder [0] t)[i]?.bind (nodeAt t'))
  cases (preorder [0] t)[i]? with
  | none => exact .none
  | some a => exact nodeAt_aligned h a

end Selection

/-- A step of a query that is parsed or built asks a node for its tag and for what it has under
names. -/
theorem Step.Regular.admits_iff {s : Step} (hs : s.Regular) (n : Node) :
    s.Admits n ↔ (s.test = .any ∨ s.test = .tag n.tag) ∧
      ∀ p ∈ s.predicates, Has n p.nameAndValue.1 p.nameAndValue.2 := by
  rw [Admits, Test.accepts_iff]
  refine and_congr_right fun _ => forall₂_congr fun p hp => ?_
  rw [← Predicate.ofName_accepts_iff, ← hs.predicates p hp]

/-! ### Roles that are marked by attributes too -/

/-- No query that is parsed or built asks for the attribute that spells a role. -/
lemma Predicate.accepts_marked {p : Predicate} (hp : p = .ofName p.nameAndValue.1 p.nameAndValue.2)
    {n m : Node} (h : Marked n m) : p.accepts m = p.accepts n := by
  cases p with
  | token value => rw [accepts, accepts, h.token_eq]
  | role value => rw [accepts, accepts, h.role_eq]
  | attr name value =>
    have hname : name ≠ roleAttribute := by
      rintro rfl
      simp [ofName, nameAndValue, tokenName, roleAttribute] at hp
    rw [accepts, accepts, h.attributeValue_eq hname]

lemma Step.admits_marked {s : Step} (hs : s.Regular) {n m : Node} (h : Marked n m) :
    s.Admits n ↔ s.Admits m := by
  have htest : s.test.accepts m = s.test.accepts n := by
    cases s.test with
    | any => rfl
    | tag name => rw [Test.accepts, Test.accepts, h.tag_eq]
  rw [Admits, Admits, htest]
  refine and_congr_right fun _ => forall₂_congr fun p hp => ?_
  rw [Predicate.accepts_marked (hs.predicates p hp) h]

section Built

variable {q : Query} (hq : Built q) {t t' : Node} (h : Aligned Marked t t')

include hq h

lemma ordinals_marked :
    (q.places t').map Chain.ordinal = (q.places t).map Chain.ordinal := by
  refine ordinals_aligned (fun s hs n m hnm => ?_) h
  exact s.admits_marked (hq.regular s hs) hnm

lemma select_marked : List.Forall₂ (Aligned Marked) (q.select t) (q.select t') := by
  refine select_aligned (fun s hs n m hnm => ?_) h
  exact s.admits_marked (hq.regular s hs) hnm

end Built

end Query

end SettingCatalog
