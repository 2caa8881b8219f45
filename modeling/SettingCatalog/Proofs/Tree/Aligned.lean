import Mathlib.Data.List.Forall2
import SettingCatalog.Proofs.Tree.Attributes
import SettingCatalog.Proofs.Tree.Normal

/-! Trees of one shape, compared node by node. So are a tree and its normal form, and a tree and
what normalizing makes of it after some roles were spelled as attributes. -/

namespace SettingCatalog

section Pairs

variable {α β γ : Type} {R : α → β → Prop} {as : List α} {bs : List β}

lemma map_eq_of_forall₂ {f : α → γ} {g : β → γ} (h : List.Forall₂ R as bs)
    (hfg : ∀ a ∈ as, ∀ b, R a b → g b = f a) : bs.map g = as.map f := by
  induction h with
  | nil => rfl
  | cons hab _ ih =>
    obtain ⟨ha, has⟩ := List.forall_mem_cons.mp hfg
    rw [List.map_cons, List.map_cons, ha _ hab, ih has]

lemma flatMap_eq_of_forall₂ {f : α → List γ} {g : β → List γ} (h : List.Forall₂ R as bs)
    (hfg : ∀ a ∈ as, ∀ b, R a b → g b = f a) : bs.flatMap g = as.flatMap f := by
  rw [List.flatMap_def, List.flatMap_def, map_eq_of_forall₂ h hfg]

lemma any_eq_of_forall₂ {p : α → Bool} {r : β → Bool} (h : List.Forall₂ R as bs)
    (hpr : ∀ a ∈ as, ∀ b, R a b → r b = p a) : bs.any r = as.any p := by
  have hmap := congrArg (List.any · id) (map_eq_of_forall₂ h hpr)
  simpa [List.any_map] using hmap

lemma forall_of_forall₂ {P : α → Prop} {Q : β → Prop} (h : List.Forall₂ R as bs)
    (hPQ : ∀ a b, R a b → P a → Q b) (hP : ∀ a ∈ as, P a) : ∀ b ∈ bs, Q b := by
  induction h with
  | nil => simp
  | cons hab _ ih =>
    obtain ⟨ha, has⟩ := List.forall_mem_cons.mp hP
    exact List.forall_mem_cons.mpr ⟨hPQ _ _ hab ha, ih has⟩

lemma getElem?_of_forall₂ (h : List.Forall₂ R as bs) (i : ℕ) : Option.Rel R as[i]? bs[i]? := by
  induction h generalizing i with
  | nil => exact .none
  | cons hab _ ih =>
    cases i with
    | zero => exact .some hab
    | succ i => exact ih i

lemma rel_bind {γ δ : Type} {S : γ → δ → Prop} {x : Option α} {y : Option β}
    {f : α → Option γ} {g : β → Option δ} (h : Option.Rel R x y)
    (hfg : ∀ a b, R a b → Option.Rel S (f a) (g b)) : Option.Rel S (x.bind f) (y.bind g) := by
  cases h with
  | none => exact .none
  | some hab => exact hfg _ _ hab

end Pairs

namespace Node

inductive Aligned (R : Node → Node → Prop) : Node → Node → Prop
  | mk {n m : Node} : R n m → List.Forall₂ (Aligned R) n.children m.children → Aligned R n m

inductive Everywhere (P : Node → Prop) : Node → Prop
  | mk {n : Node} : P n → (∀ m ∈ n.children, Everywhere P m) → Everywhere P n

/-! ### Spellings of roles -/

def Unmarked (n : Node) : Prop := n.attributeValue roleAttribute = none

/-- The same node, or the node with its role moved to the attribute. -/
inductive Moved (n m : Node) : Prop
  | kept : m = { n with children := m.children } → Moved n m
  | moved {r : String} : n.role = some r → m = { n with
      role := none
      attributes := n.attributes.insert roleAttribute r
      children := m.children } → Moved n m

/-- The same node, or the node with its role in the attribute too. -/
inductive Marked (n m : Node) : Prop
  | kept : m = { n with children := m.children } → Marked n m
  | marked {r : String} : n.role = some r → m = { n with
      attributes := n.attributes.insert roleAttribute r
      children := m.children } → Marked n m

/-- The same node but for a role that was unset: it is taken from the attribute. -/
structure Lifted (n m : Node) : Prop where
  fields : m = { n with role := m.role, children := m.children }
  set : ∀ r, n.role = some r → m.role = some r
  unset : n.role = none → m.role = n.attributeValue roleAttribute

section Marked

variable {n m : Node} (h : Marked n m)

include h

lemma Marked.tag_eq : m.tag = n.tag := by
  cases h with
  | kept hm => rw [hm]
  | marked _ hm => rw [hm]

lemma Marked.token_eq : m.token = n.token := by
  cases h with
  | kept hm => rw [hm]
  | marked _ hm => rw [hm]

lemma Marked.role_eq : m.role = n.role := by
  cases h with
  | kept hm => rw [hm]
  | marked _ hm => rw [hm]

lemma Marked.line_eq : m.line = n.line := by
  cases h with
  | kept hm =>
    rw [hm]
    rfl
  | marked _ hm =>
    rw [hm]
    rfl

lemma Marked.attributeValue_eq {name : String} (hname : name ≠ roleAttribute) :
    m.attributeValue name = n.attributeValue name := by
  cases h with
  | kept hm =>
    rw [hm]
    rfl
  | marked _ hm =>
    rw [attributeValue, attributeValue, hm, Attributes.get?_insert, if_neg (Ne.symm hname)]

end Marked

lemma children_normalize (n : Node) : n.normalize.children = n.children.map normalize := by
  rw [normalize_eq]

lemma aligned_normalize (n : Node) : Aligned Lifted n n.normalize := by
  induction n using child_induction with
  | step n ih =>
    refine .mk ⟨?_, ?_, ?_⟩ ?_
    · rw [normalize_eq]
    · intro r hr
      rw [normalize_eq, hr]
      rfl
    · intro hr
      rw [normalize_eq, hr]
      rfl
    · rw [children_normalize, List.forall₂_map_right_iff, List.forall₂_same]
      exact ih

lemma normalize_of_unmarked {t : Node} (h : Everywhere Unmarked t) : t.normalize = t := by
  induction t using child_induction with
  | step n ih =>
    obtain ⟨hn, hchildren⟩ := h
    have hsame : n.children.map normalize = n.children := by
      rw [List.map_congr_left fun m hm => ih m hm (hchildren m hm), List.map_id']
    have hrole : spelledRole n.role n.attributes = n.role := by
      rw [spelledRole, show n.attributes.get? roleAttribute = none from hn, Option.or_none]
    rw [normalize_eq, hsame, hrole]
    cases n with
    | mk => rfl

lemma Moved.normalize {n m : Node} (hn : Unmarked n) (h : Moved n m) : Marked n m.normalize := by
  have hnone : n.attributes.get? roleAttribute = none := hn
  cases h with
  | kept hm =>
    refine .kept ?_
    rw [normalize_eq, hm]
    simp [spelledRole, hnone]
  | moved hr hm =>
    refine .marked hr ?_
    rw [normalize_eq, hm]
    simp [spelledRole, Attributes.get?_insert, hr]

lemma Aligned.normalize {t b : Node} (ht : Everywhere Unmarked t) (h : Aligned Moved t b) :
    Aligned Marked t b.normalize := by
  induction t using child_induction generalizing b with
  | step n ih =>
    obtain ⟨hn, hchildren⟩ := ht
    obtain ⟨hm, hpairs⟩ := h
    refine .mk (hm.normalize hn) ?_
    rw [children_normalize, List.forall₂_map_right_iff]
    have hboth := (List.forall₂_and_left _ _).mpr ⟨fun m hm => hm, hpairs⟩
    exact hboth.imp fun m m' hm => ih m hm.1 (hchildren m hm.1) hm.2

end Node

end SettingCatalog
