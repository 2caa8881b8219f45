import Mathlib.Data.List.Basic
import SettingCatalog.Tree.Node

/-! Induction over trees, and trees with every role in its field. -/

namespace SettingCatalog.Node

lemma sizeOf_child {n m : Node} (h : m ∈ n.children) : sizeOf m < sizeOf n := by
  cases n with
  | mk tag token role attributes children position =>
    have hm : sizeOf m < sizeOf children := List.sizeOf_lt_of_mem h
    simp only [mk.sizeOf_spec]
    omega

theorem child_induction {P : Node → Prop} (step : ∀ n, (∀ m ∈ n.children, P m) → P n) (n : Node) :
    P n :=
  step n fun m _ => child_induction step m
termination_by sizeOf n
decreasing_by exact sizeOf_child ‹_›

lemma normalize_eq (n : Node) :
    n.normalize = { n with
      role := spelledRole n.role n.attributes
      children := n.children.map normalize } := by
  cases n with
  | mk => rw [normalize, normalizeAll_eq_map]

lemma spelledRole_spelledRole (role : Option String) (attributes : Attributes) :
    spelledRole (spelledRole role attributes) attributes = spelledRole role attributes := by
  cases role <;> simp [spelledRole]

theorem normalize_normalize (n : Node) : n.normalize.normalize = n.normalize := by
  induction n using child_induction with
  | step n ih =>
    have hc : (n.children.map normalize).map normalize = n.children.map normalize := by
      rw [List.map_map]
      exact List.map_congr_left ih
    rw [normalize_eq n.normalize, normalize_eq n]
    simp only [spelledRole_spelledRole, hc]

end SettingCatalog.Node
