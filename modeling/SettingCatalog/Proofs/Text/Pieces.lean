import Mathlib.Data.List.Basic
import SettingCatalog.Text.Join

/-! Pieces put together with a separator and taken apart at it. There are as many pieces as before
exactly if none of them holds the separator. -/

namespace SettingCatalog.Text

section Pieces

variable {α : Type} {x a : α} {pieces : List (List α)}

lemma length_splitOn [DecidableEq α] (x : α) (as : List α) :
    (as.splitOn x).length = as.count x + 1 := by
  induction as with
  | nil => simp
  | cons a as ih =>
    rw [List.splitOn_cons_eq_if_modifyHead, List.count_cons]
    split <;> simp [ih]

lemma count_intercalate [DecidableEq α] (hne : pieces ≠ []) :
    ([x].intercalate pieces).count x + 1 = pieces.length + pieces.flatten.count x := by
  induction pieces with
  | nil => exact absurd rfl hne
  | cons p ps ih =>
    cases ps with
    | nil => simp [Nat.add_comm]
    | cons q ps =>
      have h := ih (by simp)
      rw [List.intercalate_cons_cons, List.flatten_cons, List.count_append, List.count_append,
        List.count_append, List.count_singleton_self, List.length_cons]
      omega

lemma length_splitOn_intercalate [DecidableEq α] (hne : pieces ≠ []) :
    (([x].intercalate pieces).splitOn x).length = pieces.length ↔ ∀ p ∈ pieces, x ∉ p := by
  rw [length_splitOn, count_intercalate hne, Nat.add_eq_left, List.count_eq_zero]
  simp

lemma mem_intercalate (hne : pieces ≠ []) (ha : a ≠ x) :
    a ∈ [x].intercalate pieces ↔ ∃ p ∈ pieces, a ∈ p := by
  induction pieces with
  | nil => exact absurd rfl hne
  | cons p ps ih =>
    cases ps with
    | nil => simp
    | cons q ps =>
      rw [List.intercalate_cons_cons, List.mem_append, List.mem_append, ih (by simp)]
      simp [ha]

/-- Pieces that each end with the separator are pieces between separators, and an empty one. -/
lemma flatMap_ended (x : α) (ls : List (List α)) :
    ls.flatMap (· ++ [x]) = [x].intercalate (ls ++ [[]]) := by
  induction ls with
  | nil => simp
  | cons l ls ih =>
    obtain ⟨m, ms, hm⟩ : ∃ m ms, ls ++ [[]] = m :: ms :=
      List.exists_cons_of_ne_nil (by simp)
    rw [List.flatMap_cons, ih, List.cons_append, hm, List.intercalate_cons_cons]

end Pieces

lemma toList_joinTexts (c : Char) (ss : List String) :
    (joinTexts (String.singleton c) ss).toList = [c].intercalate (ss.map String.toList) := by
  induction ss with
  | nil => rfl
  | cons s ss ih =>
    cases ss with
    | nil => simp [joinTexts]
    | cons t ss =>
      rw [List.map_cons] at ih
      rw [joinTexts, String.toList_append, String.toList_append, ih, List.map_cons, List.map_cons,
        List.intercalate_cons_cons, String.toList_singleton]
      exact List.cons_ne_nil t ss

end SettingCatalog.Text
