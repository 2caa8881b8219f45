import Mathlib.Data.List.Sort
import SettingCatalog.Tree.Attributes

/-! Attributes are known by the values of their names, and of several values of one name the last
one counts. -/

namespace SettingCatalog.Attributes

lemma find?_insertEntry (name value k : String) (es : List (String × String)) :
    (insertEntry name value es).find? (fun e => e.1 == k) =
      if name = k then some (name, value) else es.find? (fun e => e.1 == k) := by
  fun_induction insertEntry name value es with
  | case1 => by_cases h : name = k <;> simp [h]
  | case2 n v rest hlt => by_cases h : name = k <;> simp [h]
  | case3 v rest hlt => by_cases h : name = k <;> simp [h]
  | case4 n v rest hlt hne ih =>
    by_cases hn : n = k
    · subst hn
      simp [hne]
    · simp [hn, ih]

lemma get?_insert (a : Attributes) (name value k : String) :
    (a.insert name value).get? k = if name = k then some value else a.get? k := by
  simp only [get?, insert, find?_insertEntry]
  by_cases h : name = k <;> simp [h]

lemma get?_foldl_insert (ps : List (String × String)) (a : Attributes) (k : String) :
    (ps.foldl (fun a p => a.insert p.1 p.2) a).get? k = (ps.reverse.lookup k).or (a.get? k) := by
  induction ps generalizing a with
  | nil => simp
  | cons p ps ih =>
    obtain ⟨name, value⟩ := p
    rw [List.foldl_cons, ih, get?_insert, List.reverse_cons, List.lookup_append]
    cases ps.reverse.lookup k with
    | some v => simp
    | none =>
      by_cases h : name = k
      · simp [h]
      · have hne : (k == name) = false := beq_eq_false_iff_ne.mpr (Ne.symm h)
        simp [List.lookup_cons, h, hne]

lemma get?_eq_some_iff (a : Attributes) (k v : String) :
    a.get? k = some v ↔ (k, v) ∈ a.entries := by
  obtain ⟨es, hes⟩ := a
  simp only [get?]
  induction es with
  | nil => simp
  | cons e es ih =>
    obtain ⟨n, w⟩ := e
    obtain ⟨hfirst, hrest⟩ := List.pairwise_cons.mp hes
    by_cases hn : n = k
    · subst hn
      have hnot : ∀ w', (n, w') ∉ es := fun w' hmem => String.lt_irrefl n (hfirst (n, w') hmem)
      simp [hnot, eq_comm]
    · have hne : ¬ k = n := fun h => hn h.symm
      simp [hn, hne, ih hrest]

theorem ext_get? {a b : Attributes} (h : ∀ k, a.get? k = b.get? k) : a = b := by
  have hmem : ∀ e, e ∈ a.entries ↔ e ∈ b.entries := by
    rintro ⟨k, v⟩
    rw [← get?_eq_some_iff, ← get?_eq_some_iff, h k]
  have : Std.Irrefl (fun x y : String × String => x.1 < y.1) := ⟨fun x => String.lt_irrefl x.1⟩
  have : Std.Antisymm (fun x y : String × String => x.1 < y.1) :=
    ⟨fun x y hxy hyx => absurd (String.lt_trans hxy hyx) (String.lt_irrefl x.1)⟩
  have hentries : a.entries = b.entries := a.ordered.eq_of_mem_iff b.ordered hmem
  cases a
  cases b
  simpa using hentries

lemma lookup_reverse_entries (a : Attributes) (k : String) :
    a.entries.reverse.lookup k = a.get? k := by
  have hmem : ∀ v, a.entries.reverse.lookup k = some v → a.get? k = some v := by
    intro v hv
    obtain ⟨l, r, hl, -⟩ := List.lookup_eq_some_iff.mp hv
    rw [get?_eq_some_iff, ← List.mem_reverse, hl]
    simp
  cases hk : a.entries.reverse.lookup k with
  | some v => exact (hmem v hk).symm
  | none =>
    cases hg : a.get? k with
    | none => rfl
    | some v =>
      have hne := List.lookup_eq_none_iff.mp hk (k, v)
        (List.mem_reverse.mpr ((get?_eq_some_iff a k v).mp hg))
      simp at hne

end SettingCatalog.Attributes
