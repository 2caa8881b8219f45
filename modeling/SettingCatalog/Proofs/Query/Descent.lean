import SettingCatalog.Proofs.Query.Lineage

/-! Nodes found by going down. A lineage that ends the tests at the root of the tree is a way down
from the root along its children; where nothing below the root passes the last test, there are no
other lineages. A change that keeps the children of each node in their places keeps the lineages. -/

namespace SettingCatalog

open Query

/-- The nodes at the ends of the ways down along children that pass the tests, the first test being
that of a child of the node itself. -/
def along : List (Node → Bool) → Node → List Node
  | [], n => [n]
  | t :: ts, n => n.children.flatMap fun m => if t m then along ts m else []

def NoneBelow (t : Node → Bool) (n : Node) : Prop := ∀ m ∈ n.children, nodesWhere [t] m = []

/-! ### Lineages -/

lemma lineagesAll_eq (above : List Node) (ns : List Node) :
    lineagesAll above ns = ns.flatMap (lineages above) := by
  induction ns with
  | nil => rfl
  | cons n ns ih => rw [lineagesAll, List.flatMap_cons, ih]

lemma lineages_above (above : List Node) (n : Node) :
    lineages above n = (lineages [] n).map (· ++ above) := by
  induction n using Node.child_induction generalizing above with
  | step n ih =>
    have hchildren (below : List Node) : n.children.flatMap (lineages below) =
        n.children.flatMap fun m => (lineages [] m).map (· ++ below) :=
      List.flatMap_congr fun m hm => ih m hm below
    rw [lineages_eq, lineages_eq, lineagesAll_eq, lineagesAll_eq, hchildren, hchildren,
      List.map_cons, List.map_flatMap]
    simp [Function.comp_def]

lemma lineages_nil (n : Node) :
    lineages [] n = [n] :: n.children.flatMap fun m => (lineages [] m).map (· ++ [n]) := by
  rw [lineages_eq, lineagesAll_eq, funext (lineages_above [n])]

lemma exists_of_mem_lineages {n : Node} {l : List Node} (h : l ∈ lineages [] n) :
    ∃ s, l = s ++ [n] := by
  rw [lineages_nil] at h
  rcases List.mem_cons.mp h with rfl | h
  · exact ⟨[], rfl⟩
  · obtain ⟨m, -, hl⟩ := List.mem_flatMap.mp h
    obtain ⟨s, -, rfl⟩ := List.mem_map.mp hl
    exact ⟨s, rfl⟩

lemma exists_lineage_of_mem {n : Node} {l : List Node} (h : l ∈ lineages [] n) {m : Node}
    (hm : m ∈ l) : ∃ above, m :: above ∈ lineages [] n := by
  induction n using Node.child_induction generalizing l m with
  | step n ih =>
    rw [lineages_nil] at h ⊢
    rcases List.mem_cons.mp h with rfl | h
    · obtain rfl := List.mem_singleton.mp hm
      exact ⟨[], List.mem_cons_self⟩
    · obtain ⟨k, hk, hl⟩ := List.mem_flatMap.mp h
      obtain ⟨s, hs, rfl⟩ := List.mem_map.mp hl
      rcases List.mem_append.mp hm with hm | hm
      · obtain ⟨above, ha⟩ := ih k hk hs hm
        refine ⟨above ++ [n], List.mem_cons_of_mem _ (List.mem_flatMap.mpr ⟨k, hk, ?_⟩)⟩
        exact List.mem_map.mpr ⟨m :: above, ha, rfl⟩
      · obtain rfl := List.mem_singleton.mp hm
        exact ⟨[], List.mem_cons_self⟩

lemma nodesWhere_eq_nil_iff {t : Node → Bool} {n : Node} :
    nodesWhere [t] n = [] ↔ ∀ l ∈ lineages [] n, ∀ m ∈ l, t m = false := by
  constructor
  · intro h l hl m hm
    obtain ⟨above, ha⟩ := exists_lineage_of_mem hl hm
    rw [nodesWhere, List.filterMap_eq_nil_iff] at h
    by_contra ht
    have hnone := h (m :: above) (List.mem_filter.mpr ⟨ha, by simp_all [stands]⟩)
    cases hnone
  · intro h
    rw [nodesWhere, List.filterMap_eq_nil_iff]
    intro l hl
    obtain ⟨hl, hs⟩ := List.mem_filter.mp hl
    cases l with
    | nil => rfl
    | cons m above => simp [stands, h _ hl m List.mem_cons_self] at hs

/-! ### Tests that end at the root -/

lemma stands_concat (ts : List (Node → Bool)) (u : Node → Bool) (l : List Node) :
    stands (ts ++ [u]) l = (stands ts l && (l[ts.length]?).any u) := by
  induction ts generalizing l with
  | nil => cases l <;> simp [stands]
  | cons t ts ih =>
    cases l with
    | nil => simp [stands]
    | cons n l => simp [stands, ih, Bool.and_assoc]

lemma stands_append {ts : List (Node → Bool)} {s : List Node} (h : ts.length ≤ s.length)
    (r : List Node) : stands ts (s ++ r) = stands ts s := by
  induction ts generalizing s with
  | nil => rfl
  | cons t ts ih =>
    cases s with
    | nil => simp at h
    | cons n s => simp [stands, ih (Nat.le_of_succ_le_succ h)]

def rooted (tests : List (Node → Bool)) (n : Node) : List (List Node) :=
  ((lineages [] n).filter (stands tests)).filter fun l => l.length == tests.length

lemma ne_nil_of_mem_rooted {tests : List (Node → Bool)} {n : Node} {l : List Node}
    (h : l ∈ rooted tests n) : l ≠ [] := by
  obtain ⟨s, rfl⟩ := exists_of_mem_lineages (List.mem_filter.mp (List.mem_filter.mp h).1).1
  simp

lemma rooted_singleton (u : Node → Bool) (n : Node) :
    rooted [u] n = if u n then [[n]] else [] := by
  have hbelow : (n.children.flatMap fun m => (lineages [] m).map (· ++ [n])).filter
      (fun l => (l.length == [u].length) && stands [u] l) = [] := by
    rw [List.filter_eq_nil_iff]
    intro l hl
    obtain ⟨m, -, hl⟩ := List.mem_flatMap.mp hl
    obtain ⟨s, hs, rfl⟩ := List.mem_map.mp hl
    obtain ⟨r, rfl⟩ := exists_of_mem_lineages hs
    simp
  rw [rooted, List.filter_filter, lineages_nil, List.filter_cons, hbelow]
  simp [stands]

lemma rooted_concat (ts : List (Node → Bool)) (t u : Node → Bool) (n : Node) :
    rooted (ts ++ [t] ++ [u]) n =
      if u n then n.children.flatMap fun m => (rooted (ts ++ [t]) m).map (· ++ [n]) else [] := by
  have hpred (s : List Node) :
      ((s ++ [n]).length == (ts ++ [t] ++ [u]).length && stands (ts ++ [t] ++ [u]) (s ++ [n])) =
        (u n && (s.length == (ts ++ [t]).length && stands (ts ++ [t]) s)) := by
    have hlength : (s ++ [n]).length = s.length + 1 := List.length_append
    have hlength' : (ts ++ [t] ++ [u]).length = (ts ++ [t]).length + 1 := List.length_append
    rw [hlength, hlength']
    by_cases hs : s.length = (ts ++ [t]).length
    · rw [stands_concat, stands_append (Nat.le_of_eq hs.symm), ← hs]
      simp [Bool.and_comm]
    · rw [beq_false_of_ne hs, beq_false_of_ne fun h => hs (Nat.succ.inj h)]
      simp
  rw [rooted, List.filter_filter, lineages_nil, List.filter_cons_of_neg (by simp),
    List.filter_flatMap]
  simp only [List.filter_map, Function.comp_def, hpred]
  cases u n <;> simp [rooted, List.filter_filter]

lemma heads_rooted (ts : List (Node → Bool)) (u : Node → Bool) (n : Node) :
    (rooted (ts.reverse ++ [u]) n).filterMap List.head? = if u n then along ts n else [] := by
  induction ts generalizing u n with
  | nil =>
    rw [List.reverse_nil, List.nil_append, rooted_singleton]
    cases u n <;> rfl
  | cons t ts ih =>
    have hhead (m : Node) : ((rooted (ts.reverse ++ [t]) m).map (· ++ [n])).filterMap List.head? =
        if t m then along ts m else [] := by
      rw [← ih t m, List.filterMap_map]
      refine List.filterMap_congr fun s hs => ?_
      cases s with
      | nil => exact absurd rfl (ne_nil_of_mem_rooted hs)
      | cons k s => rfl
    rw [List.reverse_cons, rooted_concat]
    cases u n with
    | false => rfl
    | true =>
      rw [if_pos rfl, if_pos rfl, List.filterMap_flatMap, along]
      exact List.flatMap_congr fun m _ => hhead m

lemma NoneBelow.exists_of_mem_lineages {u : Node → Bool} {c : Node} (h : NoneBelow u c)
    {l : List Node} (hl : l ∈ lineages [] c) : ∃ s, l = s ++ [c] ∧ ∀ m ∈ s, u m = false := by
  rw [lineages_nil] at hl
  rcases List.mem_cons.mp hl with rfl | hl
  · exact ⟨[], rfl, by simp⟩
  · obtain ⟨k, hk, hl⟩ := List.mem_flatMap.mp hl
    obtain ⟨s, hs, rfl⟩ := List.mem_map.mp hl
    exact ⟨s, rfl, nodesWhere_eq_nil_iff.mp (h k hk) s hs⟩

/-- Where nothing below the root passes the last test, the nodes are found by going down from the
root. -/
theorem nodesWhere_eq_along {u : Node → Bool} {c : Node} (hc : u c = true) (h : NoneBelow u c)
    (ts : List (Node → Bool)) : nodesWhere (ts.reverse ++ [u]) c = along ts c := by
  have hroot : (lineages [] c).filter (stands (ts.reverse ++ [u])) =
      rooted (ts.reverse ++ [u]) c := by
    rw [rooted, eq_comm, List.filter_eq_self]
    intro l hl
    obtain ⟨hl, hs⟩ := List.mem_filter.mp hl
    obtain ⟨s, rfl, hbelow⟩ := h.exists_of_mem_lineages hl
    rw [stands_concat, Bool.and_eq_true, Option.any_eq_true] at hs
    obtain ⟨-, m, hm, hu⟩ := hs
    -- The last test is passed at the root only, so it is the last of the lineage that it asks.
    have hle : ts.reverse.length < (s ++ [c]).length := (List.getElem?_eq_some_iff.mp hm).1
    have hge : s.length ≤ ts.reverse.length := by
      by_contra hlt
      rw [List.getElem?_append_left (Nat.lt_of_not_le hlt)] at hm
      rw [hbelow m (List.mem_of_getElem? hm)] at hu
      cases hu
    simp only [List.length_append, List.length_singleton, beq_iff_eq] at hle ⊢
    omega
  rw [nodesWhere, hroot, heads_rooted, if_pos hc]

/-! ### Changes that keep every node in its place -/

lemma lineages_map {g : Node → Node} (hg : ∀ n, (g n).children = n.children.map g) (n : Node) :
    lineages [] (g n) = (lineages [] n).map (List.map g) := by
  induction n using Node.child_induction with
  | step n ih =>
    rw [lineages_nil, lineages_nil, hg, List.map_cons, List.map_flatMap, List.flatMap_map]
    congr 1
    refine List.flatMap_congr fun m hm => ?_
    rw [ih m hm, List.map_map, List.map_map]
    simp [Function.comp_def]

lemma stands_map {g : Node → Node} {ts : List (Node → Bool)} (ht : ∀ t ∈ ts, ∀ n, t (g n) = t n)
    (l : List Node) : stands ts (l.map g) = stands ts l := by
  induction ts generalizing l with
  | nil => cases l <;> rfl
  | cons t ts ih =>
    cases l with
    | nil => rfl
    | cons n l =>
      rw [List.map_cons, stands, stands, ht t List.mem_cons_self,
        ih fun t' ht' => ht t' (List.mem_cons_of_mem t ht')]

lemma nodesWhere_map {g : Node → Node} (hg : ∀ n, (g n).children = n.children.map g)
    {ts : List (Node → Bool)} (ht : ∀ t ∈ ts, ∀ n, t (g n) = t n) (n : Node) :
    nodesWhere ts (g n) = (nodesWhere ts n).map g := by
  rw [nodesWhere, lineages_map hg, List.filter_map, List.filterMap_map, nodesWhere,
    List.map_filterMap]
  simp only [Function.comp_def, stands_map ht, List.head?_map]

/-! ### Level by level -/

def heads (p : List Node → Bool) (n : Node) : List Node :=
  ((lineages [] n).filter p).filterMap List.head?

lemma nodesWhere_eq_heads (ts : List (Node → Bool)) (n : Node) :
    nodesWhere ts n = heads (stands ts) n := rfl

lemma heads_eq (p : List Node → Bool) (n : Node) :
    heads p n = (if p [n] then [n] else []) ++
      n.children.flatMap fun m => heads (fun l => p (l ++ [n])) m := by
  have hbelow (m : Node) : (((lineages [] m).map (· ++ [n])).filter p).filterMap List.head? =
      heads (fun l => p (l ++ [n])) m := by
    rw [List.filter_map, List.filterMap_map, heads]
    apply List.filterMap_congr
    intro l hl
    obtain ⟨s, rfl⟩ := exists_of_mem_lineages (List.mem_of_mem_filter hl)
    cases s <;> rfl
  rw [heads, lineages_nil, List.filter_cons, List.filter_flatMap]
  cases p [n] <;> simp [List.filterMap_flatMap, hbelow]

lemma heads_congr {p r : List Node → Bool} {n : Node} (h : ∀ s, p (s ++ [n]) = r (s ++ [n])) :
    heads p n = heads r n := by
  rw [heads, heads, List.filter_congr]
  intro l hl
  obtain ⟨s, rfl⟩ := exists_of_mem_lineages hl
  exact h s

lemma nodesWhere_single (t : Node → Bool) (n : Node) :
    nodesWhere [t] n = (if t n then [n] else []) ++ n.children.flatMap (nodesWhere [t]) := by
  have hbelow (m : Node) : heads (fun l => stands [t] (l ++ [n])) m = nodesWhere [t] m := by
    apply heads_congr
    intro s
    exact stands_append (by simp) [n]
  have hroot : stands [t] [n] = t n := by simp [stands]
  rw [nodesWhere_eq_heads, heads_eq, hroot, funext hbelow]

lemma nodesWhere_pair (t u : Node → Bool) (n : Node) :
    nodesWhere [t, u] n = n.children.flatMap fun m =>
      (if t m && u n then [m] else []) ++ nodesWhere [t, u] m := by
  have hinside (m : Node) : (m.children.flatMap fun k =>
      heads (fun l => stands [t, u] (l ++ [m] ++ [n])) k) = nodesWhere [t, u] m := by
    have hlong (k : Node) : heads (fun l => stands [t, u] (l ++ [m] ++ [n])) k =
        heads (fun l => stands [t, u] (l ++ [m])) k := by
      apply heads_congr
      intro s
      exact stands_append (by simp) [n]
    rw [nodesWhere_eq_heads, heads_eq, if_neg (by simp [stands]), List.nil_append, funext hlong]
  rw [nodesWhere_eq_heads, heads_eq, if_neg (by simp [stands]), List.nil_append]
  congr 1
  funext m
  rw [heads_eq, hinside]
  simp [stands]

end SettingCatalog
