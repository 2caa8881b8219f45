/-!
The attributes of a node: a finite map from names to values, listed by name.
-/

namespace SettingCatalog

/-- Names with their values, each name once, in increasing order. -/
structure Attributes where
  entries : List (String × String)
  ordered : entries.Pairwise (fun a b => a.1 < b.1) := by simp
deriving DecidableEq, Repr

namespace Attributes

def empty : Attributes := ⟨[], .nil⟩

instance : Inhabited Attributes := ⟨empty⟩

def get? (a : Attributes) (name : String) : Option String :=
  (a.entries.find? fun e => e.1 == name).map Prod.snd

/-- An ordered list of entries with one entry put in its place; an entry of the same name gives
way to it. -/
def insertEntry (name value : String) : List (String × String) → List (String × String)
  | [] => [(name, value)]
  | (n, v) :: rest =>
    if name < n then (name, value) :: (n, v) :: rest
    else if name = n then (name, value) :: rest
    else (n, v) :: insertEntry name value rest

theorem mem_insertEntry {name value : String} {es : List (String × String)}
    {e : String × String} (h : e ∈ insertEntry name value es) : e = (name, value) ∨ e ∈ es := by
  fun_induction insertEntry name value es with
  | case1 => simpa using h
  | case2 n v rest hlt => simpa using h
  | case3 v rest hlt =>
    rcases List.mem_cons.mp h with h | h
    · exact .inl h
    · exact .inr (List.mem_cons_of_mem _ h)
  | case4 n v rest hlt hne ih =>
    rcases List.mem_cons.mp h with h | h
    · exact .inr (h ▸ List.mem_cons_self)
    · exact (ih h).imp_right (List.mem_cons_of_mem _)

theorem pairwise_insertEntry {name value : String} {es : List (String × String)}
    (h : es.Pairwise (fun a b => a.1 < b.1)) :
    (insertEntry name value es).Pairwise (fun a b => a.1 < b.1) := by
  fun_induction insertEntry name value es with
  | case1 => simp
  | case2 n v rest hlt =>
    refine List.pairwise_cons.mpr ⟨fun e he => ?_, h⟩
    rcases List.mem_cons.mp he with rfl | he
    · exact hlt
    · exact String.lt_trans hlt ((List.pairwise_cons.mp h).1 e he)
  | case3 v rest hlt =>
    exact List.pairwise_cons.mpr ⟨(List.pairwise_cons.mp h).1, (List.pairwise_cons.mp h).2⟩
  | case4 n v rest hlt hne ih =>
    refine List.pairwise_cons.mpr ⟨fun e he => ?_, ih (List.pairwise_cons.mp h).2⟩
    rcases mem_insertEntry he with rfl | he
    · exact String.not_le.mp fun hle => hne (String.le_antisymm hle (String.not_lt.mp hlt))
    · exact (List.pairwise_cons.mp h).1 e he

def insert (a : Attributes) (name value : String) : Attributes :=
  ⟨insertEntry name value a.entries, pairwise_insertEntry a.ordered⟩

end Attributes

end SettingCatalog
