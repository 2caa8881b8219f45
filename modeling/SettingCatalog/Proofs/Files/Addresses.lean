import Mathlib.Data.List.Induction
import SettingCatalog.Files.System

/-! Items at addresses. Where the folder of an address is there, putting an item at the address
changes no other address: what stands there shows the same face, and only what is below the address
can be gone. A path leads to an address whose folder is there. -/

namespace SettingCatalog

/-- What can be told of an item without the items that it holds. -/
inductive Face where
  | file (content : Bytes) (modified : Int)
  | folder
  | link (target : String)
  | device (d : Device)

namespace Item

def face : Item → Face
  | file content modified => .file content modified
  | folder _ => .folder
  | link target => .link target
  | device d => .device d

/-! ### Addresses -/

@[simp] lemma at?_nil (item : Item) : item.at? [] = some item := by
  cases item <;> rfl

lemma at?_folder_cons (items : List (String × Item)) (name : String) (rest : List String) :
    (folder items).at? (name :: rest) = (items.lookup name).bind (·.at? rest) := by
  rw [at?]
  cases items.lookup name <;> rfl

lemma at?_of_lookup {items : List (String × Item)} {name : String} {item : Item}
    (h : items.lookup name = some item) (rest : List String) :
    (folder items).at? (name :: rest) = item.at? rest := by
  rw [at?_folder_cons, h, Option.bind_some]

lemma exists_items_of_at?_cons {item found : Item} {name : String} {rest : List String}
    (h : item.at? (name :: rest) = some found) :
    ∃ items below, item = folder items ∧ items.lookup name = some below ∧
      below.at? rest = some found := by
  cases item with
  | folder items =>
    rw [at?_folder_cons, Option.bind_eq_some_iff] at h
    obtain ⟨below, hbelow, hfound⟩ := h
    exact ⟨items, below, rfl, hbelow, hfound⟩
  | _ => cases h

lemma at?_append (item : Item) (a b : List String) :
    item.at? (a ++ b) = (item.at? a).bind (·.at? b) := by
  induction a generalizing item with
  | nil => rw [List.nil_append, at?_nil, Option.bind_some]
  | cons name a ih =>
    cases item with
    | folder items =>
      rw [List.cons_append, at?_folder_cons, at?_folder_cons, Option.bind_assoc]
      exact Option.bind_congr fun below _ => ih below
    | _ => rfl

lemma at?_concat {item : Item} {a : List String} {items : List (String × Item)}
    (h : item.at? a = some (folder items)) (name : String) :
    item.at? (a ++ [name]) = items.lookup name := by
  rw [at?_append, h, Option.bind_some, at?_folder_cons]
  simp

lemma exists_folder_of_at?_concat {item found : Item} {a : List String} {name : String}
    (h : item.at? (a ++ [name]) = some found) :
    ∃ items, item.at? a = some (folder items) ∧ items.lookup name = some found := by
  rw [at?_append, Option.bind_eq_some_iff] at h
  obtain ⟨holder, hholder, hfound⟩ := h
  obtain ⟨items, below, rfl, hbelow, hlast⟩ := exists_items_of_at?_cons hfound
  rw [at?_nil] at hlast
  exact ⟨items, hholder, hlast ▸ hbelow⟩

lemma exists_folder_dropLast {item : Item} {a : List String} {items : List (String × Item)}
    (h : item.at? a = some (folder items)) :
    ∃ items, item.at? a.dropLast = some (folder items) := by
  cases a using List.reverseRecOn with
  | nil => exact ⟨items, h⟩
  | append_singleton a name =>
    rw [List.dropLast_concat]
    obtain ⟨above, habove, -⟩ := exists_folder_of_at?_concat h
    exact ⟨above, habove⟩

/-! ### One item put at an address -/

lemma lookup_putNamed (name n : String) (new : Item) (items : List (String × Item)) :
    (putNamed name new items).lookup n = if n = name then some new else items.lookup n := by
  induction items with
  | nil => by_cases h : n = name <;> simp [putNamed, h]
  | cons e items ih =>
    obtain ⟨m, old⟩ := e
    by_cases hm : m = name
    · subst hm
      by_cases h : n = m <;> simp [putNamed, List.lookup_cons, beq_false_of_ne, h]
    · by_cases h : n = m
      · simp [putNamed, hm, h]
      · simp [putNamed, List.lookup_cons, hm, beq_false_of_ne h, ih]

lemma at?_put (new : Item) (a : List String) (root : Item) :
    (put new a root).at? a = some new := by
  induction a generalizing root with
  | nil => simp [put]
  | cons name a ih =>
    cases root with
    | folder items => rw [put, at?_folder_cons, lookup_putNamed, if_pos rfl]; exact ih _
    | _ => simpa [put, at?_folder_cons] using ih (folder [])

lemma face_put {root : Item} {holder : List String} {items : List (String × Item)}
    (h : root.at? holder = some (folder items)) (name : String) (new : Item) {b : List String}
    (hb : ¬ holder ++ [name] <+: b) :
    ((put new (holder ++ [name]) root).at? b).map face = (root.at? b).map face := by
  induction holder generalizing root b with
  | nil =>
    rw [at?_nil, Option.some.injEq] at h
    subst h
    rw [List.nil_append, put, put]
    cases b with
    | nil => rfl
    | cons n b =>
      have hn : n ≠ name := by
        rintro rfl
        exact hb (List.prefix_iff_eq_append.mpr rfl)
      rw [at?_folder_cons, at?_folder_cons, lookup_putNamed, if_neg hn]
  | cons p holder ih =>
    obtain ⟨all, below, rfl, hbelow, hholder⟩ := exists_items_of_at?_cons h
    rw [List.cons_append, put, hbelow, Option.getD_some]
    cases b with
    | nil => rfl
    | cons n b =>
      rw [at?_folder_cons, at?_folder_cons, lookup_putNamed]
      by_cases hn : n = p
      · subst hn
        rw [if_pos rfl, hbelow, Option.bind_some, Option.bind_some]
        exact ih hholder fun hpre => hb ((List.prefix_cons_inj n).mpr hpre)
      · rw [if_neg hn]

end Item

namespace FileSystem

variable {fs : FileSystem}

def fileAt? (fs : FileSystem) (a : List String) : Option Bytes :=
  match fs.root.at? a with
  | some (.file content _) => some content
  | _ => none

lemma fileAt?_congr {fs fs' : FileSystem} {a : List String}
    (h : (fs'.root.at? a).map Item.face = (fs.root.at? a).map Item.face) :
    fs'.fileAt? a = fs.fileAt? a := by
  unfold fileAt?
  cases h' : fs'.root.at? a with
  | none => cases h'' : fs.root.at? a <;> simp_all
  | some i =>
    cases h'' : fs.root.at? a with
    | none => simp_all
    | some j => cases i <;> cases j <;> simp_all [Item.face]

/-! ### What stays -/

/-- The working directory is the same, and all addresses show the same but those excepted. -/
structure Same (except : List String → Prop) (fs fs' : FileSystem) : Prop where
  here_eq : fs'.here = fs.here
  face_eq : ∀ a, ¬ except a → (fs'.root.at? a).map Item.face = (fs.root.at? a).map Item.face

/-- All files are the same but those at the addresses excepted. -/
def Keeps (except : List String → Prop) (fs fs' : FileSystem) : Prop :=
  ∀ a, ¬ except a → fs'.fileAt? a = fs.fileAt? a

variable {fs' fs'' : FileSystem} {except other : List String → Prop}

lemma Same.refl (except : List String → Prop) (fs : FileSystem) : Same except fs fs :=
  ⟨rfl, fun _ _ => rfl⟩

lemma Same.mono (h : Same except fs fs') (hle : ∀ a, except a → other a) : Same other fs fs' :=
  ⟨h.here_eq, fun a ha => h.face_eq a fun hx => ha (hle a hx)⟩

lemma Same.keeps (h : Same except fs fs') : Keeps except fs fs' :=
  fun a ha => fileAt?_congr (h.face_eq a ha)

lemma Same.exists_folder (h : Same except fs fs') {a : List String} (ha : ¬ except a)
    {items : List (String × Item)} (hitems : fs.root.at? a = some (.folder items)) :
    ∃ items', fs'.root.at? a = some (.folder items') := by
  have hface := h.face_eq a ha
  rw [hitems, Option.map_some, Option.map_eq_some_iff] at hface
  obtain ⟨item, hitem, hfolder⟩ := hface
  cases item with
  | folder items' => exact ⟨items', hitem⟩
  | _ => cases hfolder

lemma Keeps.refl (except : List String → Prop) (fs : FileSystem) : Keeps except fs fs :=
  fun _ _ => rfl

lemma Keeps.trans (h : Keeps except fs fs') (h' : Keeps except fs' fs'') : Keeps except fs fs'' :=
  fun a ha => (h' a ha).trans (h a ha)

lemma same_putAt {holder : List String} {items : List (String × Item)}
    (hholder : fs.root.at? holder = some (.folder items)) {name : String}
    (hold : ∀ below, items.lookup name ≠ some (.folder below)) {new : Item}
    (hnew : ∀ n rest, new.at? (n :: rest) = none) :
    Same (· = holder ++ [name]) fs (fs.putAt new (holder ++ [name])) where
  here_eq := rfl
  face_eq a ha := by
    by_cases hpre : holder ++ [name] <+: a
    · -- There was nothing below the address, and there is nothing now.
      obtain ⟨rest, rfl⟩ := hpre
      cases rest with
      | nil => simp at ha
      | cons n rest =>
        have hnow : (fs.putAt new (holder ++ [name])).root.at? (holder ++ [name] ++ n :: rest) =
            none := by
          rw [Item.at?_append, putAt, Item.at?_put, Option.bind_some, hnew]
        have hbefore : fs.root.at? (holder ++ [name] ++ n :: rest) = none := by
          rw [Item.at?_append, Item.at?_concat hholder]
          rcases hitem : items.lookup name with _ | item
          · rfl
          · cases item with
            | folder below => exact absurd hitem (hold below)
            | _ => rfl
        rw [hnow, hbefore]
    · exact Item.face_put hholder name new hpre

end FileSystem

end SettingCatalog
