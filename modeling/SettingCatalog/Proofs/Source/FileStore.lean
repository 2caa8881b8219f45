import Mathlib.Data.List.Basic
import SettingCatalog.Command.FolderStore
import SettingCatalog.Proofs.Source.Stores
import SettingCatalog.Proofs.Text.Utf8

/-! A store that works and a layout that reads back: what is asked of them can be had. The store
has a file for each value, whose name is made of the letters that stand for the bytes of the key. -/

namespace SettingCatalog

open FileSystem

/-! ### Numbers as bytes -/

namespace LittleEndian

@[simp] lemma length_encode (width n : ℕ) : (encode width n).length = width := by
  induction width generalizing n with
  | zero => rfl
  | succ width ih => rw [encode, List.length_cons, ih]

lemma drop_encode {width k : ℕ} (h : width ≤ k) (n : ℕ) : (encode width n).drop k = [] :=
  List.drop_of_length_le (by rwa [length_encode])

lemma decode_encode (width n : ℕ) : decode (encode width n) = n % 256 ^ width := by
  induction width generalizing n with
  | zero => simp [encode, decode, Nat.mod_one]
  | succ width ih =>
    have hlow : (UInt8.ofNat n).toNat = n % 256 := UInt8.toNat_ofNat'
    rw [encode, decode, ih, hlow, Nat.pow_succ', Nat.mod_mul]

lemma decode_encode_of_lt {width n : ℕ} (h : n < 256 ^ width) : decode (encode width n) = n := by
  rw [decode_encode, Nat.mod_eq_of_lt h]

end LittleEndian

namespace EntryLayout

open LittleEndian

theorem packed_readsBack : packed.ReadsBack := by
  rintro ⟨version, ⟨modified, size⟩, tree⟩
  have hversion : decode (encode 4 version.toNat) = version.toNat :=
    decode_encode_of_lt version.toNat_lt
  have hmodified : decode (encode 8 modified.toNat) = modified.toNat :=
    decode_encode_of_lt modified.toNat_lt
  have hsize : decode (encode 8 size.toNat) = size.toNat := decode_encode_of_lt size.toNat_lt
  refine ⟨_, rfl, ?_⟩
  simp only [packed]
  rw [if_neg (by simp; omega)]
  simp [List.drop_append, drop_encode, hversion, hmodified, hsize]

end EntryLayout

/-! ### A file for each value -/

namespace FileStore

def letterOf (b : UInt8) : Char := Char.ofNat (256 + b.toNat)

def nameOf (key : Bytes) : String := .ofList (key.map letterOf)

def markName : String := "conf"

def addressOf (folder : List String) (key : Bytes) : List String := folder ++ [nameOf key]

/-- The store in the folder at an address. The folder above must be there. -/
def store (folder : List String) : Store Unit where
  openIn fs :=
    match fs.root.at? folder, fs.root.at? folder.dropLast with
    | some (.folder _), _ => (.ok (), fs)
    | none, some (.folder _) => (.ok (), fs.putAt (.folder [(markName, .file [] 0)]) folder)
    | _, _ => (.error OsError.notADirectory.message, fs)
  get key x := (.ok (x.files.fileAt? (addressOf folder key)), x)
  insert key value x :=
    match x.files.root.at? folder, x.files.root.at? (addressOf folder key) with
    | some (.folder _), some (.folder _) => (.error OsError.isADirectory.message, x)
    | some (.folder _), _ => (.ok (), ⟨(), x.files.putAt (.file value 0) (addressOf folder key)⟩)
    | _, _ => (.error OsError.notADirectory.message, x)
  size x :=
    match x.files.root.at? folder with
    | some (.folder items) => items.countP fun item => item.1 != markName
    | _ => 0
  flush x := (.ok (), x)
  close x := x.files

def cache (folder : List String) : Cache Unit := ⟨store folder, .packed⟩

structure Holds (folder : List String) (m : Contents) (x : OpenStore Unit) : Prop where
  is_folder : ∃ items, x.files.root.at? folder = some (.folder items)
  face_eq : ∀ key, (x.files.root.at? (addressOf folder key)).map Item.face =
    (m key).map (Face.file · 0)

variable {folder : List String} {m : Contents} {x : OpenStore Unit}

lemma letterOf_inj {a b : UInt8} (h : letterOf a = letterOf b) : a = b := by
  have hvalid (b : UInt8) : (256 + b.toNat).isValidChar := .inl (by have := b.toNat_lt; omega)
  have hnum := congrArg Char.toNat h
  rw [letterOf, letterOf, Text.Utf8.toNat_charOfNat (hvalid a),
    Text.Utf8.toNat_charOfNat (hvalid b)] at hnum
  exact UInt8.toNat_inj.mp (Nat.add_left_cancel hnum)

lemma addressOf_inj {k l : Bytes} : addressOf folder k = addressOf folder l ↔ k = l := by
  refine ⟨fun h => ?_, congrArg _⟩
  have hname : nameOf k = nameOf l := by simpa [addressOf] using h
  exact List.map_injective_iff.mpr (fun _ _ => letterOf_inj) (String.ofList_injective hname)

lemma within_addressOf (folder : List String) (key : Bytes) :
    Within folder (addressOf folder key) :=
  List.prefix_append _ _

namespace Holds

lemma fileAt?_eq (h : Holds folder m x) (key : Bytes) :
    x.files.fileAt? (addressOf folder key) = m key := by
  have hface := h.face_eq key
  rw [fileAt?]
  cases hm : m key with
  | none =>
    rw [hm, Option.map_none, Option.map_eq_none_iff] at hface
    rw [hface]
  | some value =>
    rw [hm, Option.map_some, Option.map_eq_some_iff] at hface
    obtain ⟨item, hitem, hfile⟩ := hface
    rw [hitem]
    cases item with
    | file content modified => cases hfile; rfl
    | _ => cases hfile

lemma not_folder (h : Holds folder m x) (key : Bytes) (items : List (String × Item)) :
    x.files.root.at? (addressOf folder key) ≠ some (.folder items) := by
  intro hfolder
  have hface := h.face_eq key
  rw [hfolder] at hface
  cases hm : m key with
  | none => rw [hm] at hface; cases hface
  | some value => rw [hm] at hface; cases hface

lemma spared (h : Holds folder m x) {fs : FileSystem} (hspared : Spares folder x.files fs) :
    Holds folder m ⟨x.state, fs⟩ where
  is_folder := by
    obtain ⟨items, hitems⟩ := h.is_folder
    exact hspared.exists_folder (not_not.mpr (List.prefix_refl folder)) hitems
  face_eq key := by
    rw [← h.face_eq key]
    exact hspared.face_eq _ (not_not.mpr (within_addressOf folder key))

lemma insert (h : Holds folder m x) (key value : Bytes) :
    ∃ x', (store folder).insert key value x = (.ok (), x') ∧
      Holds folder (m.insert key value) x' ∧ Keeps (Within folder) x.files x'.files := by
  obtain ⟨items, hitems⟩ := h.is_folder
  have hsame : Same (· = addressOf folder key) x.files
      (x.files.putAt (.file value 0) (addressOf folder key)) := by
    refine same_putAt hitems (fun below hbelow => ?_) fun _ _ => rfl
    exact h.not_folder key below ((Item.at?_concat hitems (nameOf key)).trans hbelow)
  refine ⟨⟨(), x.files.putAt (.file value 0) (addressOf folder key)⟩, ?_, ⟨?_, fun k => ?_⟩, ?_⟩
  · simp only [store, hitems]
    split
    · rename_i hfolder
      exact absurd hfolder (h.not_folder key _)
    · rfl
    · rename_i hno _
      exact absurd rfl (hno items)
  · exact hsame.exists_folder (by simp [addressOf]) hitems
  · rw [Contents.insert]
    by_cases hk : k = key
    · rw [if_pos hk, hk, putAt, Item.at?_put]
      rfl
    · rw [if_neg hk, ← h.face_eq k]
      exact hsame.face_eq _ fun heq => hk (addressOf_inj.mp heq)
  · refine (hsame.mono ?_).keeps
    rintro _ rfl
    exact within_addressOf folder key

lemma openIn_eq (h : Holds folder m x) : (store folder).openIn x.files = (.ok (), x.files) := by
  obtain ⟨items, hitems⟩ := h.is_folder
  simp only [store, hitems]

end Holds

theorem store_lawful (folder : List String) : (store folder).Lawful folder (Holds folder) where
  get {m x} hx key := by
    refine ⟨x, ?_, hx, .refl _ _⟩
    rw [← hx.fileAt?_eq key]
    rfl
  insert hx key value := hx.insert key value
  flush {m x} hx := ⟨x, rfl, hx, .refl _ _⟩
  close hx := .refl _ _
  reopen {m x x' s fs fs'} hx hflush hspared hopen := by
    cases hflush
    have hfs : Holds folder m ⟨(), fs⟩ := hx.spared hspared
    cases hfs.openIn_eq.symm.trans hopen
    exact hfs
  spared hx hspared := hx.spared hspared

end FileStore

end SettingCatalog
