import SettingCatalog.Proofs.Files.Addresses
import SettingCatalog.Source.Cache

/-! What a cache relies on. A store that works is an array of values under keys, kept in a folder
that nothing else touches, and it comes back after it was flushed. -/

namespace SettingCatalog

open FileSystem

abbrev Contents := Bytes → Option Bytes

def Contents.insert (m : Contents) (key value : Bytes) : Contents :=
  fun k => if k = key then some value else m k

/-- Every entry becomes a value that gives it back. -/
def EntryLayout.ReadsBack (layout : EntryLayout) : Prop :=
  ∀ e, ∃ value, layout.serialize e = .ok value ∧ layout.deserialize value = .ok e

def Within (folder a : List String) : Prop := folder <+: a

instance (folder a : List String) : Decidable (Within folder a) :=
  inferInstanceAs (Decidable (folder <+: a))

abbrev Spares (folder : List String) : FileSystem → FileSystem → Prop :=
  Same fun a => ¬ Within folder a

namespace Store

variable {σ : Type}

/-- The operations succeed and do what a store is for. `holds m x` says that the open store `x` has
the values `m`. -/
structure Lawful (store : Store σ) (folder : List String)
    (holds : Contents → OpenStore σ → Prop) : Prop where
  get {m : Contents} {x : OpenStore σ} (hx : holds m x) (key : Bytes) :
    ∃ x', store.get key x = (.ok (m key), x') ∧ holds m x' ∧ Keeps (Within folder) x.files x'.files
  insert {m : Contents} {x : OpenStore σ} (hx : holds m x) (key value : Bytes) :
    ∃ x', store.insert key value x = (.ok (), x') ∧ holds (m.insert key value) x' ∧
      Keeps (Within folder) x.files x'.files
  flush {m : Contents} {x : OpenStore σ} (hx : holds m x) :
    ∃ x', store.flush x = (.ok (), x') ∧ holds m x' ∧ Keeps (Within folder) x.files x'.files
  close {m : Contents} {x : OpenStore σ} (hx : holds m x) :
    Keeps (Within folder) x.files (store.close x)
  /-- What was flushed is there when the store is opened again. -/
  reopen {m : Contents} {x x' : OpenStore σ} {s : σ} {fs fs' : FileSystem} (hx : holds m x)
    (hflush : store.flush x = (.ok (), x')) (hspared : Spares folder (store.close x') fs)
    (hopen : store.openIn fs = (.ok s, fs')) : holds m ⟨s, fs'⟩
  spared {m : Contents} {x : OpenStore σ} {fs : FileSystem} (hx : holds m x)
    (hspared : Spares folder x.files fs) : holds m ⟨x.state, fs⟩

inductive Reach (store : Store σ) (x : OpenStore σ) : OpenStore σ → Prop
  | refl : Reach store x x
  | get {y : OpenStore σ} (h : Reach store x y) (key : Bytes) : Reach store x (store.get key y).2
  | insert {y : OpenStore σ} (h : Reach store x y) (key value : Bytes) :
    Reach store x (store.insert key value y).2

end Store

end SettingCatalog
