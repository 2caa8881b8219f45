import SettingCatalog.Files.System

/-!
Stores of values under keys. A store has a folder of the file system to itself. Every operation may
change what is in that folder, and every operation may fail.
-/

namespace SettingCatalog

structure OpenStore (σ : Type) where
  state : σ
  files : FileSystem

/-- The operations of a store. One that fails says why. -/
structure Store (σ : Type) where
  openIn : FileSystem → Except String σ × FileSystem
  get : Bytes → OpenStore σ → Except String (Option Bytes) × OpenStore σ
  insert : Bytes → Bytes → OpenStore σ → Except String Unit × OpenStore σ
  size : OpenStore σ → Nat
  /-- Writes what was inserted to the folder. -/
  flush : OpenStore σ → Except String Unit × OpenStore σ
  /-- Gives the store up. Nobody hears of it if this fails. -/
  close : OpenStore σ → FileSystem

end SettingCatalog
