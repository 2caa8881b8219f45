import SettingCatalog.Text.Utf8

/-!
Numbers as bytes, the lowest byte first.
-/

namespace SettingCatalog.LittleEndian

def encode : Nat → Nat → Bytes
  | 0, _ => []
  | width + 1, n => UInt8.ofNat n :: encode width (n / 256)

def decode : Bytes → Nat
  | [] => 0
  | b :: bs => b.toNat + 256 * decode bs

end SettingCatalog.LittleEndian
