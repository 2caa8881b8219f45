/-!
Lengths of time: whole seconds, and the nanoseconds behind them. A product that is too long for the
seconds stays at the longest time there is.
-/

namespace SettingCatalog

namespace Word

def add? (a b : UInt64) : Option UInt64 :=
  if a.toNat + b.toNat < UInt64.size then some (a + b) else none

def mul? (a b : UInt64) : Option UInt64 :=
  if a.toNat * b.toNat < UInt64.size then some (a * b) else none

end Word

structure Duration where
  seconds : UInt64
  nanos : UInt32
  nanos_lt : nanos.toNat < 1000000000
deriving DecidableEq, Repr

namespace Duration

def ofSeconds (seconds : UInt64) : Duration := ⟨seconds, 0, by decide⟩

theorem toNat_nanosOfMillis (millis : UInt64) :
    ((millis % 1000).toUInt32 * 1000000).toNat = millis.toNat % 1000 * 1000000 := by
  have hlt : millis.toNat % 1000 < 1000 := Nat.mod_lt _ (by decide)
  simp only [UInt32.toNat_mul, UInt64.toNat_toUInt32, UInt64.toNat_mod, UInt64.toNat_ofNat,
    UInt32.toNat_ofNat, Nat.reducePow, Nat.reduceMod]
  omega

def ofMillis (millis : UInt64) : Duration :=
  ⟨millis / 1000, (millis % 1000).toUInt32 * 1000000, by
    rw [toNat_nanosOfMillis]
    omega⟩

def toMillis (d : Duration) : Nat := d.seconds.toNat * 1000 + d.nanos.toNat / 1000000

def longest : Duration := ⟨UInt64.ofNat (UInt64.size - 1), 999999999, by decide⟩

theorem toNat_nanosOf (nanos : UInt64) :
    (nanos % 1000000000).toUInt32.toNat = nanos.toNat % 1000000000 := by
  simp only [UInt64.toNat_toUInt32, UInt64.toNat_mod, UInt64.toNat_ofNat,
    Nat.reducePow, Nat.reduceMod]
  omega

/-- The product with a number, if its seconds are a word. The product of the nanoseconds, which is
one in any case, may add to the seconds. -/
def mul? (d : Duration) (k : UInt32) : Option Duration := do
  let nanos := d.nanos.toUInt64 * k.toUInt64
  let seconds ← Word.mul? d.seconds k.toUInt64
  let seconds ← Word.add? seconds (nanos / 1000000000)
  return ⟨seconds, (nanos % 1000000000).toUInt32, by
    rw [toNat_nanosOf]
    omega⟩

def saturatingMul (d : Duration) (k : UInt32) : Duration := (d.mul? k).getD longest

instance : LE Duration where
  le a b := a.seconds < b.seconds ∨ a.seconds = b.seconds ∧ a.nanos ≤ b.nanos

instance (a b : Duration) : Decidable (a ≤ b) :=
  inferInstanceAs (Decidable (a.seconds < b.seconds ∨ a.seconds = b.seconds ∧ a.nanos ≤ b.nanos))

instance : Min Duration := minOfLe

end Duration

end SettingCatalog
