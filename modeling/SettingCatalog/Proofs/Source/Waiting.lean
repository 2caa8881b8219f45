import Mathlib.Algebra.Group.Nat.Defs
import SettingCatalog.Source.Backoff

/-! The waits before repetitions in unbounded numbers. A length of time is a number of nanoseconds
with a limit, and a product that saturates is the product in numbers, cut off just below the limit.
Both cuts, of the factor and of the product, happen only far above the longest wait. -/

namespace SettingCatalog

namespace Word

variable {a b c : UInt64}

lemma add?_eq_some_iff : add? a b = some c ↔ a.toNat + b.toNat = c.toNat := by
  have hc := c.toNat_lt_size
  rw [add?, Option.ite_none_right_eq_some, Option.some.injEq, ← UInt64.toNat_inj,
    UInt64.toNat_add]
  constructor
  · rintro ⟨hlt, hsum⟩
    rwa [Nat.mod_eq_of_lt hlt] at hsum
  · intro hsum
    rw [hsum]
    exact ⟨hc, Nat.mod_eq_of_lt hc⟩

lemma mul?_eq_some_iff : mul? a b = some c ↔ a.toNat * b.toNat = c.toNat := by
  have hc := c.toNat_lt_size
  rw [mul?, Option.ite_none_right_eq_some, Option.some.injEq, ← UInt64.toNat_inj,
    UInt64.toNat_mul]
  constructor
  · rintro ⟨hlt, hproduct⟩
    rwa [Nat.mod_eq_of_lt hlt] at hproduct
  · intro hproduct
    rw [hproduct]
    exact ⟨hc, Nat.mod_eq_of_lt hc⟩

end Word

namespace Duration

variable {a b d : Duration} {k : UInt32}

def toNanos (d : Duration) : ℕ := d.seconds.toNat * 1000000000 + d.nanos.toNat

def limit : ℕ := UInt64.size * 1000000000

lemma toNanos_lt_limit (d : Duration) : d.toNanos < limit := by
  have hseconds := d.seconds.toNat_lt_size
  have hnanos := d.nanos_lt
  rw [toNanos, limit]
  omega

lemma toNanos_longest : longest.toNanos = limit - 1 := by decide +kernel

lemma toNanos_ofMillis (millis : UInt64) : (ofMillis millis).toNanos = millis.toNat * 1000000 := by
  have hthousand : (1000 : UInt64).toNat = 1000 := rfl
  rw [toNanos, ofMillis, toNat_nanosOfMillis, UInt64.toNat_div, hthousand]
  omega

lemma toMillis_eq (d : Duration) : d.toMillis = d.toNanos / 1000000 := by
  rw [toMillis, toNanos]
  omega

lemma le_iff : a ≤ b ↔ a.toNanos ≤ b.toNanos := by
  have ha := a.nanos_lt
  have hb := b.nanos_lt
  change a.seconds < b.seconds ∨ a.seconds = b.seconds ∧ a.nanos ≤ b.nanos ↔ _
  rw [UInt64.lt_iff_toNat_lt, ← UInt64.toNat_inj, UInt32.le_iff_toNat_le, toNanos, toNanos]
  omega

lemma toNanos_min (a b : Duration) : (min a b).toNanos = min a.toNanos b.toNanos := by
  change (if a ≤ b then a else b).toNanos = _
  split
  · rename_i h
    exact (Nat.min_eq_left (le_iff.mp h)).symm
  · rename_i h
    rw [le_iff, Nat.not_le] at h
    exact (Nat.min_eq_right (Nat.le_of_lt h)).symm

lemma eq_mk_iff {seconds : UInt64} {nanos : UInt32} (h : nanos.toNat < 1000000000) :
    mk seconds nanos h = d ↔
      seconds.toNat = d.seconds.toNat ∧ nanos.toNat = d.nanos.toNat := by
  cases d
  rw [mk.injEq, UInt64.toNat_inj, UInt32.toNat_inj]

lemma exists_toNanos_eq {n : ℕ} (h : n < limit) : ∃ d : Duration, d.toNanos = n := by
  have hseconds : n / 1000000000 < UInt64.size := Nat.div_lt_of_lt_mul (by rwa [Nat.mul_comm])
  have hnanos : n % 1000000000 < 1000000000 := Nat.mod_lt _ (by decide)
  have hword : (UInt32.ofNat (n % 1000000000)).toNat = n % 1000000000 :=
    UInt32.toNat_ofNat_of_lt' (Nat.lt_trans hnanos (by decide))
  refine ⟨⟨UInt64.ofNat (n / 1000000000), UInt32.ofNat (n % 1000000000), by rwa [hword]⟩, ?_⟩
  rw [toNanos, UInt64.toNat_ofNat_of_lt' hseconds, hword]
  omega

lemma toNat_mul_nanos (d : Duration) (k : UInt32) :
    (d.nanos.toUInt64 * k.toUInt64).toNat = d.nanos.toNat * k.toNat := by
  rw [UInt64.toNat_mul, UInt32.toNat_toUInt64, UInt32.toNat_toUInt64]
  apply Nat.mod_eq_of_lt
  calc d.nanos.toNat * k.toNat < 1000000000 * 2 ^ 32 :=
        Nat.mul_lt_mul'' d.nanos_lt k.toNat_lt
    _ < 2 ^ 64 := by decide

lemma mul?_eq_some_iff : d.mul? k = some a ↔ d.toNanos * k.toNat = a.toNanos := by
  have hcarry : (d.nanos.toUInt64 * k.toUInt64 / 1000000000).toNat =
      d.nanos.toNat * k.toNat / 1000000000 := by
    rw [UInt64.toNat_div, toNat_mul_nanos]
    rfl
  have hexpand : d.toNanos * k.toNat =
      d.seconds.toNat * k.toNat * 1000000000 + d.nanos.toNat * k.toNat := by
    rw [toNanos, Nat.add_mul, Nat.mul_right_comm]
  have hnanos := a.nanos_lt
  rw [hexpand, toNanos]
  constructor
  · intro h
    obtain ⟨product, hproduct, h⟩ := Option.bind_eq_some_iff.mp h
    obtain ⟨seconds, hseconds, h⟩ := Option.bind_eq_some_iff.mp h
    rw [Word.mul?_eq_some_iff, UInt32.toNat_toUInt64] at hproduct
    rw [Word.add?_eq_some_iff, hcarry] at hseconds
    obtain ⟨hsame, hrest⟩ := (eq_mk_iff _).mp (Option.some.inj h)
    rw [toNat_nanosOf, toNat_mul_nanos] at hrest
    omega
  · intro h
    have hlt : d.seconds.toNat * k.toNat < UInt64.size := by
      have := a.seconds.toNat_lt_size
      omega
    have hproduct : Word.mul? d.seconds k.toUInt64 =
        some (UInt64.ofNat (d.seconds.toNat * k.toNat)) := by
      rw [Word.mul?_eq_some_iff, UInt32.toNat_toUInt64, UInt64.toNat_ofNat_of_lt' hlt]
    have hseconds : Word.add? (UInt64.ofNat (d.seconds.toNat * k.toNat))
        (d.nanos.toUInt64 * k.toUInt64 / 1000000000) = some a.seconds := by
      rw [Word.add?_eq_some_iff, UInt64.toNat_ofNat_of_lt' hlt, hcarry]
      omega
    refine Option.bind_eq_some_iff.mpr ⟨_, hproduct, Option.bind_eq_some_iff.mpr ⟨_, hseconds, ?_⟩⟩
    refine congrArg some ((eq_mk_iff _).mpr ⟨rfl, ?_⟩)
    rw [toNat_nanosOf, toNat_mul_nanos]
    omega

lemma toNanos_saturatingMul (d : Duration) (k : UInt32) :
    (d.saturatingMul k).toNanos = min (d.toNanos * k.toNat) (limit - 1) := by
  rw [saturatingMul]
  cases hproduct : d.mul? k with
  | some product =>
    rw [Option.getD_some, mul?_eq_some_iff.mp hproduct, Nat.min_eq_left]
    exact Nat.le_sub_one_of_lt product.toNanos_lt_limit
  | none =>
    have hlarge : limit ≤ d.toNanos * k.toNat := by
      refine Nat.le_of_not_lt fun hsmall => ?_
      obtain ⟨product, hsome⟩ := exists_toNanos_eq hsmall
      rw [mul?_eq_some_iff.mpr hsome.symm] at hproduct
      cases hproduct
    rw [Option.getD_none, toNanos_longest, Nat.min_eq_right]
    omega

end Duration

namespace RetryPolicy

variable {attempt later : UInt32}

lemma toNat_factor_of_lt (h : attempt < 32) : (factor attempt).toNat = 2 ^ attempt.toNat := by
  have hlt : attempt.toNat < 32 := UInt32.lt_iff_toNat_lt.mp h
  rw [factor, if_pos h, UInt32.toNat_shiftLeft, UInt32.toNat_one, Nat.one_shiftLeft,
    Nat.mod_eq_of_lt hlt]
  exact Nat.mod_eq_of_lt (Nat.pow_lt_pow_right (by decide) hlt)

/-- The factor is too small from the 32nd repetition on, but by then even one millisecond has grown
beyond the longest wait. -/
lemma min_factor (initial : ℕ) (attempt : UInt32) :
    min (initial * (factor attempt).toNat) 10000 = min (initial * 2 ^ attempt.toNat) 10000 := by
  by_cases h : attempt < 32
  · rw [toNat_factor_of_lt h]
  · have hle : 32 ≤ attempt.toNat := Nat.le_of_not_lt fun hlt => h (UInt32.lt_iff_toNat_lt.mpr hlt)
    have hfactor : 10000 ≤ (factor attempt).toNat := by
      rw [factor, if_neg h]
      decide
    have hpow : 10000 ≤ 2 ^ attempt.toNat :=
      Nat.le_trans (show 10000 ≤ 2 ^ 32 by decide) (Nat.pow_le_pow_right (by decide) hle)
    cases initial with
    | zero => rw [Nat.zero_mul, Nat.zero_mul]
    | succ n =>
      rw [Nat.min_eq_right (Nat.le_trans hfactor (Nat.le_mul_of_pos_left _ n.succ_pos)),
        Nat.min_eq_right (Nat.le_trans hpow (Nat.le_mul_of_pos_left _ n.succ_pos))]

lemma toNanos_wait (p : RetryPolicy) (attempt : UInt32) :
    (p.wait attempt).toNanos =
      min (p.initial.toNat * 2 ^ attempt.toNat) 10000 * 1000000 := by
  have hmax : maxWait.toNanos = 10000 * 1000000 := by decide +kernel
  have hlimit : 10000 * 1000000 ≤ Duration.limit - 1 := by decide +kernel
  calc (p.wait attempt).toNanos
      = min (min (p.initial.toNat * 1000000 * (factor attempt).toNat) (Duration.limit - 1))
          (10000 * 1000000) := by
        rw [wait, Duration.toNanos_min, Duration.toNanos_saturatingMul, Duration.toNanos_ofMillis,
          hmax]
    _ = min (p.initial.toNat * (factor attempt).toNat * 1000000) (10000 * 1000000) := by
        rw [Nat.min_assoc, Nat.min_eq_right hlimit, Nat.mul_right_comm]
    _ = min (p.initial.toNat * 2 ^ attempt.toNat) 10000 * 1000000 := by
        rw [Nat.mul_min_mul_right, min_factor]

/-- The wait doubles with each repetition up to the longest wait, as it does in unbounded numbers of
milliseconds: it never falls, never exceeds the longest wait, and stays zero if it begins so. -/
theorem wait_doubles (p : RetryPolicy) :
    (∀ attempt, (p.wait attempt).toNanos =
        min (p.initial.toNat * 2 ^ attempt.toNat) 10000 * 1000000 ∧
      p.backoff attempt = min (p.initial.toNat * 2 ^ attempt.toNat) 10000) ∧
    (∀ attempt later, attempt ≤ later → p.wait attempt ≤ p.wait later) ∧
    (∀ attempt, p.wait attempt ≤ .ofSeconds 10) ∧
    (p.initial = 0 → ∀ attempt, (p.wait attempt).toNanos = 0) := by
  refine ⟨fun attempt => ⟨p.toNanos_wait attempt, ?_⟩, fun attempt later h => ?_,
    fun attempt => ?_, fun h attempt => ?_⟩
  · rw [backoff, Duration.toMillis_eq, toNanos_wait]
    exact Nat.mul_div_cancel _ (by decide)
  · have hpow : 2 ^ attempt.toNat ≤ 2 ^ later.toNat :=
      Nat.pow_le_pow_right (by decide) (UInt32.le_iff_toNat_le.mp h)
    have hgrows := Nat.mul_le_mul_left p.initial.toNat hpow
    rw [Duration.le_iff, toNanos_wait, toNanos_wait]
    omega
  · have hten : (Duration.ofSeconds 10).toNanos = 10000 * 1000000 := by decide +kernel
    rw [Duration.le_iff, toNanos_wait, hten]
    exact Nat.mul_le_mul_right _ (Nat.min_le_right _ _)
  · rw [toNanos_wait, h, UInt64.toNat_zero, Nat.zero_mul, Nat.zero_min, Nat.zero_mul]

/-- The product with the factor saturates before the factor does. -/
theorem wait_doubles_saturated :
    (31 : UInt32) ≤ 32 ∧ (⟨5, 9223372036854775808⟩ : RetryPolicy).wait 31 ≤
        (⟨5, 9223372036854775808⟩ : RetryPolicy).wait 32 ∧
      none.initial = 0 ∧ (none.wait 40).toNanos = 0 :=
  ⟨by decide, (wait_doubles ⟨5, 9223372036854775808⟩).2.1 31 32 (by decide), rfl,
    (wait_doubles none).2.2.2 rfl 40⟩

end RetryPolicy

end SettingCatalog
