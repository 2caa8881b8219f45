import SettingCatalog.Number.Duration

/-!
How often a request is repeated, and how long to wait before each time.
-/

namespace SettingCatalog

structure RetryPolicy where
  retries : UInt32
  initial : UInt64
deriving DecidableEq, Repr

namespace RetryPolicy

def standard : RetryPolicy := ⟨3, 200⟩

def none : RetryPolicy := ⟨0, 0⟩

def maxWait : Duration := .ofSeconds 10

/-- The factor on the initial wait: a power of two as long as it fits a word, and then the
greatest word. -/
def factor (attempt : UInt32) : UInt32 :=
  if attempt < 32 then 1 <<< attempt else UInt32.ofNat (UInt32.size - 1)

/-- The wait before a repetition, counted from zero; it doubles each time. -/
def wait (p : RetryPolicy) (attempt : UInt32) : Duration :=
  min ((Duration.ofMillis p.initial).saturatingMul (factor attempt)) maxWait

def backoff (p : RetryPolicy) (attempt : UInt32) : Nat := (p.wait attempt).toMillis

end RetryPolicy

end SettingCatalog
