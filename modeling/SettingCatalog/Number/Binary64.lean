/-!
Binary floating-point numbers with 53 significant bits, as exact integers: a number is
`mantissa · 2 ^ exponent`. Every operation rounds the exact result once, to the nearest number and
on a tie to the even mantissa.
-/

namespace SettingCatalog

/-- A non-negative number `mantissa · 2 ^ exponent`. -/
structure Binary64 where
  mantissa : Nat
  exponent : Int
deriving DecidableEq, Repr

namespace Binary64

def mantissaBits : Nat := 53

def minExponent : Int := -1074

def maxExponent : Int := 971

def zero : Binary64 := ⟨0, minExponent⟩

def isZero (x : Binary64) : Bool := x.mantissa == 0

/-- The quotient of two positive numbers, rounded to an integer; a tie goes to the even one. -/
def roundDiv (num den : Nat) : Nat :=
  let q := num / den
  let twice := 2 * (num % den)
  if twice < den ∨ twice = den ∧ q % 2 = 0 then q else q + 1

def scale (num den : Nat) (e : Int) : Nat × Nat :=
  if 0 ≤ e then (num, den * Nat.pow 2 e.toNat) else (num * Nat.pow 2 (-e).toNat, den)

/-- The exponent at which `num / den` has 53 bits before the point, or the least one. -/
def exponentOf (num den : Nat) : Int :=
  let guess : Int := (Nat.log2 num : Int) - Nat.log2 den - mantissaBits
  let (n, d) := scale num den guess
  let e := if n / d < Nat.pow 2 mantissaBits then guess else guess + 1
  max e minExponent

/-- The number nearest to `num / den`; none where it lies beyond the greatest one. -/
def ofRatio? (num den : Nat) : Option Binary64 :=
  if num = 0 then some zero
  else
    let e := exponentOf num den
    let (n, d) := scale num den e
    let q := roundDiv n d
    let x : Binary64 :=
      if q = Nat.pow 2 mantissaBits then ⟨Nat.pow 2 (mantissaBits - 1), e + 1⟩ else ⟨q, e⟩
    if maxExponent < x.exponent then none else some x

def toRatio (x : Binary64) : Nat × Nat :=
  if 0 ≤ x.exponent then (x.mantissa * Nat.pow 2 x.exponent.toNat, 1)
  else (x.mantissa, Nat.pow 2 (-x.exponent).toNat)

def ofNat? (n : Nat) : Option Binary64 := ofRatio? n 1

def mul? (x y : Binary64) : Option Binary64 :=
  let (a, b) := x.toRatio
  let (c, d) := y.toRatio
  ofRatio? (a * c) (b * d)

def div? (x y : Binary64) : Option Binary64 :=
  let (a, b) := x.toRatio
  let (c, d) := y.toRatio
  ofRatio? (a * d) (b * c)

def maxPower : Nat := 308

/-- `x · 10 ^ e`, a step of at most `10 ^ 308` at a time, each of them rounded; none where the
result is too large. Three steps down leave nothing of any number. -/
def timesPowerOfTen? (steps : Nat) (x : Binary64) (e : Int) : Option Binary64 :=
  if x.isZero then some x
  else if e.natAbs ≤ maxPower then
    (ofNat? (Nat.pow 10 e.natAbs)).bind fun power => if 0 ≤ e then x.mul? power else x.div? power
  else if 0 ≤ e then none
  else match steps with
    | 0 => some zero
    | steps + 1 =>
      ((ofNat? (Nat.pow 10 maxPower)).bind x.div?).bind fun y =>
        timesPowerOfTen? steps y (e + maxPower)

/-- The number that the decimal `significand · 10 ^ e` stands for: the significand is rounded first
and scaled then. -/
def ofDecimal? (significand : Nat) (e : Int) : Option Binary64 :=
  (ofNat? significand).bind fun x => timesPowerOfTen? 3 x e

end Binary64

end SettingCatalog
