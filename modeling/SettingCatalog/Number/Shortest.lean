import SettingCatalog.Number.Binary64

/-!
The shortest decimal that stands for a binary number: of all decimals that round to it the ones
with the fewest digits, and of these the nearest. `Layout` says which of two equally near ones is
taken and how its digits are written.
-/

namespace SettingCatalog

structure Decimal where
  digits : Nat
  exponent : Int
deriving DecidableEq, Repr

namespace Binary64

/-- A fraction that is compared with decimals: the ends of the interval that rounds to a number,
and the number, over a common denominator. -/
structure Interval where
  low : Nat
  value : Nat
  high : Nat
  den : Nat
  /-- Whether the ends themselves round to the number. -/
  closed : Bool

/-- The interval of the numbers that round to `x`. Below a power of two the numbers are twice as
dense. -/
def interval (x : Binary64) : Interval :=
  let lowGap := if x.mantissa = Nat.pow 2 (mantissaBits - 1) ∧ minExponent < x.exponent then 1 else 2
  let scaled (n : Nat) : Nat := if 0 ≤ x.exponent then n * Nat.pow 2 x.exponent.toNat else n
  { low := scaled (4 * x.mantissa - lowGap)
    value := scaled (4 * x.mantissa)
    high := scaled (4 * x.mantissa + 2)
    den := if 0 ≤ x.exponent then 4 else 4 * Nat.pow 2 (-x.exponent).toNat
    closed := x.mantissa % 2 == 0 }

/-- `d · 10 ^ k` against fractions over `den`: both sides multiplied out. -/
def onGrid (d : Nat) (k : Int) (den : Nat) : Nat :=
  if 0 ≤ k then d * Nat.pow 10 k.toNat * den else d * den

def offGrid (n : Nat) (k : Int) : Nat :=
  if 0 ≤ k then n else n * Nat.pow 10 (-k).toNat

namespace Interval

def contains (i : Interval) (d : Nat) (k : Int) : Bool :=
  let p := onGrid d k i.den
  let low := offGrid i.low k
  let high := offGrid i.high k
  if i.closed then low ≤ p && p ≤ high else low < p && p < high

/-- The multiple of `10 ^ k` in the interval that is nearest to the value, if one of the value's
two neighbours lies in it; a tie goes up, or to the even one. -/
def nearest? (tieUp : Bool) (i : Interval) (k : Int) : Option Nat :=
  let v := offGrid i.value k
  let unit := onGrid 1 k i.den
  let below := v / unit
  let above := below + 1
  match i.contains below k, i.contains above k with
  | false, false => none
  | true, false => some below
  | false, true => some above
  | true, true =>
    let toBelow := v - below * unit
    let toAbove := above * unit - v
    if toBelow < toAbove ∨ toBelow = toAbove ∧ !tieUp ∧ below % 2 = 0 then some below
    else some above

def search (tieUp : Bool) (i : Interval) : Nat → Int → Decimal
  | 0, k => ⟨offGrid i.value k / onGrid 1 k i.den, k⟩
  | grids + 1, k =>
    match i.nearest? tieUp k with
    | some d => ⟨d, k⟩
    | none => search tieUp i grids (k - 1)

end Interval

def leadingExponent (x : Binary64) : Int :=
  let (n, d) := x.toRatio
  if d ≤ n then ((toString (n / d)).length : Int) - 1
  else
    let places := (toString (d / n)).length
    if d ≤ n * Nat.pow 10 (places - 1) then 1 - places else -places

end Binary64

def Decimal.stripped (fuel : Nat) (x : Decimal) : Decimal :=
  match fuel with
  | 0 => x
  | fuel + 1 =>
    if x.digits ≠ 0 ∧ x.digits % 10 = 0 then
      Decimal.stripped fuel ⟨x.digits / 10, x.exponent + 1⟩
    else x

def Binary64.shortest (tieUp : Bool) (x : Binary64) : Decimal :=
  if x.isZero then ⟨0, 0⟩
  else ((x.interval.search tieUp 17 x.leadingExponent).stripped 17)

structure Decimal.Layout where
  /-- Whether the larger of two equally near decimals is taken, and not the even one. -/
  tieUp : Bool
  /-- The decimals written positionally, by the exponent of their leading digit. -/
  positional : Int → Bool

namespace Decimal

def scientific (ds : String) (lead : Int) : String :=
  let mantissa := match ds.toList with
    | [] => ""
    | [d] => d.toString
    | d :: rest => d.toString ++ "." ++ String.ofList rest
  mantissa ++ "e" ++ (if lead < 0 then "-" else "+") ++ toString lead.natAbs

def plain (ds : String) (lead : Int) : String :=
  if lead < 0 then "0." ++ "".pushn '0' (lead.natAbs - 1) ++ ds
  else
    let whole := lead.toNat + 1
    if ds.length ≤ whole then ds ++ "".pushn '0' (whole - ds.length) ++ ".0"
    else String.ofList (ds.toList.take whole) ++ "." ++ String.ofList (ds.toList.drop whole)

def write (layout : Layout) (x : Decimal) : String :=
  let ds := toString x.digits
  let lead := x.exponent + ds.length - 1
  if layout.positional lead then plain ds lead else scientific ds lead

/-- Numbers in messages about trees: positional from `0.00001` up to sixteen digits. -/
def shortLayout : Layout := ⟨false, fun lead => -5 ≤ lead && lead ≤ 15⟩

/-- Numbers in messages about settings of a run: always positional. -/
def plainLayout : Layout := ⟨true, fun _ => true⟩

end Decimal

def Binary64.write (layout : Decimal.Layout) (x : Binary64) : String :=
  (x.shortest layout.tieUp).write layout

end SettingCatalog
