import Shapes.Number.Binary64

/-!
# Shortest decimals

`Binary64.shortest` gives the decimal with the fewest digits that rounds back
to a positive finite double, and of those with equally few digits the one
nearest to it.  Between two that are equally near the caller's `Tie` decides.

The doubles around a value leave it an interval of ratios that round to it.
On the grid of decimals with a given number of digits only the two neighbours
of the value can be the nearest ones in the interval, so each grid is settled
by two comparisons of natural numbers.
-/

namespace Shapes

/-- A number `coefficient * 10 ^ exponent`. -/
structure Decimal where
  coefficient : Nat
  exponent : Int
  deriving DecidableEq, Repr

namespace Decimal

def digits (d : Decimal) : List Char :=
  Nat.toDigits 10 d.coefficient

end Decimal

/-- Which of two equally near decimals is taken. -/
inductive Tie where
  | up
  | toEven
  deriving DecidableEq, Repr

def scaleRatio (num den : Nat) : Int -> Nat × Nat
  | .ofNat power => (num * tenPow power, den)
  | .negSucc power => (num, den * tenPow (power + 1))

/--
The number of digits before the decimal point of a positive ratio, negative
when zeros follow the point.  Moving the point by four hundred places makes
the integer part of every finite double positive.
-/
def integerDigits (num den : Nat) : Int :=
  ((Nat.toDigits 10 (num * tenPow 400 / den)).length : Int) - 400

namespace Binary64

/--
The interval of ratios that round to a positive finite double: a common
denominator, the lower end, the value and the upper end.
-/
structure Neighbourhood where
  denominator : Nat
  lower : Nat
  value : Nat
  upper : Nat
  closed : Bool

/--
Both ends lie half a step away, except that the double below a power of two
lies half as far.  The ends belong to the interval when the significand is
even.
-/
def neighbourhood (x : Binary64) : Neighbourhood :=
  let m := x.significand
  let narrow := x.fractionField = 0 ∧ 1 < x.exponentField
  { denominator := 4 * twoPow 1074
    lower := (4 * m - if narrow then 1 else 2) * twoPow x.scale
    value := 4 * m * twoPow x.scale
    upper := (4 * m + 2) * twoPow x.scale
    closed := m % 2 = 0 }

namespace Neighbourhood

def holds (n : Neighbourhood) (power : Int) (c : Nat) : Bool :=
  let low := scaleRatio n.lower n.denominator power
  let high := scaleRatio n.upper n.denominator power
  if n.closed then low.1 ≤ c * low.2 && c * high.2 ≤ high.1
  else low.1 < c * low.2 && c * high.2 < high.1

def nearest? (n : Neighbourhood) (tie : Tie) (power : Int) : Option Nat :=
  let scaled := scaleRatio n.value n.denominator power
  let below := scaled.1 / scaled.2
  let twice := 2 * (scaled.1 % scaled.2)
  let preferAbove :=
    scaled.2 < twice ||
      (twice = scaled.2 && (tie = .up || below % 2 = 1))
  match n.holds power below, n.holds power (below + 1) with
  | true, true => some (if preferAbove then below + 1 else below)
  | true, false => some below
  | false, true => some (below + 1)
  | false, false => none

end Neighbourhood

def trimZeros : Nat -> Decimal -> Decimal
  | 0, d => d
  | fuel + 1, d =>
      if d.coefficient ≠ 0 ∧ d.coefficient % 10 = 0 then
        trimZeros fuel ⟨d.coefficient / 10, d.exponent + 1⟩
      else d

/--
The shortest decimal that rounds to a positive finite double.  Seventeen
digits always suffice, so the search over digit counts never falls through.
-/
def shortest (x : Binary64) (tie : Tie) : Decimal :=
  let n := x.neighbourhood
  let whole := integerDigits n.value n.denominator
  let attempt (count : Nat) : Option Decimal :=
    let power := (count : Int) + 1 - whole
    (n.nearest? tie power).map fun c => trimZeros 20 ⟨c, -power⟩
  ((List.range 17).findSome? attempt).getD ⟨0, 0⟩

end Binary64
end Shapes
