/-!
# Double-precision numbers

A `Binary64` is the 64-bit word of an IEEE 754 double: a sign bit, eleven
exponent bits and fifty-two fraction bits.  Everything here is exact natural
number arithmetic on the fields of that word, so each operation can be
unfolded in a proof.

A finite word stands for the ratio given by `Binary64.ratio`, and
`Binary64.ofRatio` goes back, rounding to the nearest double with ties to
the even one.
-/

namespace Shapes

/-!
# Powers and rounding

Quotients are rounded once, to the nearest number with halves to the even one.
-/

def twoPow (n : Nat) : Nat := Nat.pow 2 n

def tenPow (n : Nat) : Nat := Nat.pow 10 n

def roundDiv (num den : Nat) : Nat :=
  let quotient := num / den
  let rest := num % den
  if den < 2 * rest ∨ (2 * rest = den ∧ quotient % 2 = 1) then quotient + 1
  else quotient

/-- A double-precision number, kept as its 64-bit word. -/
structure Binary64 where
  bits : UInt64
  deriving DecidableEq, Repr

namespace Binary64

/-!
# Fields of the word

The sign is the highest bit; the other bits, as one number, order the
magnitudes.
-/

def fractionCount : Nat := twoPow 52

def exponentCount : Nat := twoPow 11

def magnitudeBits (x : Binary64) : Nat :=
  x.bits.toNat % (exponentCount * fractionCount)

def isNegative (x : Binary64) : Bool :=
  exponentCount * fractionCount ≤ x.bits.toNat

def exponentField (x : Binary64) : Nat :=
  x.magnitudeBits / fractionCount

def fractionField (x : Binary64) : Nat :=
  x.magnitudeBits % fractionCount

def isNaN (x : Binary64) : Bool :=
  x.exponentField = exponentCount - 1 && x.fractionField ≠ 0

def isInfinite (x : Binary64) : Bool :=
  x.exponentField = exponentCount - 1 && x.fractionField = 0

def isZero (x : Binary64) : Bool :=
  x.magnitudeBits = 0

/-!
# Words from fields

A magnitude and a sign make a word, with infinity as the first magnitude that is
too large to be finite.
-/

def ofMagnitude (negative : Bool) (magnitude : Nat) : Binary64 :=
  ⟨UInt64.ofNat
    (magnitude + if negative then exponentCount * fractionCount else 0)⟩

def infinityMagnitude : Nat := (exponentCount - 1) * fractionCount

def infinity (negative : Bool) : Binary64 :=
  ofMagnitude negative infinityMagnitude

def zero (negative : Bool) : Binary64 :=
  ofMagnitude negative 0

/-- The canonical quiet not-a-number, with either sign. -/
def notANumber (negative : Bool) : Binary64 :=
  ofMagnitude negative (infinityMagnitude + fractionCount / 2)

def neg (x : Binary64) : Binary64 :=
  ofMagnitude (!x.isNegative) x.magnitudeBits

/-!
# Values

A finite word of significand `m` and scale `s` has magnitude `m * 2 ^ s / 2 ^
1074`, where `s` counts from the smallest power of two there is.
-/

/-- The integer that a finite word scales by a power of two. -/
def significand (x : Binary64) : Nat :=
  if x.exponentField = 0 then x.fractionField
  else fractionCount + x.fractionField

def scale (x : Binary64) : Nat :=
  x.exponentField - 1

def ratio (x : Binary64) : Nat × Nat :=
  if 1074 ≤ x.scale then (x.significand * twoPow (x.scale - 1074), 1)
  else (x.significand, twoPow (1074 - x.scale))

/--
The integer part of the binary logarithm of a positive ratio, moved up by 1074
and cut off at zero.
-/
def ratioScale (num den : Nat) : Nat :=
  Nat.log2 (num * twoPow 1074 / den)

/--
The double nearest to `num / den`, ties to the even one and too large
ratios to infinity.

With `s` the scale of the result, the significand is the rounded quotient,
and adding it to `s` times the fraction count sets the exponent field,
also when rounding carries into the next power of two.
-/
def ofRatio (negative : Bool) (num den : Nat) : Binary64 :=
  let s := ratioScale num den - 52
  let rounded := roundDiv (num * twoPow 1074) (den * twoPow s)
  ofMagnitude negative (min infinityMagnitude (s * fractionCount + rounded))

def ofNat (n : Nat) : Binary64 :=
  ofRatio false n 1

def ofInt (i : Int) : Binary64 :=
  ofRatio (i < 0) i.natAbs 1

/-- The rounded product of the magnitudes of two finite doubles. -/
def mulMagnitude (x y : Binary64) : Binary64 :=
  ofRatio false (x.ratio.1 * y.ratio.1) (x.ratio.2 * y.ratio.2)

/-- The rounded quotient of the magnitudes of two finite doubles. -/
def divMagnitude (x y : Binary64) : Binary64 :=
  ofRatio false (x.ratio.1 * y.ratio.2) (x.ratio.2 * y.ratio.1)

/-!
# Two notions of equality

Numbers are compared by value.  Number literals are compared by identity, which
tells no two zeros and no two words that are not a number apart.
-/

/--
Numeric equality: the zeros are equal and a not-a-number equals nothing, not
even itself.
-/
def numEq (x y : Binary64) : Bool :=
  !x.isNaN && !y.isNaN && (x.bits = y.bits || (x.isZero && y.isZero))

/-- One word for all that identity does not tell apart. -/
def canonical (x : Binary64) : Binary64 :=
  if x.isNaN then notANumber false
  else if x.isZero then zero false
  else x

/--
Identity of numbers as literals: the zeros are one literal, and so are all
words that are not a number.
-/
def same (x y : Binary64) : Bool :=
  x.canonical = y.canonical

end Binary64
end Shapes
