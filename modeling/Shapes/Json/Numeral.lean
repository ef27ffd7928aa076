import Shapes.Json.Basic

/-!
# Numerals

How the digits of a JSON number become a `JsonNumber`.  Digits are gathered
into a 64-bit significand.  Once it is full, further digits before the point
only raise the power of ten and further digits after it are dropped.  The
significand and the power of ten are rounded to doubles on their own and then
multiplied or divided, so the result is close to the written number but not
always the nearest double.
-/

namespace Shapes

structure Numeral where
  negative : Bool
  whole : List Nat
  fraction : List Nat
  exponent : Option (Bool × List Nat)

namespace Numeral

/-!
# From characters to parts

A numeral has a sign, a whole part without leading zeros, and a fraction and an
exponent that may be absent but not empty.
-/

def digit? (c : Char) : Option Nat :=
  if c.isDigit then some (c.toNat - '0'.toNat) else none

def takeDigits : List Char -> List Nat × List Char
  | [] => ([], [])
  | c :: rest =>
      match digit? c with
      | some d =>
          let (ds, after) := takeDigits rest
          (d :: ds, after)
      | none => ([], c :: rest)

def takeSign : List Char -> Bool × List Char
  | '-' :: rest => (true, rest)
  | cs => (false, cs)

def takeFraction : List Char -> Option (List Nat × List Char)
  | '.' :: rest =>
      match takeDigits rest with
      | ([], _) => none
      | found => some found
  | cs => some ([], cs)

def takeExponent : List Char -> Option (Option (Bool × List Nat) × List Char)
  | c :: rest =>
      if c = 'e' ∨ c = 'E' then
        let (negative, digits) :=
          match rest with
          | '+' :: more => (false, more)
          | more => takeSign more
        match takeDigits digits with
        | ([], _) => none
        | (ds, after) => some (some (negative, ds), after)
      else some (none, c :: rest)
  | [] => some (none, [])

/-- A whole part has digits, and starts with zero only when it is zero. -/
def validWhole : List Nat -> Bool
  | [] => false
  | [_] => true
  | d :: _ => d ≠ 0

def ofChars? (cs : List Char) : Option Numeral := do
  let (negative, unsigned) := takeSign cs
  let (whole, afterWhole) := takeDigits unsigned
  guard (validWhole whole)
  let (fraction, afterFraction) <- takeFraction afterWhole
  let (exponent, rest) <- takeExponent afterFraction
  guard rest.isEmpty
  return { negative, whole, fraction, exponent }

/-!
# From parts to numbers

A whole part that fits is an exact integer.  Everything else is gathered into a
significand and a power of ten.
-/

def significandLimit : Nat := twoPow 64

/--
Gather digits below a limit.  The result is the number gathered, how many
digits it took, and how many were left when the next one would not fit.
-/
def gather (limit : Nat) : Nat -> List Nat -> Nat × Nat × Nat
  | n, [] => (n, 0, 0)
  | n, d :: rest =>
      if n * 10 + d < limit then
        let (total, taken, left) := gather limit (n * 10 + d) rest
        (total, taken + 1, left)
      else (n, 0, rest.length + 1)

def divPowerOfTen (x : Binary64) (power : Nat) : Binary64 :=
  if power ≤ 308 then x.divMagnitude (Binary64.ofNat (tenPow power))
  else if x.isZero then x
  else divPowerOfTen (x.divMagnitude (Binary64.ofNat (tenPow 308))) (power - 308)
termination_by power

/-- The double for a significand and a power of ten, unless it is too large. -/
def scale? (significand : Nat) : Int -> Option Binary64
  | .ofNat power =>
      let x := Binary64.ofNat significand
      if x.isZero then some x
      else if 308 < power then none
      else
        let product := x.mulMagnitude (Binary64.ofNat (tenPow power))
        if product.isInfinite then none else some product
  | .negSucc power => some (divPowerOfTen (Binary64.ofNat significand) (power + 1))

def exponentLimit : Nat := twoPow 31

/--
The magnitude of a number with a point, an exponent or too many digits.  An
exponent beyond 31 bits is an overflow or a zero, whatever the significand's
own power of ten.
-/
def magnitude? (n : Numeral) : Option Binary64 :=
  let (whole, _, dropped) := gather significandLimit 0 n.whole
  let (significand, places, _) := gather significandLimit whole n.fraction
  let power := (dropped : Int) - places
  match n.exponent with
  | none => scale? significand power
  | some (negative, digits) =>
      match gather exponentLimit 0 digits with
      | (e, _, 0) => scale? significand (if negative then power - e else power + e)
      | _ =>
          if significand ≠ 0 ∧ negative = false then none
          else some (Binary64.zero false)

/-- The whole part as an exact integer, when it is one and fits. -/
def integer? (n : Numeral) : Option Int :=
  if n.fraction.isEmpty && n.exponent.isNone then
    match gather significandLimit 0 n.whole with
    | (value, _, 0) =>
        if n.negative = false then some value
        else if 0 < value ∧ value ≤ twoPow 63 then some (-value)
        else none
    | _ => none
  else none

/-- The number a token stands for; `none` when it is too large for a double. -/
def toNumber? (n : Numeral) : Option JsonNumber :=
  match n.integer? with
  | some i => some (.integer i)
  | none => n.magnitude?.map fun x => .double (if n.negative then x.neg else x)

end Numeral
end Shapes
