import Shapes.Number.Shortest

/-!
# Number texts

Two layouts of the shortest decimal of a double.  Types show number literals
positionally, however many zeros that takes.  JSON documents keep a mark that
tells a double from an integer, and use an exponent for very large and very
small magnitudes.
-/

namespace Shapes

/-- The choices that fix how a double is written. -/
structure NumberLayout where
  tie : Tie
  /-- Written after the digits of an integral number. -/
  integralMark : String
  /--
  The exponents of the leading digit that are written positionally, from the
  first one up to but not including the second one; `none` for all.
  -/
  positional : Option (Int × Int)

namespace Decimal

def plain (d : Decimal) (integralMark : String) : String :=
  let digits := d.digits
  match d.exponent with
  | .ofNat zeros =>
      String.ofList (digits ++ List.replicate zeros '0') ++ integralMark
  | .negSucc k =>
      let places := k + 1
      if places < digits.length then
        String.ofList
          (digits.take (digits.length - places) ++
            '.' :: digits.drop (digits.length - places))
      else
        String.ofList
          ('0' :: '.' ::
            List.replicate (places - digits.length) '0' ++ digits)

def leading (d : Decimal) : Int :=
  d.exponent + d.digits.length - 1

def scientific (d : Decimal) : String :=
  let mantissa :=
    match d.digits with
    | [] => []
    | [digit] => [digit]
    | digit :: rest => digit :: '.' :: rest
  let exponent :=
    match d.leading with
    | .ofNat e => 'e' :: '+' :: Nat.toDigits 10 e
    | .negSucc e => 'e' :: '-' :: Nat.toDigits 10 (e + 1)
  String.ofList (mantissa ++ exponent)

end Decimal

namespace NumberLayout

def finite (layout : NumberLayout) (x : Binary64) : String :=
  let sign := if x.isNegative then "-" else ""
  if x.isZero then sign ++ "0" ++ layout.integralMark
  else
    let d := x.shortest layout.tie
    let isPlain :=
      match layout.positional with
      | none => true
      | some (low, high) => low ≤ d.leading && d.leading < high
    sign ++ (if isPlain then d.plain layout.integralMark else d.scientific)

end NumberLayout

/--
Number literals in types: every digit position is written, integral numbers
have no point, and of two equally near decimals the larger one is shown.
-/
def NumberLayout.literal : NumberLayout :=
  { tie := .up, integralMark := "", positional := none }

/--
Doubles in JSON documents: a point or an exponent is always present, and the
digits are positional from 0.00001 up to but not including 10 ^ 16.
-/
def NumberLayout.json : NumberLayout :=
  { tie := .toEven, integralMark := ".0", positional := some (-5, 16) }

def Binary64.literalText (x : Binary64) : String :=
  if x.isNaN then "NaN"
  else if x.isInfinite then (if x.isNegative then "-inf" else "inf")
  else NumberLayout.literal.finite x

/-- The text of a double in a JSON document; what is not finite becomes `null`. -/
def Binary64.jsonText (x : Binary64) : String :=
  if x.isNaN || x.isInfinite then "null"
  else NumberLayout.json.finite x

end Shapes
