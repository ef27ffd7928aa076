import Shapes.Registry.Matching

/-!
# Values of leaves

A value has one keyword and one literal at most.  Literals that are the same
type have the same values, and literals that share a value are the same type.
For numbers this is where the two notions of equality meet: identity of words up
to the sign of zero, and equality of doubles, which no word that is not a number
takes part in.
-/

namespace Shapes
namespace Binary64

theorem isNaN_notANumber : (notANumber false).isNaN = true := by
  decide +kernel

theorem isNaN_zero : (zero false).isNaN = false := by
  decide +kernel

theorem isZero_zero : (zero false).isZero = true := by
  decide +kernel

theorem isNaN_canonical (x : Binary64) : x.canonical.isNaN = x.isNaN := by
  unfold canonical
  split
  · rename_i h
    rw [h, isNaN_notANumber]
  · rename_i h
    split
    · rw [isNaN_zero]
      simpa using h
    · rfl

theorem isZero_canonical {x : Binary64} (h : x.isNaN = false) :
    x.canonical.isZero = x.isZero := by
  unfold canonical
  rw [if_neg (by simp [h])]
  split
  · rename_i hzero
    rw [hzero, isZero_zero]
  · rfl

theorem eq_of_bits_eq {x y : Binary64} (h : x.bits = y.bits) : x = y := by
  cases x
  cases y
  cases h
  rfl

theorem numEq_eq {x y : Binary64} (hx : x.isNaN = false) (hy : y.isNaN = false) :
    x.numEq y = if y.isZero then x.isZero else decide (x.bits = y.bits) := by
  unfold numEq
  rw [hx, hy]
  cases hzero : y.isZero with
  | true =>
      by_cases hbits : x.bits = y.bits
      · simp [eq_of_bits_eq hbits, hzero]
      · simp [hbits]
  | false => simp

theorem numEq_eq_of_same {x y : Binary64} (h : x.same y = true) (n : Binary64) :
    n.numEq x = n.numEq y := by
  have hcanonical : x.canonical = y.canonical := of_decide_eq_true h
  have hNaN : x.isNaN = y.isNaN := by
    rw [← isNaN_canonical x, hcanonical, isNaN_canonical]
  cases hx : x.isNaN with
  | true =>
      rw [hx] at hNaN
      simp [numEq, hx, ← hNaN]
  | false =>
      rw [hx] at hNaN
      cases hn : n.isNaN with
      | true => simp [numEq, hn]
      | false =>
          have hzero : x.isZero = y.isZero := by
            rw [← isZero_canonical hx, hcanonical, isZero_canonical hNaN.symm]
          rw [numEq_eq hn hx, numEq_eq hn hNaN.symm, hzero]
          cases hyzero : y.isZero with
          | true => rfl
          | false =>
              have hword : x = y := by
                simpa [canonical, hx, ← hNaN, hzero, hyzero] using hcanonical
              rw [hword]

theorem same_of_numEq {n x y : Binary64} (hx : n.numEq x = true) (hy : n.numEq y = true) :
    x.same y = true := by
  have hnumbers : n.isNaN = false ∧ x.isNaN = false ∧ y.isNaN = false := by
    simp only [numEq, Bool.and_eq_true, Bool.not_eq_true'] at hx hy
    exact ⟨hx.1.1, hx.1.2, hy.1.2⟩
  rcases hnumbers with ⟨hn, hxn, hyn⟩
  rw [numEq_eq hn hxn] at hx
  rw [numEq_eq hn hyn] at hy
  unfold same canonical
  cases hxzero : x.isZero with
  | true =>
      rw [hxzero] at hx
      have hnzero : n.isZero = true := hx
      cases hyzero : y.isZero with
      | true => simp [hxn, hyn]
      | false =>
          rw [hyzero] at hy
          rw [eq_of_bits_eq (of_decide_eq_true hy), hyzero] at hnzero
          cases hnzero
  | false =>
      rw [hxzero] at hx
      have hnx := eq_of_bits_eq (of_decide_eq_true hx)
      cases hyzero : y.isZero with
      | true =>
          rw [hyzero] at hy
          have hnzero : n.isZero = true := hy
          rw [hnx, hxzero] at hnzero
          cases hnzero
      | false =>
          rw [hyzero] at hy
          have hny := eq_of_bits_eq (of_decide_eq_true hy)
          simp [← hnx, ← hny]

end Binary64

theorem Literal.matches_eq_of_same {a b : Literal} (h : a.same b = true) (value : Json) :
    a.matches value = b.matches value := by
  cases a with
  | string s =>
      cases b with
      | string t => rw [show s = t by simpa [same] using h]
      | number | boolean => cases h
  | number x =>
      cases b with
      | number y =>
          cases value with
          | num n => exact Binary64.numEq_eq_of_same h n.toBinary64
          | null | bool | str | arr | obj => rfl
      | string | boolean => cases h
  | boolean p =>
      cases b with
      | boolean q => rw [show p = q by simpa [same] using h]
      | string | number => cases h

/-!
# Leaves that share a value

A value is of one kind, so the leaves that it belongs to are its keyword, its
literal and what is wider than these.
-/

/-- The keyword of a value; lists and objects have none. -/
def Json.keyword? : Json -> Option Keyword
  | null => some .null
  | bool _ => some .boolean
  | num _ => some .number
  | str _ => some .string
  | arr _ | obj _ => none

theorem Keyword.matches_iff {word : Keyword} (h : word.isTop = false) (value : Json) :
    word.matches value = true <-> value.keyword? = some word := by
  cases word <;> cases value <;> simp_all [Keyword.matches, Json.keyword?, Keyword.isTop,
    Json.str?, Json.num?, Json.bool?, Json.isNull]

theorem Keyword.matches_of_isTop {word : Keyword} (h : word.isTop = true) (value : Json) :
    word.matches value = true := by
  cases word with
  | any | unknown => rfl
  | string | number | boolean | null | undefined | never => cases h

theorem Keyword.matches_widened {literal : Literal} {value : Json}
    (h : literal.matches value = true) : literal.widened.matches value = true := by
  cases literal with
  | string s =>
      cases value with
      | str t => rfl
      | null | bool | num | arr | obj => cases h
  | number x =>
      cases value with
      | num n => rfl
      | null | bool | str | arr | obj => cases h
  | boolean p =>
      cases value with
      | bool q => rfl
      | null | num | str | arr | obj => cases h

theorem Literal.same_of_matches {a b : Literal} {value : Json} (ha : a.matches value = true)
    (hb : b.matches value = true) : a.same b = true := by
  cases value with
  | null | arr | obj => cases a <;> cases ha
  | bool v =>
      cases a with
      | boolean p =>
          cases b with
          | boolean q => simp_all [Literal.matches, Literal.same]
          | string | number => cases hb
      | string | number => cases ha
  | num n =>
      cases a with
      | number x =>
          cases b with
          | number y => exact Binary64.same_of_numEq ha hb
          | string | boolean => cases hb
      | string | boolean => cases ha
  | str v =>
      cases a with
      | string s =>
          cases b with
          | string t => simp_all [Literal.matches, Literal.same]
          | number | boolean => cases hb
      | number | boolean => cases ha

end Shapes
