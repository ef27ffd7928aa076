import Mathlib.Logic.Relation
import Shapes.Proofs.Matching.Standing

/-!
# Identical types and shapes

Identity compares the members of unions and intersections as sets, and the fields of
objects by their names, at every depth.  It is an equivalence that is coarser than equality
as written, and it is fine enough for matching: identical types and shapes have the same
values, seen with any number of levels and whatever references stand for.

A check follows members in the order in which they are written, and shapes are kept on
the way.  So identical types may be told apart by a reference that resolves only after
another one.
-/

namespace Shapes
namespace FieldType

theorem sameMembers_of_equalLists {as bs : List FieldType} (h : equalLists as bs = true)
    (hsame : forall a, a ∈ as -> forall {b}, a.equal b = true -> a.same b = true) :
    SameMembers as bs := by
  induction as generalizing bs with
  | nil =>
      cases bs with
      | nil => simp [SameMembers]
      | cons b rest => cases h
  | cons a rest ih =>
      cases bs with
      | nil => cases h
      | cons b others =>
          rw [equalLists, Bool.and_eq_true] at h
          have hfirst := hsame a List.mem_cons_self h.1
          rcases ih h.2 fun c hc => hsame c (List.mem_cons_of_mem a hc) with ⟨hforth, hback⟩
          constructor
          · intro c hc
            cases List.mem_cons.mp hc with
            | inl heq => exact ⟨b, List.mem_cons_self, heq ▸ hfirst⟩
            | inr hmem =>
                rcases hforth c hmem with ⟨d, hd, hcd⟩
                exact ⟨d, List.mem_cons_of_mem b hd, hcd⟩
          · intro d hd
            cases List.mem_cons.mp hd with
            | inl heq => exact ⟨a, List.mem_cons_self, heq ▸ hfirst⟩
            | inr hmem =>
                rcases hback d hmem with ⟨c, hc, hcd⟩
                exact ⟨c, List.mem_cons_of_mem a hc, hcd⟩

theorem same_of_equal {t u : FieldType} (h : t.equal u = true) : t.same u = true := by
  induction t using memberInduction generalizing u with
  | keyword word =>
      cases u with
      | keyword other => exact h
      | reference | union | intersection | literal => cases h
  | reference id =>
      cases u with
      | reference other => exact h
      | keyword | union | intersection | literal => cases h
  | union members ih =>
      cases u with
      | union others => exact same_union_iff.mpr (sameMembers_of_equalLists h ih)
      | keyword | reference | intersection | literal => cases h
  | intersection members ih =>
      cases u with
      | intersection others => exact same_intersection_iff.mpr (sameMembers_of_equalLists h ih)
      | keyword | reference | union | literal => cases h
  | literal value =>
      cases u with
      | literal other => exact h
      | keyword | reference | union | intersection => cases h

theorem same_equivalence : Equivalence fun t u : FieldType => t.same u = true :=
  ⟨same_refl, same_symm, same_trans⟩

end FieldType

namespace Shape

theorem same_equivalence : Equivalence fun s t : Shape => s.same t = true :=
  ⟨same_refl, same_symm, same_trans⟩

variable {find : Lookup} {levels : Nat} {value : Json}

theorem memberFits_iff_of_same {t u : FieldType} (h : t.same u = true) (member : Option Json) :
    MemberFits (TypeFits find levels t) t member <->
      MemberFits (TypeFits find levels u) u member := by
  cases member with
  | none => exact FieldType.admitsUndefined_iff_of_same h
  | some value => exact typeFits_iff_of_same h

theorem shapeFits_iff_of_same {s t : Shape} (h : s.same t = true) :
    ShapeFits find levels s value <-> ShapeFits find levels t value := by
  induction s using memberInduction generalizing t levels with
  | object name fields =>
      cases t with
      | object other others =>
          cases levels with
          | zero => simp only [ShapeFits]
          | succ levels =>
              rcases sameFields_cases h with ⟨hforth, hback⟩
              rw [ShapeFits.eq_def, ShapeFits.eq_def]
              constructor
              · intro hfits
                rcases hfits with ⟨members, hvalue, hmembers⟩
                refine ⟨members, hvalue, ?_⟩
                intro key u hu
                rcases hback key u hu with ⟨t, ht, hsame⟩
                exact (memberFits_iff_of_same hsame _).mp (hmembers key t ht)
              · intro hfits
                rcases hfits with ⟨members, hvalue, hmembers⟩
                refine ⟨members, hvalue, ?_⟩
                intro key t ht
                rcases hforth key t ht with ⟨u, hu, hsame⟩
                exact (memberFits_iff_of_same hsame _).mpr (hmembers key u hu)
      | union | keyword | literal => cases h
  | union name members ih =>
      cases t with
      | union other others =>
          cases levels with
          | zero => simp only [ShapeFits]
          | succ levels =>
              rcases same_union_iff.mp h with ⟨hforth, hback⟩
              rw [ShapeFits.eq_def, ShapeFits.eq_def]
              constructor
              · intro hfits
                rcases hfits with ⟨a, ha, hfits⟩
                rcases hforth a ha with ⟨b, hb, hab⟩
                exact ⟨b, hb, (ih a ha hab).mp hfits⟩
              · intro hfits
                rcases hfits with ⟨b, hb, hfits⟩
                rcases hback b hb with ⟨a, ha, hab⟩
                exact ⟨a, ha, (ih a ha hab).mpr hfits⟩
      | object | keyword | literal => cases h
  | keyword word =>
      cases t with
      | keyword other => rw [show word = other by simpa [same] using h]
      | object | union | literal => cases h
  | literal a =>
      cases t with
      | literal b =>
          cases levels with
          | zero => simp only [ShapeFits]
          | succ levels =>
              rw [ShapeFits.eq_def, ShapeFits.eq_def]
              simp only [Literal.matches_eq_of_same h value]
      | object | union | keyword => cases h

end Shape

namespace Registry

/--
Identity is an equivalence, of types as well as of objects, unions and all shapes, and it
goes with the values.  Identical types admit a missing member alike; they and identical
shapes fit the same values, and so say the checks where references resolve.  In any case
what is accepted for one of them stands for the other.
-/
theorem identity_goes_with_values :
    (Equivalence fun t u : FieldType => t.same u = true) ∧
      (Equivalence fun a b : Option String × Table FieldType =>
        (Shape.object a.1 a.2).same (.object b.1 b.2) = true) ∧
      (Equivalence fun a b : Option String × List Shape =>
        (Shape.union a.1 a.2).same (.union b.1 b.2) = true) ∧
      (Equivalence fun s t : Shape => s.same t = true) ∧
      (forall t u : FieldType, t.equal u = true -> t.same u = true) ∧
      (forall t u : FieldType, t.same u = true ->
        t.admitsUndefined = u.admitsUndefined ∧
          (forall find levels value,
            TypeFits find levels t value <-> TypeFits find levels u value) ∧
          forall r : Registry, r.Reachable -> forall value,
            (forall r', (matchesType t value).run r = (true, r') ->
              Stands r r' (matchesType u value)) ∧
            ((forall id, r.Resolves (.reference id)) ->
              ((matchesType t value).run r).1 = ((matchesType u value).run r).1)) ∧
      forall s t : Shape, s.same t = true ->
        (forall find levels value,
          ShapeFits find levels s value <-> ShapeFits find levels t value) ∧
        forall r : Registry, r.Reachable -> forall value,
          (forall r', (matchesShape s value).run r = (true, r') ->
            Stands r r' (matchesShape t value)) ∧
          ((forall id, r.Resolves (.reference id)) ->
            ((matchesShape s value).run r).1 = ((matchesShape t value).run r).1) := by
  refine ⟨FieldType.same_equivalence, Shape.same_equivalence.comap _,
    Shape.same_equivalence.comap _, Shape.same_equivalence, ?_, ?_, ?_⟩
  · intro t u h
    exact FieldType.same_of_equal h
  · intro t u h
    have hfits : forall find levels value,
        TypeFits find levels t value <-> TypeFits find levels u value :=
      fun _ _ _ => typeFits_iff_of_same h
    refine ⟨Bool.eq_iff_iff.mpr (FieldType.admitsUndefined_iff_of_same h), hfits, ?_⟩
    intro r hr value
    constructor
    · intro r' hrun
      have haccepted := (typeMatches_decides _ t value).sound hrun
      exact typeMatches_stands hr.faithful ((hfits _ _ _).mp haccepted)
    · intro hresolves
      apply Bool.eq_iff_iff.mpr
      exact (typeMatches_iff hr.faithful hresolves).trans
        ((hfits _ _ _).trans (typeMatches_iff hr.faithful hresolves).symm)
  · intro s t h
    have hfits : forall find levels value,
        ShapeFits find levels s value <-> ShapeFits find levels t value :=
      fun _ _ _ => Shape.shapeFits_iff_of_same h
    refine ⟨hfits, ?_⟩
    intro r hr value
    constructor
    · intro r' hrun
      have haccepted := (shapeMatches_decides _ s value).sound hrun
      exact shapeMatches_stands hr.faithful ((hfits _ _ _).mp haccepted)
    · intro hresolves
      apply Bool.eq_iff_iff.mpr
      exact (shapeMatches_iff hr.faithful hresolves).trans
        ((hfits _ _ _).trans (shapeMatches_iff hr.faithful hresolves).symm)

/-- A list or nothing, and the same in another order and with a repetition. -/
theorem identity_goes_with_values_rows :
    (FieldType.union [.reference ⟨1⟩, .keyword .null]).same
        (.union [.keyword .null, .reference ⟨1⟩, .keyword .null]) = true ∧
      ((matchesType (.union [.keyword .null, .reference ⟨1⟩, .keyword .null]) (row 2)).run
        rows).1 = true := by
  have hsame : (FieldType.union [.reference ⟨1⟩, .keyword .null]).same
      (.union [.keyword .null, .reference ⟨1⟩, .keyword .null]) = true := by
    decide
  rcases identity_goes_with_values with ⟨_, _, _, _, _, htypes, _⟩
  have hchecks := ((htypes _ _ hsame).2.2 rows rows_reachable (row 2)).2
  refine ⟨hsame, ?_⟩
  rw [← hchecks fun id =>
    resolves_of_small rows_reachable.faithful (by decide +kernel) (.reference id)]
  decide +kernel

/-!
# Members in another order

A check follows members in the order in which they are written, and keeps shapes
on the way.
-/

/-- The last rung of a ladder and then the one below it. -/
def downward : FieldType :=
  .intersection [.reference ⟨257⟩, .reference ⟨256⟩]

def upward : FieldType :=
  .intersection [.reference ⟨256⟩, .reference ⟨257⟩]

theorem order_may_tell_identical_types_apart :
    downward.same upward = true ∧ Ladder.high.Reachable ∧
      ((matchesType downward Ladder.one).run Ladder.high).1 = false ∧
      ((matchesType upward Ladder.one).run Ladder.high).1 = true := by
  refine ⟨by decide, ladder_reachable 257, ?_, ?_⟩
  · exact typeMatches_intersection_failed (typeMatches_reference_failed Ladder.last_fails)
  · rcases Ladder.last_after_next with ⟨r1, r2, hnext, hlast⟩
    have hlow : (typeMatches 128 (.reference ⟨256⟩) Ladder.one).run Ladder.high = (true, r1) :=
      run_typeMatches_reference hnext
    have hhigh : (typeMatches 128 (.reference ⟨257⟩) Ladder.one).run r1 = (true, r2) :=
      run_typeMatches_reference hlast
    show ((typeMatches (128 + 1) upward Ladder.one).run Ladder.high).1 = true
    rw [upward, run_typeMatches_intersection hlow, run_typeMatches_intersection hhigh]
    rfl

end Registry
end Shapes
