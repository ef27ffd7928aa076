import Shapes.Proofs.FieldType.Shared
import Shapes.Proofs.Shape.Sense

/-!
# What shapes share

The union and the intersection of shapes are those of their values.  An
intersection that fails says something about values as well, as long as no union
takes part: then no value belongs to all operands.  With a union the failure of
one branch is enough, whatever the other branches share.

The last is shown by going on with a value that belongs to all operands: at each
step there is a shape that it belongs to.
-/

namespace Shapes

namespace FieldType

theorem memberHolds_any (find : Lookup) (member : Option Json) :
    MemberHolds find (.keyword .any) member := by
  cases member with
  | none => rfl
  | some value => exact typeHolds_keyword.mpr rfl

end FieldType

namespace Shape

variable {find : Lookup} {value : Json}

/-- A shape that is not a union is found, and the value belongs to it. -/
def Shared (find : Lookup) (value : Json) : Except Failure Shape -> Prop :=
  Ends (fun s => s.Single ∧ ShapeHolds find s value) fun _ => False

/-!
# Objects

A value with the fields of two objects has the types of both for every field, so
these types meet.
-/

theorem ends_meetField {fields : Table FieldType} {key : String} {t : FieldType}
    {members : List (String × Json)} (hfields : FieldsHold find fields members)
    (ht : MemberHolds find t (members.lookup key)) :
    Ends (fun fields' => FieldsHold find fields' members) (fun _ => False)
      (meetField fields (key, t)) := by
  unfold meetField
  cases hpresent : fields.get? key with
  | none =>
      dsimp only
      exact fieldsHold_insert.mpr ⟨ht, (fieldsHold_iff_others hpresent).mp hfields⟩
  | some present =>
      rcases (fieldsHold_iff_both hpresent).mp hfields with ⟨hheld, hothers⟩
      rcases (FieldType.sense_memberHolds find (members.lookup key)).found_meet?
        (FieldType.memberHolds_any find _) hheld ht with ⟨u, hmeet, hu⟩
      simp only [hmeet]
      exact fieldsHold_insert.mpr ⟨hu, hothers⟩

theorem shared_mergeFields {a b : Table FieldType} {name other : Option String}
    (ha : ShapeHolds find (.object name a) value) (hb : ShapeHolds find (.object other b) value) :
    Shared find value (mergeFields a b) := by
  rcases shapeHolds_object.mp ha with ⟨members, rfl, hma⟩
  rcases shapeHolds_object.mp hb with ⟨others, heq, hmb⟩
  cases heq
  have hfields : Ends (fun fields => FieldsHold find fields members) (fun _ => False)
      (b.entries.foldlM meetField a) := by
    apply ends_foldlM _ hma
    intro e he fields hheld
    exact ends_meetField hheld (hmb e.1 e.2 he)
  apply hfields.bind
  intro fields hheld
  exact ⟨by simp [Single], shapeHolds_object.mpr ⟨members, rfl, hheld⟩⟩

/-!
# Leaves

A value that belongs to two leaves belongs to their meet, which exists.
-/

theorem top_of_shapeHolds_object {s : Shape} {t : FieldType} {name : Option String}
    {fields : Table FieldType} (ht : s.leaf? = some t) (hs : ShapeHolds find s value)
    (hobject : ShapeHolds find (.object name fields) value) :
    s = .keyword .any ∨ s = .keyword .unknown := by
  rcases shapeHolds_object.mp hobject with ⟨members, rfl, _⟩
  cases s with
  | keyword word =>
      have hmatches := shapeHolds_keyword.mp hs
      cases word with
      | any => exact Or.inl rfl
      | unknown => exact Or.inr rfl
      | string | number | boolean | null | undefined | never => cases hmatches
  | literal single =>
      have hmatches := shapeHolds_literal.mp hs
      cases single <;> cases hmatches
  | object | union => cases ht

theorem shared_meetLeaves {a b : Shape} {t u : FieldType} (ht : a.leaf? = some t)
    (hu : b.leaf? = some u) (ha : ShapeHolds find a value) (hb : ShapeHolds find b value) :
    Shared find value (meetLeaves a b) := by
  have htleaf := isLeaf_of_leaf? ht
  have huleaf := isLeaf_of_leaf? hu
  rw [shapeHolds_leaf? ht] at ha
  rw [shapeHolds_leaf? hu] at hb
  rcases (FieldType.sense_typeHolds find value).found_meet? (typeHolds_keyword.mpr rfl) ha hb with
    ⟨c, hmeet, hc⟩
  have hleaf : c.isLeaf = true := by
    rw [FieldType.meet?_of_isLeaf htleaf huleaf] at hmeet
    rcases FieldType.leafMeet?_mem hmeet with rfl | rfl
    · exact htleaf
    · exact huleaf
  simp only [meetLeaves, ht, hu, hmeet, Option.bind_some]
  cases c with
  | keyword word => exact ⟨by simp [Single], (shapeHolds_ofLeaf? rfl).mpr hc⟩
  | literal single => exact ⟨by simp [Single], (shapeHolds_ofLeaf? rfl).mpr hc⟩
  | reference | union | intersection => cases hleaf

/-!
# Intersections

One shape after the other is intersected with what has been found, and the value
belongs to it every time.
-/

theorem shared_intersectSimple {a b : Shape} (hasingle : a.Single) (hbsingle : b.Single)
    (ha : ShapeHolds find a value) (hb : ShapeHolds find b value) :
    Shared find value (intersectSimple a b) := by
  unfold intersectSimple
  split
  · exact ⟨hbsingle, hb⟩
  · exact ⟨hasingle, ha⟩
  · exact ⟨hasingle, ha⟩
  · exact ⟨hbsingle, hb⟩
  · exact shared_mergeFields ha hb
  · rename_i hunknownLeft hunknownRight hanyRight hanyLeft hobjects
    rcases hasingle.cases with ⟨name, fields, rfl⟩ | ⟨t, ht⟩
    · rcases hbsingle.cases with ⟨other, others, rfl⟩ | ⟨u, hu⟩
      · exact absurd rfl (hobjects _ _ _ _ rfl)
      · rcases top_of_shapeHolds_object hu hb ha with rfl | rfl
        · exact absurd rfl (hanyRight _ _ rfl)
        · exact absurd rfl hunknownRight
    · rcases hbsingle.cases with ⟨other, others, rfl⟩ | ⟨u, hu⟩
      · rcases top_of_shapeHolds_object ht ha hb with rfl | rfl
        · exact absurd rfl (hanyLeft _ _ rfl)
        · exact absurd rfl hunknownLeft
      · exact shared_meetLeaves ht hu ha hb

theorem shared_intersect {shapes : List Shape} (hsome : shapes ≠ [])
    (hsingle : forall s, s ∈ shapes -> s.Single)
    (hholds : forall s, s ∈ shapes -> ShapeHolds find s value) :
    Shared find value (intersect shapes) := by
  cases shapes with
  | nil => exact absurd rfl hsome
  | cons first rest =>
      rw [List.forall_mem_cons] at hsingle hholds
      apply ends_foldlM _ ⟨hsingle.1, hholds.1⟩
      intro next hnext s hs
      have hnextSingle := hsingle.2 next hnext
      rw [intersectPair_of_ne_union hs.1 hnextSingle]
      exact shared_intersectSimple hs.1 hnextSingle hs.2 (hholds.2 next hnext)

/-!
# The algebra and its values

The laws are stated for lists of shapes and for every reading of references.
-/

/--
A union has the values of its operands, and an intersection those that all of them
have, if they do not mention `any`.  If an intersection without unions fails, its
operands have no value in common.
-/
theorem algebra_follows_the_values (find : Lookup) (shapes : List Shape) :
    (forall s, unite shapes = .ok s -> forall value,
        ShapeHolds find s value <-> exists x, x ∈ shapes ∧ ShapeHolds find x value) ∧
      ((forall x, x ∈ shapes -> x.AnyFree) -> forall s, intersect shapes = .ok s ->
        forall value, ShapeHolds find s value <-> forall x, x ∈ shapes -> ShapeHolds find x value) ∧
      ((forall x, x ∈ shapes -> x.Single) ->
        forall key, intersect shapes = .error (.incompatible key) ->
          forall value, ¬ forall x, x ∈ shapes -> ShapeHolds find x value) := by
  refine ⟨fun s hs value => shapeHolds_unite hs,
    fun hfree s hs value => shapeHolds_intersect hfree hs, ?_⟩
  intro hsingle key hfails value hall
  have hsome : shapes ≠ [] := by
    rintro rfl
    cases hfails
  have hshared := shared_intersect hsome hsingle hall
  rw [hfails] at hshared
  exact hshared

def circle : Shape :=
  .object (some "Circle") (.ofList [("kind", .literal (.string "circle"))])

def square : Shape :=
  .object (some "Square") (.ofList [("kind", .literal (.string "square"))])

def sized : Shape :=
  .object none
    (.ofList [("kind", .keyword .string), ("size", .union [.keyword .number, .keyword .undefined])])

theorem algebra_follows_the_values_figures :
    exists figure both, unite [circle, square] = .ok figure ∧
      intersect [figure, sized] = .ok both ∧
      ShapeHolds (fun _ _ => False) both (.obj [("kind", .str "circle")]) ∧
      intersect [circle, square] = .error (.incompatible (some "kind")) ∧
      forall value, ¬ forall x, x ∈ [circle, square] -> ShapeHolds (fun _ _ => False) x value := by
  have hfails : intersect [circle, square] = .error (.incompatible (some "kind")) := rfl
  have hcircle : ShapeHolds (fun _ _ => False) circle (.obj [("kind", .str "circle")]) := by
    refine shapeHolds_object.mpr ⟨_, rfl, ?_⟩
    intro key t ht
    cases List.mem_singleton.mp ht
    exact typeHolds_literal.mpr rfl
  have hsized : ShapeHolds (fun _ _ => False) sized (.obj [("kind", .str "circle")]) := by
    refine shapeHolds_object.mpr ⟨_, rfl, ?_⟩
    intro key t ht
    rcases List.mem_cons.mp ht with hkind | ht
    · cases hkind
      exact typeHolds_keyword.mpr rfl
    · cases List.mem_singleton.mp ht
      rfl
  have hfree : forall x, x ∈ [.union none [circle, square], sized] -> x.AnyFree := by
    have hfigures : (union none [circle, square]).AnyFree := by
      refine ⟨?_, ?_, trivial⟩
      · intro key t ht
        cases List.mem_singleton.mp ht
        simp [FieldType.Every]
      · intro key t ht
        cases List.mem_singleton.mp ht
        simp [FieldType.Every]
    have hsizes : sized.AnyFree := by
      intro key t ht
      rcases List.mem_cons.mp ht with hkind | ht
      · cases hkind
        simp [FieldType.Every]
      · cases List.mem_singleton.mp ht
        simp [FieldType.Every, FieldType.AllEvery]
    simp [hfigures, hsizes]
  refine ⟨_, _, rfl, rfl, ?_, hfails, ?_⟩
  · apply ((algebra_follows_the_values _
      [.union none [circle, square], sized]).2.1 hfree _ rfl _).mpr
    simp only [List.forall_mem_cons]
    exact ⟨((algebra_follows_the_values _ [circle, square]).1 _ rfl _).mpr
      ⟨circle, List.mem_cons_self, hcircle⟩, hsized, by simp⟩
  · apply (algebra_follows_the_values _ [circle, square]).2.2 _ _ hfails
    simp [circle, square, Single]

end Shape
end Shapes
