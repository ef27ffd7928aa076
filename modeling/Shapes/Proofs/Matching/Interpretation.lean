import Shapes.Proofs.FieldType.Shared
import Shapes.Proofs.Matching.Holds

/-!
# Types as sets of values

Once every reference is read as some set of values, a type is a set of values as
well, and it does not matter which shapes the references stand for.  Read like
this, the meet of two types is their intersection.  That is so for a value and for
a member that is missing, and it takes no shape to be resolved.
-/

namespace Shapes

/-- The values that references stand for. -/
abbrev Interpretation := ShapeId -> Json -> Prop

namespace FieldType

mutual

/-- A value is among those of a type, read under an interpretation. -/
def Contains (values : Interpretation) : FieldType -> Json -> Prop
  | keyword word, value => word.matches value = true
  | reference id, value => values id value
  | union members, value => SomeContains values members value
  | intersection members, value => AllContain values members value
  | literal single, value => single.matches value = true

def SomeContains (values : Interpretation) : List FieldType -> Json -> Prop
  | [], _ => False
  | t :: rest, value => Contains values t value ∨ SomeContains values rest value

def AllContain (values : Interpretation) : List FieldType -> Json -> Prop
  | [], _ => True
  | t :: rest, value => Contains values t value ∧ AllContain values rest value

end

/-- A value is among those of a type, or it is missing and the type admits that. -/
def Accepts (values : Interpretation) (t : FieldType) : Option Json -> Prop :=
  MemberFits (t.Contains values) t

section Laws

variable {values : Interpretation} {value : Json}

theorem contains_union {members : List FieldType} :
    Contains values (.union members) value <->
      exists m, m ∈ members ∧ Contains values m value := by
  rw [Contains]
  induction members with
  | nil => simp [SomeContains]
  | cons t rest ih => simp [SomeContains, ih]

theorem contains_intersection {members : List FieldType} :
    Contains values (.intersection members) value <->
      forall m, m ∈ members -> Contains values m value := by
  rw [Contains]
  induction members with
  | nil => simp [AllContain]
  | cons t rest ih => simp [AllContain, ih]

theorem typeHolds_iff_contains {find : Lookup} {t : FieldType} :
    TypeHolds find t value <->
      Contains (fun id value => exists s, find id s ∧ ShapeHolds find s value) t value := by
  induction t using memberInduction with
  | keyword word => exact typeHolds_keyword
  | reference id => exact typeHolds_reference
  | literal literal => exact typeHolds_literal
  | union members ih =>
      rw [typeHolds_union, contains_union]
      exact exists_congr fun m => and_congr_right (ih m)
  | intersection members ih =>
      rw [typeHolds_intersection, contains_intersection]
      exact forall_congr' fun m => imp_congr_right (ih m)

end Laws

theorem sense_accepts (values : Interpretation) (member : Option Json) :
    Sense fun t => Accepts values t member := by
  cases member with
  | none => exact sense_admitsUndefined
  | some value =>
      exact sense_of_matches (fun _ => Iff.rfl) (fun _ => Iff.rfl) (fun _ => contains_union)
        fun _ => contains_intersection

theorem accepts_any (values : Interpretation) (member : Option Json) :
    Accepts values (.keyword .any) member := by
  cases member <;> rfl

/-!
# Meets are intersections

A reading of references is extended to all types, and matching is the instance
in which a reference is read as the shape that it stands for.
-/

/--
The meet of two types accepts what both of them do, and nothing else if they do not
mention `any`.  Types without a meet have nothing in common.
-/
theorem meet_accepts_what_is_shared (values : Interpretation) (a b : FieldType)
    (member : Option Json) :
    (forall c, a.meet? b = some c ->
        (Accepts values a member -> Accepts values b member -> Accepts values c member) ∧
          (a.AnyFree -> b.AnyFree -> Accepts values c member ->
            Accepts values a member ∧ Accepts values b member)) ∧
      (a.meet? b = none -> ¬ (Accepts values a member ∧ Accepts values b member)) := by
  have hs := sense_accepts values member
  have hfound : Accepts values a member -> Accepts values b member ->
      Found (fun t => Accepts values t member) (a.meet? b) :=
    hs.found_meet? (accepts_any values member)
  constructor
  · intro c hc
    constructor
    · intro ha hb
      rcases hfound ha hb with ⟨t, ht, hholds⟩
      rw [hc] at ht
      cases ht
      exact hholds
    · intro hafree hbfree hholds
      have hmeet := hs.meet? hafree hbfree
      rw [hc] at hmeet
      exact hmeet.mp hholds
  · intro hnone hboth
    rcases hfound hboth.1 hboth.2 with ⟨t, ht, _⟩
    rw [hnone] at ht
    cases ht

/-- Things with a name, and things that may have a size. -/
def labels : Lookup := fun id s =>
  (id = ⟨1⟩ ∧ s = .object (some "Named") (.ofList [("name", .keyword .string)])) ∨
    id = ⟨2⟩ ∧ s = .object (some "Sized")
      (.ofList [("size", .union [.keyword .number, .keyword .undefined])])

theorem meet_accepts_what_is_shared_labels :
    exists c,
      meet? (.union [.reference ⟨1⟩, .keyword .null])
          (.union [.reference ⟨2⟩, .keyword .number]) = some c ∧
        TypeHolds labels c (.obj [("name", .str "a")]) ∧ ¬ TypeHolds labels c .null ∧
        meet? (.literal (.string "a")) (.union [.literal (.string "b"), .keyword .null]) =
          none := by
  simp only [typeHolds_iff_contains]
  have hshared := fun value => meet_accepts_what_is_shared
    (fun id value => exists s, labels id s ∧ ShapeHolds labels s value)
    (.union [.reference ⟨1⟩, .keyword .null]) (.union [.reference ⟨2⟩, .keyword .number])
    (some value)
  refine ⟨_, rfl, ?_, ?_, rfl⟩
  · apply ((hshared _).1 _ rfl).1
    · refine contains_union.mpr ⟨_, List.mem_cons_self, _, Or.inl ⟨rfl, rfl⟩, ?_⟩
      refine shapeHolds_object.mpr ⟨_, rfl, ?_⟩
      intro key t ht
      cases List.mem_singleton.mp ht
      exact typeHolds_keyword.mpr rfl
    · refine contains_union.mpr ⟨_, List.mem_cons_self, _, Or.inr ⟨rfl, rfl⟩, ?_⟩
      refine shapeHolds_object.mpr ⟨_, rfl, ?_⟩
      intro key t ht
      cases List.mem_singleton.mp ht
      rfl
  · intro hnull
    have hsized := (((hshared _).1 _ rfl).2 (by simp [AnyFree, Every, AllEvery])
      (by simp [AnyFree, Every, AllEvery]) hnull).2
    rcases contains_union.mp hsized with ⟨m, hm, hholds⟩
    simp only [List.mem_cons, List.not_mem_nil, or_false] at hm
    rcases hm with rfl | rfl
    · rcases hholds with ⟨s, ⟨hid, _⟩ | ⟨_, rfl⟩, hs⟩
      · cases hid
      · rcases shapeHolds_object.mp hs with ⟨members, hmembers, _⟩
        cases hmembers
    · cases hholds

end FieldType
end Shapes
