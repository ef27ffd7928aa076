import Shapes.Proofs.Registry.History
import Shapes.Proofs.Registry.Meaning
import Shapes.Proofs.Subtype.Rules

/-!
# Subtypes have fewer values

A type that is found to be below another has no value that the other lacks, as
long as no type admits a missing field: a field that may be missing on the right
is allowed to be missing on the left, where a value may then have anything in it.

A pair of references that is met again is assumed to hold.  This is sound since
values are finite: shapes are compared through the fields of objects, and so
the pair is met again at a smaller value only.  `Registry.Assumes` says of the
assumed pairs that they hold for all values below a size.
-/

namespace Shapes

/-!
# Plain types

A field of a plain type is never missing, which is what the comparison of
objects takes for granted.
-/

/-- Neither a type that admits a missing field nor an intersection of nothing. -/
def FieldType.isPlain : FieldType -> Bool
  | keyword .any | keyword .unknown | keyword .undefined => false
  | intersection [] => false
  | _ => true

/-- A type that mentions plain types only. -/
def FieldType.Plain : FieldType -> Prop :=
  FieldType.Every fun t => t.isPlain = true

/-- A shape that mentions plain types only. -/
def Shape.Plain : Shape -> Prop :=
  Shape.Every fun t => t.isPlain = true

/-- A registry with declarations that mention plain types only. -/
def Registry.Plain : Registry -> Prop :=
  Registry.Every fun t => t.isPlain = true

namespace FieldType

theorem closed_plain : Closed fun t => t.isPlain = true := by
  refine ⟨rfl, fun _ => rfl, ?_, ?_⟩
  · intro members hne
    cases members with
    | nil => exact absurd rfl hne
    | cons => rfl
  · intro h
    cases h

theorem ne_any_of_isPlain {t : FieldType} (h : t.isPlain = true) : t ≠ .keyword .any := by
  intro heq
  subst heq
  cases h

theorem Plain.anyFree {t : FieldType} (h : t.Plain) : t.AnyFree :=
  h.imp fun _ => ne_any_of_isPlain

theorem Plain.admitsUndefined {t : FieldType} (h : t.Plain) : t.admitsUndefined = false := by
  induction t using memberInduction with
  | keyword word =>
      have hself : (keyword word).isPlain = true := h
      cases word with
      | any | unknown | undefined => cases hself
      | string | number | boolean | null | never => rfl
  | reference | literal => rfl
  | union members ih =>
      apply Bool.eq_false_iff.mpr
      intro htrue
      rcases admitsUndefined_union.mp htrue with ⟨m, hm, hmtrue⟩
      rw [ih m hm ((every_union_iff.mp h).2 m hm)] at hmtrue
      cases hmtrue
  | intersection members ih =>
      rcases every_intersection_iff.mp h with ⟨hself, hall⟩
      cases members with
      | nil => cases hself
      | cons m rest =>
          apply Bool.eq_false_iff.mpr
          intro htrue
          have hm := admitsUndefined_intersection.mp htrue m List.mem_cons_self
          rw [ih m List.mem_cons_self (hall m List.mem_cons_self)] at hm
          cases hm

end FieldType

theorem Registry.Plain.anyFree {r : Registry} (h : r.Plain) :
    r.Every fun t => t ≠ .keyword .any := by
  intro id d hd
  have hplain := h id d hd
  constructor
  · intro name t ht
    exact (hplain.fields name t ht).imp fun _ => FieldType.ne_any_of_isPlain
  · intro body hbody
    exact (hplain.body body hbody).imp fun _ => FieldType.ne_any_of_isPlain

/-!
# Assumed pairs

A pair is assumed for values below a size, since the members of an object are
smaller than the object.
-/

theorem Json.sizeOf_lt_of_lookup {members : List (String × Json)} {key : String} {value : Json}
    (h : members.lookup key = some value) : sizeOf value < sizeOf (Json.obj members) := by
  rcases List.lookup_eq_some_iff.mp h with ⟨before, after, rfl, _⟩
  have hmem : (key, value) ∈ before ++ (key, value) :: after := by
    simp
  have hpair := List.sizeOf_lt_of_mem hmem
  simp only [Prod.mk.sizeOf_spec] at hpair
  simp only [Json.obj.sizeOf_spec]
  omega

namespace Registry

/-- The assumed pairs hold for all values below a size. -/
def Assumes (r : Registry) (pairs : Pairs) (bound : Nat) : Prop :=
  forall source target, (source, target) ∈ pairs -> forall value, sizeOf value < bound ->
    TypeHolds r.Flattens (.reference source) value ->
      TypeHolds r.Flattens (.reference target) value

theorem Assumes.mono {r : Registry} {pairs : Pairs} {bound less : Nat}
    (h : r.Assumes pairs bound) (hle : less ≤ bound) : r.Assumes pairs less := by
  intro source target hpair value hvalue
  exact h source target hpair value (Nat.lt_of_lt_of_le hvalue hle)

/-- The values of a type belong to another, given the pairs for values up to their size. -/
def TypeBelow (r : Registry) (source target : FieldType) (pairs : Pairs) : Prop :=
  r.Plain -> source.Plain -> target.Plain ->
    forall value, r.Assumes pairs (sizeOf value + 1) ->
      TypeHolds r.Flattens source value -> TypeHolds r.Flattens target value

/-- The values of a shape belong to another, given the pairs for smaller values. -/
def ShapeBelow (r : Registry) (source target : Shape) (pairs : Pairs) : Prop :=
  r.Plain -> source.Plain -> target.Plain ->
    forall value, r.Assumes pairs (sizeOf value) ->
      ShapeHolds r.Flattens source value -> ShapeHolds r.Flattens target value

/-- What a judgement says about values. -/
def ValuesBelow (r : Registry) : Judgement -> Pairs -> Prop
  | .types source target, pairs => TypeBelow r source target pairs
  | .shapes source target, pairs => ShapeBelow r source target pairs

namespace CompareM

variable {r : Registry} {pairs : Pairs}

/-!
# Types

Each rule for types passes on what its judgements say of values.
-/

theorem typeBelow_of_plainlyBelow {source target : FieldType}
    (h : plainlyBelow source target = true) : TypeBelow r source target pairs := by
  intro _ hsource htarget value _ hvalue
  unfold plainlyBelow at h
  rcases Bool.or_eq_true_iff.mp h with h | hbottom
  · rcases Bool.or_eq_true_iff.mp h with hsame | htop
    · exact (typeHolds_iff_of_same hsame).mp hvalue
    · cases target with
      | keyword word => exact typeHolds_keyword.mpr (Keyword.matches_of_isTop htop value)
      | reference | union | intersection | literal => cases htop
  · cases source with
    | keyword word =>
        cases word with
        | any => exact absurd rfl hsource.anyFree.self
        | never => cases typeHolds_keyword.mp hvalue
        | string | number | boolean | null | undefined | unknown => cases hbottom
    | reference | union | intersection | literal => cases hbottom

theorem typeBelow_of_shapes {source target : FieldType} {s t : Shape}
    (hs : r.TypeFlattens source s) (ht : r.TypeFlattens target t)
    (h : ShapeBelow r s t pairs) : TypeBelow r source target pairs := by
  intro hr hsource htarget value hassumes hvalue
  have hsplain : s.Plain := every_of_typeFlattens FieldType.closed_plain hr hsource hs
  have htplain : t.Plain := every_of_typeFlattens FieldType.closed_plain hr htarget ht
  have hsvalue := (typeHolds_iff_of_typeFlattens hr.anyFree hsource.anyFree hs).mp hvalue
  have htvalue := h hr hsplain htplain value (hassumes.mono (Nat.le_succ _)) hsvalue
  exact (typeHolds_iff_of_typeFlattens hr.anyFree htarget.anyFree ht).mpr htvalue

theorem typeBelow_of_expanded {source target : FieldType}
    (h : r.Expanded (fun k => r.ValuesBelow k pairs) source target) :
    TypeBelow r source target pairs := by
  rcases h with ⟨s, t, hs, ht, hshapes⟩
  exact typeBelow_of_shapes hs ht hshapes

theorem typeBelow_of_references {source target : ShapeId} {s t : Shape}
    (hs : r.Flattens source s) (ht : r.Flattens target t)
    (h : ShapeBelow r s t ((source, target) :: pairs)) :
    TypeBelow r (.reference source) (.reference target) pairs := by
  intro hr _ _ value
  have hsplain : s.Plain := every_of_flattens FieldType.closed_plain hr hs
  have htplain : t.Plain := every_of_flattens FieldType.closed_plain hr ht
  -- The pair is assumed for smaller values, where it holds by induction.
  induction hsize : sizeOf value using Nat.strongRecOn generalizing value with
  | ind size ih =>
      intro hassumes hvalue
      rcases typeHolds_reference.mp hvalue with ⟨x, hx, hsvalue⟩
      rw [flattens_unique hx hs] at hsvalue
      refine typeHolds_reference.mpr ⟨t, ht, h hr hsplain htplain value ?_ hsvalue⟩
      intro a b hpair w hw
      rw [hsize] at hw
      rcases List.mem_cons.mp hpair with heq | hpair
      · cases heq
        exact ih (sizeOf w) hw w rfl (hassumes.mono (Nat.succ_le_succ (Nat.le_of_lt hw)))
      · exact hassumes a b hpair w (Nat.lt_succ_of_lt hw)

theorem typeBelow_of_simpleRule {source target : FieldType}
    (h : r.SimpleRule (fun k => r.ValuesBelow k pairs) (fun k => r.ValuesBelow k pairs)
      source target) :
    TypeBelow r source target pairs := by
  unfold SimpleRule at h
  split at h
  · intro _ _ _ w _ hvalue
    rw [← h]
    exact typeHolds_keyword.mpr (Keyword.matches_widened (typeHolds_literal.mp hvalue))
  · rcases h with rfl | ⟨s, t, hs, ht, hshapes⟩
    · intro _ _ _ value _ hvalue
      exact hvalue
    · exact typeBelow_of_shapes hs ht hshapes
  · exact typeBelow_of_expanded h
  · exact typeBelow_of_expanded h
  · exact typeBelow_of_expanded h
  · cases h

theorem typeBelow_of_typeRule {source target : FieldType}
    (h : r.TypeRule (fun k => r.ValuesBelow k pairs) (fun k => r.ValuesBelow k pairs)
      source target) :
    TypeBelow r source target pairs := by
  rcases h with hplain | h
  · exact typeBelow_of_plainlyBelow hplain
  · split at h
    · intro hr hsource htarget value hassumes hvalue
      rcases typeHolds_union.mp hvalue with ⟨m, hm, hmvalue⟩
      have hmember := (FieldType.every_union_iff.mp hsource).2 m hm
      exact h m hm hr hmember htarget value hassumes hmvalue
    · intro hr hsource htarget value hassumes hvalue
      apply typeHolds_intersection.mpr
      intro m hm
      have hmember := (FieldType.every_intersection_iff.mp htarget).2 m hm
      exact h m hm hr hsource hmember value hassumes hvalue
    · rcases h with ⟨m, hm, hshown⟩ | hexpanded
      · intro hr hsource htarget value hassumes hvalue
        apply typeHolds_union.mpr
        have hmember := (FieldType.every_union_iff.mp htarget).2 m hm
        exact ⟨m, hm, hshown hr hsource hmember value hassumes hvalue⟩
      · exact typeBelow_of_expanded hexpanded
    · exact typeBelow_of_simpleRule h

/-!
# Shapes

Objects are below each other by their fields, which hold smaller values; this is
the one place where the size goes down.
-/

theorem shapeBelow_of_fields {name other : Option String} {source target : Table FieldType}
    (h : forall key t, (key, t) ∈ target.entries ->
      FieldRule (fun k => r.ValuesBelow k pairs) source key t) :
    ShapeBelow r (.object name source) (.object other target) pairs := by
  intro hr hsource htarget value hassumes hvalue
  rcases shapeHolds_object.mp hvalue with ⟨members, rfl, hmembers⟩
  refine shapeHolds_object.mpr ⟨members, rfl, ?_⟩
  intro key t ht
  have htplain : t.Plain := htarget key t ht
  have hfield := h key t ht
  unfold FieldRule at hfield
  split at hfield
  · rename_i u hu
    have hmem := Table.get?_eq_some_iff_mem.mp hu
    have huplain : u.Plain := hsource key u hmem
    have hmember := hmembers key u hmem
    cases hlookup : members.lookup key with
    | none =>
        rw [hlookup] at hmember
        have hadmits : u.admitsUndefined = true := hmember
        rw [huplain.admitsUndefined] at hadmits
        cases hadmits
    | some w =>
        rw [hlookup] at hmember
        have hsize := Json.sizeOf_lt_of_lookup hlookup
        exact hfield hr huplain htplain w (hassumes.mono hsize) hmember
  · rw [htplain.admitsUndefined] at hfield
    cases hfield

theorem shapeBelow_of_leafRule {source target : Shape}
    (h : LeafRule (fun k => r.ValuesBelow k pairs) source target) :
    ShapeBelow r source target pairs := by
  unfold LeafRule at h
  split at h
  · exact shapeBelow_of_fields h
  · intro _ _ _ value _ hvalue
    rw [← h]
    exact shapeHolds_keyword.mpr (Keyword.matches_widened (shapeHolds_literal.mp hvalue))
  · intro _ _ _ value _ hvalue
    rw [shapeHolds_literal] at hvalue ⊢
    rw [← Literal.matches_eq_of_same h]
    exact hvalue
  · intro _ _ _ value _ hvalue
    rw [← h]
    exact hvalue
  · cases h

theorem shapeBelow_of_plainlyBelowShape {source target : Shape}
    (h : plainlyBelowShape source target = true) : ShapeBelow r source target pairs := by
  intro _ hsource _ value _ hvalue
  unfold plainlyBelowShape at h
  rcases Bool.or_eq_true_iff.mp h with htop | hbottom
  · cases target with
    | keyword word => exact shapeHolds_keyword.mpr (Keyword.matches_of_isTop htop value)
    | object | union | literal => cases htop
  · cases source with
    | keyword word =>
        cases word with
        | any => cases hsource
        | never => cases shapeHolds_keyword.mp hvalue
        | string | number | boolean | null | undefined | unknown => cases hbottom
    | object | union | literal => cases hbottom

theorem shapeBelow_of_shapeRule {source target : Shape}
    (h : ShapeRule (fun k => r.ValuesBelow k pairs) source target) :
    ShapeBelow r source target pairs := by
  rcases h with hplain | h
  · exact shapeBelow_of_plainlyBelowShape hplain
  · split at h
    · intro hr hsource htarget value hassumes hvalue
      rcases shapeHolds_union.mp hvalue with ⟨m, hm, hmvalue⟩
      have hmember := Shape.every_union_iff.mp hsource m hm
      exact h m hm hr hmember htarget value hassumes hmvalue
    · rcases h with ⟨m, hm, hshown⟩
      intro hr hsource htarget value hassumes hvalue
      have hmember := Shape.every_union_iff.mp htarget m hm
      exact shapeHolds_union.mpr ⟨m, hm, hshown hr hsource hmember value hassumes hvalue⟩
    · exact shapeBelow_of_leafRule h

end CompareM

/-- Judgements say that values belong to both sides, given the pairs for smaller values. -/
theorem sound_valuesBelow (r : Registry) : r.Sound r.ValuesBelow := by
  refine ⟨?_, ?_, ?_⟩
  · intro j pairs hrule
    cases j with
    | types source target => exact CompareM.typeBelow_of_typeRule hrule
    | shapes source target => exact CompareM.shapeBelow_of_shapeRule hrule
  · intro source target pairs hpair _ _ _ value hassumes hvalue
    exact hassumes source target hpair value (Nat.lt_succ_self _) hvalue
  · intro source target s t pairs hs ht hshown
    exact CompareM.typeBelow_of_references hs ht hshown

namespace CompareM

/-!
# Whole comparisons

A positive answer shows that the values of one side belong to the other, given
the pairs that are assumed.
-/

theorem shows_isShapeBelow (r : Registry) (source target : Shape) :
    Shows r (isShapeBelow source target) (ShapeBelow r source target) :=
  shows_compareShapes_of_sound (sound_valuesBelow r) (maxFrames + 1) source target

theorem shows_isBelow (r : Registry) (source target : FieldType) :
    Shows r (isBelow source target) (TypeBelow r source target) :=
  shows_isBelow_of_sound (sound_valuesBelow r) source target

theorem shows_areEquivalent (r : Registry) (a b : FieldType) :
    Shows r (areEquivalent a b)
      fun pairs => TypeBelow r a b pairs ∧ TypeBelow r b a pairs :=
  (shows_isBelow r a b).both (shows_isBelow r b a)

end CompareM

/-!
# Comparisons in use

Between two uses no pair is assumed, so what a positive answer shows is
unconditional.
-/

open CompareM in
/--
A comparison between its uses.  It starts over any reachable registry with
whatever is left of its limits, and may be used again and again while the
registry is used as well.
-/
inductive Comparison.InUse : Comparison -> Prop where
  | idle {c : Comparison} : c.registry.Reachable -> c.trail.visiting = [] -> InUse c
  | isBelow {c : Comparison} (source target : FieldType) : InUse c ->
      InUse ((isBelow source target).run c).2
  | isShapeBelow {c : Comparison} (source target : Shape) : InUse c ->
      InUse ((isShapeBelow source target).run c).2
  | areEquivalent {c : Comparison} (a b : FieldType) : InUse c ->
      InUse ((areEquivalent a b).run c).2
  | step {c : Comparison} {r : Registry} : InUse c -> Step c.registry r ->
      InUse { c with registry := r }

namespace Comparison

/-- Nothing is assumed between two uses, and nothing that is kept is out of date. -/
structure Rests (c : Comparison) : Prop where
  visiting : c.trail.visiting = []
  faithful : c.registry.Faithful

theorem Rests.advance {c c' : Comparison} (h : c.Rests) (hadv : CompareM.Advances c c') :
    c'.Rests :=
  ⟨hadv.visiting.trans h.visiting, hadv.registry.faithful h.faithful⟩

theorem InUse.rests {c : Comparison} (h : c.InUse) : c.Rests := by
  induction h with
  | idle hr hvisiting => exact ⟨hvisiting, hr.faithful⟩
  | @isBelow c source target _ ih =>
      exact ih.advance ((CompareM.shows_isBelow c.registry source target).advances rfl)
  | @isShapeBelow c source target _ ih =>
      exact ih.advance ((CompareM.shows_isShapeBelow c.registry source target).advances rfl)
  | @areEquivalent c a b _ ih =>
      exact ih.advance ((CompareM.shows_areEquivalent c.registry a b).advances rfl)
  | step _ hstep ih => exact ⟨ih.visiting, hstep.preserves Faithful.change ih.faithful⟩

theorem Rests.over {c : Comparison} (h : c.Rests) : CompareM.Over c.registry c :=
  ⟨(Walked.refl [] c.registry).sameDeclarations, h.faithful⟩

theorem Rests.assumes {c : Comparison} (h : c.Rests) (r : Registry) (bound : Nat) :
    r.Assumes c.trail.visiting bound := by
  rw [h.visiting]
  intro source target hpair
  cases hpair

end Comparison

/--
If a comparison finds a type below another, then every value of the first is a
value of the second, as long as neither of them nor any declaration mentions a
type that admits a missing field or an intersection of nothing.
-/
theorem subtypes_have_fewer_values {c : Comparison} (hc : c.InUse) (hr : c.registry.Plain)
    {source target : FieldType} (hsource : source.Plain) (htarget : target.Plain)
    (h : ((CompareM.isBelow source target).run c).1 = true) {value : Json}
    (hvalue : TypeHolds c.registry.Flattens source value) :
    TypeHolds c.registry.Flattens target value := by
  have hrests := hc.rests
  rcases hrun : (CompareM.isBelow source target).run c with ⟨answer, c'⟩
  rw [hrun] at h
  cases h
  have hshown := (CompareM.shows_isBelow c.registry source target).sound hrests.over hrun
  exact hshown hr hsource htarget value (hrests.assumes c.registry _) hvalue

/-- Numbered links, and links that are odd and even by turns. -/
def links : Registry :=
  let r := ((declare "Link" .mergeable
    [("id", .keyword .number), ("next", .union [.reference ⟨1⟩, .keyword .null])]).run
      (empty .common)).2
  let r := ((declare "Odd" .mergeable
    [("next", .union [.reference ⟨3⟩, .keyword .null])]).run r).2
  ((declare "Even" .mergeable [("next", .union [.reference ⟨2⟩, .keyword .null])]).run r).2

theorem links_reachable : links.Reachable := by
  have hlink : Relation.ReflTransGen Step (empty .common) _ :=
    .single (.declare "Link" .mergeable
      [("id", .keyword .number), ("next", .union [.reference ⟨1⟩, .keyword .null])])
  have hodd := hlink.tail
    (.declare "Odd" .mergeable [("next", .union [.reference ⟨3⟩, .keyword .null])])
  exact ⟨.common, hodd.tail
    (.declare "Even" .mergeable [("next", .union [.reference ⟨2⟩, .keyword .null])])⟩

theorem links_plain : links.Plain := by
  unfold Registry.Plain
  decide +kernel

def linked : Json :=
  .obj [("id", .num (.integer 1)),
    ("next", .obj [("id", .num (.integer 2)), ("next", .null)])]

theorem subtypes_have_fewer_values_links :
    ((CompareM.isBelow (.reference ⟨1⟩) (.reference ⟨2⟩)).run (CompareM.start links)).1 = true ∧
      TypeHolds links.Flattens (.reference ⟨1⟩) linked ∧
      TypeHolds links.Flattens (.reference ⟨2⟩) linked := by
  have hbelow : ((CompareM.isBelow (.reference ⟨1⟩) (.reference ⟨2⟩)).run
      (CompareM.start links)).1 = true := by
    decide +kernel
  have hmatch : ((typeMatches 10 (.reference ⟨1⟩) linked).run links).1 = true := by
    decide +kernel
  have hlinked := typeHolds_of_typeMatches links_reachable.faithful hmatch
  refine ⟨hbelow, hlinked, ?_⟩
  refine subtypes_have_fewer_values (c := CompareM.start links) ?_ links_plain ?_ ?_ hbelow hlinked
  · exact .idle links_reachable rfl
  · exact rfl
  · exact rfl

end Registry
end Shapes
