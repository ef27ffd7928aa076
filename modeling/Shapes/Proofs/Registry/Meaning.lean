import Shapes.Proofs.Matching.Checker
import Shapes.Proofs.Shape.Sense

/-!
# The meaning of types in a registry

In a registry a reference stands for the shape that its declarations flatten to.
A type that flattens to a shape has the same values as the shape, although the
type is read member by member and the shape is put together by the algebra.
-/

namespace Shapes

namespace FieldType

variable {find : ShapeId -> Option Shape}

theorem mem_of_shapesFrom {types : List FieldType} {shapes : List Shape}
    (h : shapesFrom find types = some shapes) {x : Shape} :
    x ∈ shapes <-> exists t, t ∈ types ∧ t.shapeFrom find = some x := by
  induction types generalizing shapes with
  | nil =>
      cases h
      simp
  | cons t rest ih =>
      rcases shapesFrom_cons_eq_some_iff.mp h with ⟨shape, others, hshape, hothers, rfl⟩
      rw [List.mem_cons, ih hothers]
      simp [hshape, eq_comm]

theorem exists_of_shapesFrom {types : List FieldType} {shapes : List Shape}
    (h : shapesFrom find types = some shapes) :
    forall t, t ∈ types -> exists x, t.shapeFrom find = some x := by
  induction types generalizing shapes with
  | nil =>
      intro t ht
      cases ht
  | cons first rest ih =>
      rcases shapesFrom_cons_eq_some_iff.mp h with ⟨shape, others, hshape, hothers, _⟩
      intro t ht
      rcases List.mem_cons.mp ht with rfl | ht
      · exact ⟨shape, hshape⟩
      · exact ih hothers t ht

theorem every_shapeFrom {p : FieldType -> Prop} (hp : Closed p)
    (hfind : forall id u, find id = some u -> u.Every p) {t : FieldType} (ht : t.Every p)
    {s : Shape} (h : t.shapeFrom find = some s) : s.Every p := by
  induction t using memberInduction generalizing s with
  | keyword word =>
      cases h
      exact ht
  | literal value =>
      cases h
      exact ht
  | reference id => exact hfind id s h
  | union members ih =>
      rcases Option.bind_eq_some_iff.mp h with ⟨shapes, hshapes, hs⟩
      apply Shape.every_unite _ (toOption_eq_some hs)
      intro x hx
      rcases (mem_of_shapesFrom hshapes).mp hx with ⟨m, hm, hmx⟩
      exact ih m hm ((every_union_iff.mp ht).2 m hm) hmx
  | intersection members ih =>
      rcases Option.bind_eq_some_iff.mp h with ⟨shapes, hshapes, hs⟩
      apply Shape.every_intersect hp _ (toOption_eq_some hs)
      intro x hx
      rcases (mem_of_shapesFrom hshapes).mp hx with ⟨m, hm, hmx⟩
      exact ih m hm ((every_intersection_iff.mp ht).2 m hm) hmx

theorem typeHolds_iff_shapeFrom {lookup : Lookup} {value : Json}
    (hfind : forall id u, find id = some u -> forall x, lookup id x <-> x = u)
    (hfree : forall id u, find id = some u -> u.AnyFree) {t : FieldType} (ht : t.AnyFree)
    {s : Shape} (h : t.shapeFrom find = some s) :
    TypeHolds lookup t value <-> ShapeHolds lookup s value := by
  induction t using memberInduction generalizing s with
  | keyword word =>
      cases h
      rw [typeHolds_keyword, shapeHolds_keyword]
  | literal value =>
      cases h
      rw [typeHolds_literal, shapeHolds_literal]
  | reference id =>
      rw [typeHolds_reference]
      simp only [hfind id s h, exists_eq_left]
  | union members ih =>
      rcases Option.bind_eq_some_iff.mp h with ⟨shapes, hshapes, hs⟩
      rw [typeHolds_union, Shape.shapeHolds_unite (toOption_eq_some hs)]
      constructor
      · intro hfound
        rcases hfound with ⟨m, hm, hholds⟩
        rcases exists_of_shapesFrom hshapes m hm with ⟨x, hx⟩
        refine ⟨x, (mem_of_shapesFrom hshapes).mpr ⟨m, hm, hx⟩, ?_⟩
        exact (ih m hm ((every_union_iff.mp ht).2 m hm) hx).mp hholds
      · intro hfound
        rcases hfound with ⟨x, hx, hholds⟩
        rcases (mem_of_shapesFrom hshapes).mp hx with ⟨m, hm, hmx⟩
        exact ⟨m, hm, (ih m hm ((every_union_iff.mp ht).2 m hm) hmx).mpr hholds⟩
  | intersection members ih =>
      rcases Option.bind_eq_some_iff.mp h with ⟨shapes, hshapes, hs⟩
      have hshapesFree : forall x, x ∈ shapes -> x.AnyFree := by
        intro x hx
        rcases (mem_of_shapesFrom hshapes).mp hx with ⟨m, hm, hmx⟩
        exact every_shapeFrom closed_anyFree hfree ((every_intersection_iff.mp ht).2 m hm) hmx
      rw [typeHolds_intersection, Shape.shapeHolds_intersect hshapesFree (toOption_eq_some hs)]
      constructor
      · intro hall x hx
        rcases (mem_of_shapesFrom hshapes).mp hx with ⟨m, hm, hmx⟩
        exact (ih m hm ((every_intersection_iff.mp ht).2 m hm) hmx).mp (hall m hm)
      · intro hall m hm
        rcases exists_of_shapesFrom hshapes m hm with ⟨x, hx⟩
        apply (ih m hm ((every_intersection_iff.mp ht).2 m hm) hx).mpr
        exact hall x ((mem_of_shapesFrom hshapes).mpr ⟨m, hm, hx⟩)

end FieldType

/-!
# Definitions

What a definition mentions is all that its shape can mention, so a restriction
on declarations is one on everything that they flatten to.
-/

/-- All types that a definition mentions have a property. -/
structure Definition.Every (p : FieldType -> Prop) (d : Definition) : Prop where
  fields : d.fields.All (FieldType.Every p)
  body : forall body, d.body = some body -> body.Every p

theorem Definition.every_iff {p : FieldType -> Prop} {d : Definition} :
    ((forall e, e ∈ d.fields.entries -> e.2.Every p) ∧
      forall body, body ∈ d.body -> body.Every p) <-> d.Every p := by
  constructor
  · intro hboth
    rcases hboth with ⟨hfields, hbody⟩
    exact ⟨fun name t ht => hfields (name, t) ht, hbody⟩
  · intro hboth
    rcases hboth with ⟨hfields, hbody⟩
    exact ⟨fun e he => hfields e.1 e.2 he, hbody⟩

instance {p : FieldType -> Prop} [DecidablePred p] : DecidablePred (Definition.Every p) :=
  fun _ => decidable_of_iff _ Definition.every_iff

theorem Definition.every_flattened {p : FieldType -> Prop} (hp : FieldType.Closed p)
    {lookup : String -> Option ShapeId} {find : ShapeId -> Option Shape} {d : Definition}
    {s : Shape} (hd : d.Every p) (hfind : forall id u, find id = some u -> u.Every p)
    (h : d.flattened lookup find = some s) : s.Every p := by
  unfold flattened at h
  cases hkind : d.kind with
  | none =>
      rw [hkind] at h
      cases h
  | some kind =>
      cases kind with
      | mergeable =>
          rw [hkind] at h
          rcases Option.map_eq_some_iff.mp h with ⟨tables, htables, rfl⟩
          apply Table.all_inherit _ hd.fields
          intro table htable
          rcases parentFrom_of_mem htables htable with ⟨_, id, parent, _, _, hparent, hfields⟩
          have hevery := hfind id parent hparent
          cases parent with
          | object name fields =>
              cases hfields
              exact hevery
          | union | keyword | literal => cases hfields
      | single =>
          cases hbody : d.body with
          | none =>
              rw [hkind, hbody] at h
              cases h
              exact hd.fields
          | some body =>
              rw [hkind, hbody] at h
              rcases Option.map_eq_some_iff.mp h with ⟨shape, hshape, rfl⟩
              apply Shape.every_rename
              exact FieldType.every_shapeFrom hp hfind (hd.body body hbody) hshape

namespace Registry

/-- All types that the definitions of a registry mention have a property. -/
def Every (p : FieldType -> Prop) (r : Registry) : Prop :=
  forall id d, r.arena.get? id = some d -> d.Every p

theorem every_iff {p : FieldType -> Prop} {r : Registry} :
    (forall id, id ∈ r.arena.ids -> forall d, d ∈ r.arena.get? id -> d.Every p) <->
      r.Every p := by
  constructor
  · intro h id d hd
    exact h id (Arena.exists_get?_iff_mem_ids.mp ⟨d, hd⟩) d hd
  · intro h id _ d hd
    exact h id d hd

instance {p : FieldType -> Prop} [DecidablePred p] : DecidablePred (Registry.Every p) :=
  fun _ => decidable_of_iff _ every_iff

variable {r : Registry} {p : FieldType -> Prop}

theorem every_of_flattens (hp : FieldType.Closed p) (hr : r.Every p) {id : ShapeId}
    {s : Shape} (h : r.Flattens id s) : s.Every p := by
  rcases h with ⟨levels, hlevels⟩
  induction levels generalizing id s with
  | zero => cases hlevels
  | succ levels ih =>
      rcases flattenWithin_succ_eq_some_iff.mp hlevels with ⟨d, hd, hflat⟩
      exact Definition.every_flattened hp (hr id d hd) (fun _ _ hu => ih hu) hflat

theorem every_of_typeFlattens (hp : FieldType.Closed p) (hr : r.Every p) {t : FieldType}
    (ht : t.Every p) {s : Shape} (h : r.TypeFlattens t s) : s.Every p := by
  rcases h with ⟨levels, hlevels⟩
  apply FieldType.every_shapeFrom hp _ ht hlevels
  intro id u hu
  exact every_of_flattens hp hr ⟨levels, hu⟩

theorem typeHolds_iff_of_typeFlattens (hr : r.Every fun t => t ≠ .keyword .any)
    {t : FieldType} (ht : t.AnyFree) {s : Shape} (h : r.TypeFlattens t s) {value : Json} :
    TypeHolds r.Flattens t value <-> ShapeHolds r.Flattens s value := by
  rcases h with ⟨levels, hlevels⟩
  refine FieldType.typeHolds_iff_shapeFrom ?_ ?_ ht hlevels
  · intro id u hu x
    constructor
    · intro hx
      exact flattens_unique hx ⟨levels, hu⟩
    · intro heq
      subst heq
      exact ⟨levels, hu⟩
  · intro id u hu
    exact every_of_flattens FieldType.closed_anyFree hr ⟨levels, hu⟩

theorem typeHolds_of_typeMatches (hr : r.Faithful) {levels : Nat} {t : FieldType}
    {value : Json} (h : ((typeMatches levels t value).run r).1 = true) :
    TypeHolds r.Flattens t value :=
  ⟨levels, (typeMatches_decides levels t value).accepted hr h⟩

end Registry
end Shapes
