import Shapes.Proofs.Registry.History
import Shapes.Proofs.Registry.Meaning
import Shapes.Proofs.Shape.Normal

/-!
# Resolved shapes are canonical

Declarations may write unions as they like: nested, of one member, or with members that
repeat.  What they flatten to has neither, whatever the registry.  So every shape that a
reachable registry keeps, and every shape that it is asked for, is in canonical form.
-/

namespace Shapes

theorem FieldType.canonical_shapeFrom {find : ShapeId -> Option Shape}
    (hfind : forall id u, find id = some u -> u.Canonical) {t : FieldType} {s : Shape}
    (h : t.shapeFrom find = some s) : s.Canonical := by
  induction t using memberInduction generalizing s with
  | keyword word =>
      cases h
      trivial
  | literal value =>
      cases h
      trivial
  | reference id => exact hfind id s h
  | union members ih =>
      rcases Option.bind_eq_some_iff.mp h with ⟨shapes, hshapes, hs⟩
      apply Shape.canonical_unite _ (toOption_eq_some hs)
      intro x hx
      rcases (mem_of_shapesFrom hshapes).mp hx with ⟨m, hm, hmx⟩
      exact ih m hm hmx
  | intersection members ih =>
      rcases Option.bind_eq_some_iff.mp h with ⟨shapes, hshapes, hs⟩
      apply Shape.stable_canonical.intersect _ (toOption_eq_some hs)
      intro x hx
      rcases (mem_of_shapesFrom hshapes).mp hx with ⟨m, hm, hmx⟩
      exact ih m hm hmx

theorem Definition.canonical_flattened {lookup : String -> Option ShapeId}
    {find : ShapeId -> Option Shape} {d : Definition} {s : Shape}
    (hfind : forall id u, find id = some u -> u.Canonical)
    (h : d.flattened lookup find = some s) : s.Canonical := by
  unfold flattened at h
  split at h
  · cases h
  · rcases Option.map_eq_some_iff.mp h with ⟨parents, _, rfl⟩
    exact Table.distinct _
  · rcases Option.map_eq_some_iff.mp h with ⟨shape, hshape, rfl⟩
    exact Shape.canonical_rename (FieldType.canonical_shapeFrom hfind hshape) d.name
  · cases h
    exact d.fields.distinct

namespace Registry

variable {r : Registry}

theorem canonical_of_flattens {id : ShapeId} {s : Shape} (h : r.Flattens id s) :
    s.Canonical := by
  rcases h with ⟨levels, hlevels⟩
  induction levels generalizing id s with
  | zero => cases hlevels
  | succ levels ih =>
      rcases flattenWithin_succ_eq_some_iff.mp hlevels with ⟨d, _, hflat⟩
      exact Definition.canonical_flattened (fun _ _ hu => ih hu) hflat

theorem canonical_of_typeFlattens {t : FieldType} {s : Shape} (h : r.TypeFlattens t s) :
    s.Canonical := by
  rcases h with ⟨levels, hlevels⟩
  exact FieldType.canonical_shapeFrom (fun _ _ hu => canonical_of_flattens ⟨levels, hu⟩) hlevels

theorem canonical_of_resolve (hr : r.Faithful) {id : ShapeId} {s : Shape} {r' : Registry}
    (h : (resolve id).run r = (.ok s, r')) : s.Canonical := by
  rcases resolve_walked h with ⟨hwalk, hkept⟩
  exact canonical_of_flattens ((hwalk.faithful hr).flattens hkept)

/--
In every reachable registry, a kept shape and a shape that a name or a type resolves to
are canonical: their unions have two members at least, which are no unions and not
identical, and their objects have distinct names.
-/
theorem resolved_shapes_are_canonical (hr : r.Reachable) :
    (forall id s, r.arena.cached? id = some s -> s.Canonical) ∧
      (forall id s r', (resolve id).run r = (.ok s, r') -> s.Canonical) ∧
      (forall id s r', (freeze id).run r = (.ok s, r') -> s.Canonical) ∧
      forall t s r', (resolveType t).run r = (.ok s, r') -> s.Canonical := by
  have hfaithful := hr.faithful
  refine ⟨?_, ?_, ?_, ?_⟩
  · intro id s hs
    exact canonical_of_flattens (hfaithful.flattens hs)
  · intro id s r' hresolve
    exact canonical_of_resolve hfaithful hresolve
  · intro id s r' hfreeze
    have hresolve : ((resolve id).run r).1 = .ok s := by
      rw [← run_freeze_fst, hfreeze]
    exact canonical_of_resolve hfaithful (Prod.ext hresolve rfl)
  · intro t s r' hresolve
    exact canonical_of_typeFlattens (typeFlattens_of_resolveType hfaithful hresolve)

def crowded : FieldType :=
  .union [.union [.reference ⟨3⟩], .reference ⟨1⟩,
    .union [.intersection [.reference ⟨2⟩], .union [.keyword .null, .keyword .null]]]

theorem resolved_shapes_are_canonical_points :
    points.Reachable ∧ exists s r', (resolveType crowded).run points = (.ok s, r') ∧
      s.unionParts.length = 3 ∧ s.Canonical := by
  have hparts : (((resolveType crowded).run points).1.toOption.map
      fun s => s.unionParts.length) = some 3 := by
    decide +kernel
  rcases hrun : (resolveType crowded).run points with ⟨result, r'⟩
  rw [hrun] at hparts
  rcases Option.map_eq_some_iff.mp hparts with ⟨s, hs, hthree⟩
  cases toOption_eq_some hs
  have hcanonical := (resolved_shapes_are_canonical points_reachable).2.2.2 crowded s r' hrun
  exact ⟨points_reachable, s, r', rfl, hthree, hcanonical⟩

end Registry
end Shapes
