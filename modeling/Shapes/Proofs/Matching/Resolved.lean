import Shapes.Proofs.Registry.History
import Shapes.Proofs.Registry.Meaning

/-!
# Resolving a type keeps its values

A type is read member by member, and the shape that it resolves to is put
together by the algebra of shapes.  Both have the same values, whether references
stand for what their declarations flatten to or for what the registry resolves
them to, with all its limits.  In particular the written body of a name and its
resolved shape have the same values.
-/

namespace Shapes

namespace Registry

/-- References stand for the shapes that a registry resolves them to. -/
def resolves (r : Registry) : Lookup :=
  fun id s => ((resolve id).run r).1 = .ok s

theorem resolves_iff_of_cached? {r : Registry} {id : ShapeId} {s : Shape}
    (h : r.arena.cached? id = some s) (x : Shape) : r.resolves id x <-> x = s := by
  unfold resolves
  rw [resolve_of_kept h]
  constructor
  · intro heq
    cases heq
    rfl
  · intro heq
    rw [heq]

variable {r r' : Registry} {t : FieldType} {s : Shape} {value : Json}

theorem typeHolds_iff_of_resolveType (hr : r.Faithful)
    (hfree : r.Every fun t => t ≠ .keyword .any) (ht : t.AnyFree)
    (h : (resolveType t).run r = (.ok s, r')) :
    TypeHolds r'.resolves t value <-> ShapeHolds r'.resolves s value := by
  rcases resolveType_walked h with ⟨hwalk, hfrom⟩
  refine FieldType.typeHolds_iff_shapeFrom ?_ ?_ ht hfrom
  · intro id u hu
    exact resolves_iff_of_cached? hu
  · intro id u hu
    apply every_of_flattens FieldType.closed_anyFree hfree
    exact hwalk.sameDeclarations.flattens_iff.mp ((hwalk.faithful hr).flattens hu)

theorem shapeHolds_rename {find : Lookup} {name : String} :
    ShapeHolds find (s.rename name) value <-> ShapeHolds find s value := by
  cases s with
  | object => simp only [Shape.rename, shapeHolds_object]
  | union => simp only [Shape.rename, shapeHolds_union]
  | keyword | literal => exact Iff.rfl

theorem typeFlattens_body {id : ShapeId} {d : Definition} {body : FieldType}
    (hd : r.arena.get? id = some d) (hkind : d.kind = some .single) (hbody : d.body = some body)
    (h : r.Flattens id s) : exists shape, r.TypeFlattens body shape ∧ s = shape.rename d.name := by
  rcases h with ⟨levels, hlevels⟩
  rcases flattenWithin_succ_eq_some_iff.mp (flattenWithin_succ hlevels) with ⟨e, he, hflat⟩
  rw [hd] at he
  cases he
  simp only [Definition.flattened, hkind, hbody] at hflat
  rcases Option.map_eq_some_iff.mp hflat with ⟨shape, hshape, hrename⟩
  exact ⟨shape, ⟨levels, hshape⟩, hrename.symm⟩

theorem typeHolds_body_iff (hfree : r.Every fun t => t ≠ .keyword .any) {id : ShapeId}
    {d : Definition} {body : FieldType} (hd : r.arena.get? id = some d)
    (hkind : d.kind = some .single) (hbody : d.body = some body) (h : r.Flattens id s) :
    TypeHolds r.Flattens body value <-> ShapeHolds r.Flattens s value := by
  rcases typeFlattens_body hd hkind hbody h with ⟨shape, hshape, rfl⟩
  rw [shapeHolds_rename]
  exact typeHolds_iff_of_typeFlattens hfree ((hfree id d hd).body body hbody) hshape

/--
A type has the values of the shape that it resolves to, if neither the type nor
any declaration mentions `any`.
-/
theorem resolved_type_has_same_values (hr : r.Reachable)
    (hfree : r.Every fun t => t ≠ .keyword .any) (ht : t.AnyFree)
    (h : (resolveType t).run r = (.ok s, r')) (value : Json) :
    (TypeHolds r.Flattens t value <-> ShapeHolds r.Flattens s value) ∧
      (TypeHolds r'.resolves t value <-> ShapeHolds r'.resolves s value) ∧
      forall id d body, t = .reference id -> r.arena.get? id = some d ->
        d.kind = some .single -> d.body = some body ->
          (TypeHolds r.Flattens body value <-> ShapeHolds r.Flattens s value) := by
  have hflat := typeFlattens_of_resolveType hr.faithful h
  refine ⟨typeHolds_iff_of_typeFlattens hfree ht hflat,
    typeHolds_iff_of_resolveType hr.faithful hfree ht h, ?_⟩
  intro id d body hreference hd hkind hbody
  subst hreference
  exact typeHolds_body_iff hfree hd hkind hbody hflat

def tags : Registry :=
  let r := ((declare "Round" .mergeable
    [("kind", .literal (.string "round")), ("next", .reference ⟨4⟩)]).run (empty .common)).2
  let r := ((declare "Square" .mergeable [("kind", .literal (.string "square"))]).run r).2
  let r := ((declare "Sized" .mergeable
    [("kind", .keyword .string), ("size", .union [.keyword .number, .keyword .undefined])]).run
      r).2
  ((declareBody "Tag" (.intersection
    [.union [.reference ⟨1⟩, .reference ⟨2⟩], .reference ⟨3⟩])).run r).2

theorem tags_reachable : tags.Reachable := by
  have hround : Relation.ReflTransGen Step (empty .common) _ :=
    .single (.declare "Round" .mergeable
      [("kind", .literal (.string "round")), ("next", .reference ⟨4⟩)])
  have hsquare := hround.tail
    (.declare "Square" .mergeable [("kind", .literal (.string "square"))])
  have hsized := hsquare.tail (.declare "Sized" .mergeable
    [("kind", .keyword .string), ("size", .union [.keyword .number, .keyword .undefined])])
  exact ⟨.common, hsized.tail (.declareBody "Tag" (.intersection
    [.union [.reference ⟨1⟩, .reference ⟨2⟩], .reference ⟨3⟩]))⟩

def tagged : Json :=
  .obj [("kind", .str "round"),
    ("next", .obj [("kind", .str "square"), ("size", .num (.integer 2))])]

theorem resolved_type_has_same_values_tags :
    exists s r', (resolveType (.reference ⟨4⟩)).run tags = (.ok s, r') ∧
      ShapeHolds tags.Flattens s tagged ∧
      TypeHolds tags.Flattens
        (.intersection [.union [.reference ⟨1⟩, .reference ⟨2⟩], .reference ⟨3⟩]) tagged := by
  have hok : ((resolveType (.reference ⟨4⟩)).run tags).1.toOption.isSome = true := by
    decide +kernel
  have hmatch : ((typeMatches 10 (.reference ⟨4⟩) tagged).run tags).1 = true := by
    decide +kernel
  have hfree : tags.Every fun t => t ≠ .keyword .any := by
    decide +kernel
  rcases hrun : (resolveType (.reference ⟨4⟩)).run tags with ⟨result, r'⟩
  rw [hrun] at hok
  rcases Option.isSome_iff_exists.mp hok with ⟨s, hs⟩
  cases toOption_eq_some hs
  have hreference : FieldType.AnyFree (.reference ⟨4⟩) := by
    simp [FieldType.AnyFree, FieldType.Every]
  have hsame := resolved_type_has_same_values tags_reachable hfree hreference hrun tagged
  have hshape := hsame.1.mp (typeHolds_of_typeMatches tags_reachable.faithful hmatch)
  refine ⟨s, r', rfl, hshape, ?_⟩
  have htag : tags.arena.get? ⟨4⟩ = some (.declared "Tag" .single .empty [] (some (.intersection
      [.union [.reference ⟨1⟩, .reference ⟨2⟩], .reference ⟨3⟩]))) := by
    with_unfolding_all rfl
  exact (hsame.2.2 ⟨4⟩ _ _ rfl htag rfl rfl).mpr hshape

end Registry
end Shapes
