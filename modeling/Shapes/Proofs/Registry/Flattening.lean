import Mathlib.Data.List.Basic
import Mathlib.Logic.Relation
import Shapes.Proofs.Distinct
import Shapes.Proofs.Registry.Index
import Shapes.Registry.Resolve

/-!
# Flattening from scratch

What a name stands for, said without kept shapes and without a trail.  A
definition is flattened in one step from the shapes of what it needs, and
`Registry.flattenWithin` repeats that step a number of levels deep.
`Registry.Flattens` holds when some number of levels is enough.

`Registry.Depends` is the relation between a shape and those that its
flattening looks at: parents, found by name, and the references at the top of a
body.  A shape that can be flattened has no cycle of dependencies below it.
-/

namespace Shapes

namespace FieldType

mutual

/-- The references at the top of a type, met through unions and intersections. -/
def references : FieldType -> List ShapeId
  | keyword _ | literal _ => []
  | reference id => [id]
  | union members | intersection members => allReferences members

def allReferences : List FieldType -> List ShapeId
  | [] => []
  | t :: rest => references t ++ allReferences rest

end

/-!
# Shapes of types

A type has a shape only if all references at its top have one, and a larger
supply of shapes changes nothing that has been found.
-/

mutual

/-- The shape of a type, given the shapes of its references. -/
def shapeFrom (find : ShapeId -> Option Shape) : FieldType -> Option Shape
  | keyword word => some (.keyword word)
  | literal value => some (.literal value)
  | reference id => find id
  | union members =>
      (shapesFrom find members).bind fun shapes => (Shape.unite shapes).toOption
  | intersection members =>
      (shapesFrom find members).bind fun shapes => (Shape.intersect shapes).toOption

def shapesFrom (find : ShapeId -> Option Shape) : List FieldType -> Option (List Shape)
  | [] => some []
  | t :: rest =>
      (shapeFrom find t).bind fun shape =>
        (shapesFrom find rest).map fun shapes => shape :: shapes

end

theorem shapesFrom_cons_eq_some_iff {find : ShapeId -> Option Shape}
    {t : FieldType} {rest : List FieldType} {shapes : List Shape} :
    shapesFrom find (t :: rest) = some shapes <->
      exists shape others, shapeFrom find t = some shape ∧
        shapesFrom find rest = some others ∧ shapes = shape :: others := by
  simp only [shapesFrom, Option.bind_eq_some_iff, Option.map_eq_some_iff]
  constructor
  · intro hfound
    rcases hfound with ⟨shape, hshape, others, hothers, rfl⟩
    exact ⟨shape, others, hshape, hothers, rfl⟩
  · intro hfound
    rcases hfound with ⟨shape, others, hshape, hothers, rfl⟩
    exact ⟨shape, hshape, others, hothers, rfl⟩

mutual

theorem shapeFrom_mono {find find' : ShapeId -> Option Shape} :
    forall {t : FieldType} {s : Shape},
      (forall b, b ∈ t.references -> forall u, find b = some u -> find' b = some u) ->
      shapeFrom find t = some s -> shapeFrom find' t = some s
  | keyword _, _, _, h => h
  | literal _, _, _, h => h
  | reference id, s, hfind, h => hfind id (by simp [references]) s h
  | union members, s, hfind, h => by
      rcases Option.bind_eq_some_iff.mp h with ⟨shapes, hshapes, hs⟩
      have hmembers := shapesFrom_mono (by simpa only [references] using hfind) hshapes
      simp only [shapeFrom, hmembers, Option.bind_some, hs]
  | intersection members, s, hfind, h => by
      rcases Option.bind_eq_some_iff.mp h with ⟨shapes, hshapes, hs⟩
      have hmembers := shapesFrom_mono (by simpa only [references] using hfind) hshapes
      simp only [shapeFrom, hmembers, Option.bind_some, hs]

theorem shapesFrom_mono {find find' : ShapeId -> Option Shape} :
    forall {types : List FieldType} {shapes : List Shape},
      (forall b, b ∈ allReferences types ->
        forall u, find b = some u -> find' b = some u) ->
      shapesFrom find types = some shapes -> shapesFrom find' types = some shapes
  | [], _, _, h => h
  | t :: rest, shapes, hfind, h => by
      rcases shapesFrom_cons_eq_some_iff.mp h with ⟨shape, others, hshape, hothers, rfl⟩
      apply shapesFrom_cons_eq_some_iff.mpr
      refine ⟨shape, others, shapeFrom_mono ?_ hshape, shapesFrom_mono ?_ hothers, rfl⟩
      · intro b hb
        exact hfind b (List.mem_append.mpr (Or.inl hb))
      · intro b hb
        exact hfind b (List.mem_append.mpr (Or.inr hb))

end

mutual

theorem references_found {find : ShapeId -> Option Shape} :
    forall {t : FieldType} {s : Shape}, shapeFrom find t = some s ->
      forall b, b ∈ t.references -> exists u, find b = some u
  | keyword _, _, _, _, hb => by cases hb
  | literal _, _, _, _, hb => by cases hb
  | reference id, s, h, b, hb => by
      cases List.mem_singleton.mp hb
      exact ⟨s, h⟩
  | union members, s, h, b, hb => by
      rcases Option.bind_eq_some_iff.mp h with ⟨shapes, hshapes, _⟩
      exact allReferences_found hshapes b hb
  | intersection members, s, h, b, hb => by
      rcases Option.bind_eq_some_iff.mp h with ⟨shapes, hshapes, _⟩
      exact allReferences_found hshapes b hb

theorem allReferences_found {find : ShapeId -> Option Shape} :
    forall {types : List FieldType} {shapes : List Shape},
      shapesFrom find types = some shapes ->
      forall b, b ∈ allReferences types -> exists u, find b = some u
  | [], _, _, _, hb => by cases hb
  | t :: rest, shapes, h, b, hb => by
      rcases shapesFrom_cons_eq_some_iff.mp h with ⟨shape, others, hshape, hothers, _⟩
      rcases List.mem_append.mp hb with hb | hb
      · exact references_found hshape b hb
      · exact allReferences_found hothers b hb

end

end FieldType

namespace Definition

/-!
# One definition

A definition needs its parents, which are found by name, and the references at
the top of its body.  It is flattened exactly when each of them has a shape that
fits, and further names in the registry make no difference then.
-/

/-- The shapes that have to be flattened before a definition. -/
def needs (lookup : String -> Option ShapeId) (d : Definition) : List ShapeId :=
  match d.kind, d.body with
  | some .mergeable, _ => d.parents.filterMap lookup
  | some .single, some body => body.references
  | _, _ => []

/-- The fields of a parent that is found by name and is an object. -/
def parentFrom (lookup : String -> Option ShapeId) (find : ShapeId -> Option Shape)
    (parent : String) : Option (Table FieldType) :=
  ((lookup parent).bind find).bind Shape.fields?

/--
The shape of a definition, given the shapes of what it needs: the fields of a
mergeable one on top of its parents', or the body of a single one under its
name.
-/
def flattened (lookup : String -> Option ShapeId) (find : ShapeId -> Option Shape)
    (d : Definition) : Option Shape :=
  match d.kind, d.body with
  | none, _ => none
  | some .mergeable, _ =>
      (d.parents.mapM (parentFrom lookup find)).map fun parents =>
        .object (some d.name) (Table.inherit parents d.fields)
  | some .single, some body => (body.shapeFrom find).map fun shape => shape.rename d.name
  | some .single, none => some (.object (some d.name) d.fields)

theorem mapM_eq_some_cons_iff {α β : Type} {f : α -> Option β} {a : α} {rest : List α}
    {found : List β} :
    (a :: rest).mapM f = some found <->
      exists b others, f a = some b ∧ rest.mapM f = some others ∧ found = b :: others := by
  simp only [List.mapM_cons, Option.bind_eq_bind, Option.bind_eq_some_iff, Option.pure_def,
    Option.some.injEq]
  constructor
  · intro hfound
    rcases hfound with ⟨b, hb, others, hothers, rfl⟩
    exact ⟨b, others, hb, hothers, rfl⟩
  · intro hfound
    rcases hfound with ⟨b, others, hb, hothers, rfl⟩
    exact ⟨b, hb, others, hothers, rfl⟩

theorem parentFrom_mono {lookup lookup' : String -> Option ShapeId}
    {find find' : ShapeId -> Option Shape} {parent : String} {fields : Table FieldType}
    (hlookup : forall id, lookup parent = some id -> lookup' parent = some id)
    (hfind : forall id, lookup parent = some id ->
      forall u, find id = some u -> find' id = some u)
    (h : parentFrom lookup find parent = some fields) :
    parentFrom lookup' find' parent = some fields := by
  rcases Option.bind_eq_some_iff.mp h with ⟨shape, hshape, hfields⟩
  rcases Option.bind_eq_some_iff.mp hshape with ⟨id, hid, hfound⟩
  simp [parentFrom, hlookup id hid, hfind id hid shape hfound, hfields]

theorem parentsFrom_mono {lookup lookup' : String -> Option ShapeId}
    {find find' : ShapeId -> Option Shape} {parents : List String}
    {tables : List (Table FieldType)}
    (hlookup : forall p, p ∈ parents -> forall id, lookup p = some id -> lookup' p = some id)
    (hfind : forall b, b ∈ parents.filterMap lookup ->
      forall u, find b = some u -> find' b = some u)
    (h : parents.mapM (parentFrom lookup find) = some tables) :
    parents.mapM (parentFrom lookup' find') = some tables := by
  induction parents generalizing tables with
  | nil => exact h
  | cons p rest ih =>
      rcases mapM_eq_some_cons_iff.mp h with ⟨fields, others, hp, hrest, rfl⟩
      have hfindRest : forall b, b ∈ rest.filterMap lookup ->
          forall u, find b = some u -> find' b = some u := by
        intro b hb
        rcases List.mem_filterMap.mp hb with ⟨q, hq, hqb⟩
        exact hfind b (List.mem_filterMap.mpr ⟨q, List.mem_cons_of_mem p hq, hqb⟩)
      apply mapM_eq_some_cons_iff.mpr
      refine ⟨fields, others, parentFrom_mono ?_ ?_ hp, ih ?_ hfindRest hrest, rfl⟩
      · exact hlookup p List.mem_cons_self
      · intro id hid
        exact hfind id (List.mem_filterMap.mpr ⟨p, List.mem_cons_self, hid⟩)
      · intro q hq
        exact hlookup q (List.mem_cons_of_mem p hq)

theorem parentFrom_of_mem {lookup : String -> Option ShapeId}
    {find : ShapeId -> Option Shape} {parents : List String}
    {tables : List (Table FieldType)}
    (h : parents.mapM (parentFrom lookup find) = some tables) {table : Table FieldType}
    (htable : table ∈ tables) :
    exists name id parent, name ∈ parents ∧ lookup name = some id ∧ find id = some parent ∧
      parent.fields? = some table := by
  induction parents generalizing tables with
  | nil =>
      cases h
      cases htable
  | cons p rest ih =>
      rcases mapM_eq_some_cons_iff.mp h with ⟨first, others, hfirst, hothers, rfl⟩
      rcases List.mem_cons.mp htable with rfl | htable
      · rcases Option.bind_eq_some_iff.mp hfirst with ⟨parent, hparent, hfields⟩
        rcases Option.bind_eq_some_iff.mp hparent with ⟨id, hlookup, hid⟩
        exact ⟨p, id, parent, List.mem_cons_self, hlookup, hid, hfields⟩
      · rcases ih hothers htable with ⟨name, id, parent, hname, hfound⟩
        exact ⟨name, id, parent, List.mem_cons_of_mem p hname, hfound⟩

theorem parents_found {lookup : String -> Option ShapeId} {find : ShapeId -> Option Shape}
    {parents : List String} {tables : List (Table FieldType)}
    (h : parents.mapM (parentFrom lookup find) = some tables) :
    forall b, b ∈ parents.filterMap lookup -> exists u, find b = some u := by
  induction parents generalizing tables with
  | nil =>
      intro b hb
      cases hb
  | cons p rest ih =>
      rcases mapM_eq_some_cons_iff.mp h with ⟨fields, others, hp, hrest, _⟩
      rcases Option.bind_eq_some_iff.mp hp with ⟨shape, hshape, _⟩
      rcases Option.bind_eq_some_iff.mp hshape with ⟨id, hid, hfound⟩
      intro b hb
      rw [List.filterMap_cons_some hid] at hb
      rcases List.mem_cons.mp hb with rfl | hb
      · exact ⟨shape, hfound⟩
      · exact ih hrest b hb

theorem flattened_mono {lookup lookup' : String -> Option ShapeId}
    {find find' : ShapeId -> Option Shape} {d : Definition} {s : Shape}
    (hlookup : forall p id, lookup p = some id -> lookup' p = some id)
    (hfind : forall b, b ∈ d.needs lookup -> forall u, find b = some u -> find' b = some u)
    (h : d.flattened lookup find = some s) : d.flattened lookup' find' = some s := by
  unfold flattened at h ⊢
  unfold needs at hfind
  cases hkind : d.kind with
  | none => simp [hkind] at h
  | some kind =>
      cases kind with
      | mergeable =>
          simp only [hkind] at h hfind ⊢
          rcases Option.map_eq_some_iff.mp h with ⟨tables, htables, rfl⟩
          rw [parentsFrom_mono (fun p _ => hlookup p) hfind htables]
          rfl
      | single =>
          cases hbody : d.body with
          | none => simpa [hkind, hbody] using h
          | some body =>
              simp only [hkind, hbody] at h hfind ⊢
              rcases Option.map_eq_some_iff.mp h with ⟨shape, hshape, rfl⟩
              rw [FieldType.shapeFrom_mono hfind hshape]
              rfl

theorem needs_found {lookup : String -> Option ShapeId} {find : ShapeId -> Option Shape}
    {d : Definition} {s : Shape} (h : d.flattened lookup find = some s) :
    forall b, b ∈ d.needs lookup -> exists u, find b = some u := by
  intro b hb
  unfold flattened at h
  unfold needs at hb
  cases hkind : d.kind with
  | none => simp [hkind] at h
  | some kind =>
      cases kind with
      | mergeable =>
          simp only [hkind] at h hb
          rcases Option.map_eq_some_iff.mp h with ⟨tables, htables, _⟩
          exact parents_found htables b hb
      | single =>
          cases hbody : d.body with
          | none => simp [hkind, hbody] at hb
          | some body =>
              simp only [hkind, hbody] at h hb
              rcases Option.map_eq_some_iff.mp h with ⟨shape, hshape, _⟩
              exact FieldType.references_found hshape b hb

theorem parent_lookup_found {lookup : String -> Option ShapeId}
    {find : ShapeId -> Option Shape} {parents : List String}
    {tables : List (Table FieldType)}
    (h : parents.mapM (parentFrom lookup find) = some tables) :
    forall p, p ∈ parents -> exists id, lookup p = some id := by
  induction parents generalizing tables with
  | nil =>
      intro p hp
      cases hp
  | cons q rest ih =>
      rcases mapM_eq_some_cons_iff.mp h with ⟨fields, others, hq, hrest, _⟩
      rcases Option.bind_eq_some_iff.mp hq with ⟨shape, hshape, _⟩
      rcases Option.bind_eq_some_iff.mp hshape with ⟨id, hid, _⟩
      intro p hp
      rcases List.mem_cons.mp hp with rfl | hp
      · exact ⟨id, hid⟩
      · exact ih hrest p hp

theorem needs_eq_of_flattened {lookup lookup' : String -> Option ShapeId}
    {find : ShapeId -> Option Shape} {d : Definition} {s : Shape}
    (hlookup : forall p id, lookup p = some id -> lookup' p = some id)
    (h : d.flattened lookup find = some s) : d.needs lookup' = d.needs lookup := by
  unfold flattened at h
  unfold needs
  cases hkind : d.kind with
  | none => simp [hkind] at h
  | some kind =>
      cases kind with
      | mergeable =>
          simp only [hkind] at h ⊢
          rcases Option.map_eq_some_iff.mp h with ⟨tables, htables, _⟩
          apply List.filterMap_congr
          intro p hp
          rcases parent_lookup_found htables p hp with ⟨id, hid⟩
          rw [hid, hlookup p id hid]
      | single => cases d.body <;> rfl

end Definition

namespace Registry

/-!
# A registry

More levels find the same shapes and perhaps some more, so a name stands for one
shape at most.
-/

/-- The shape of a name, when so many levels of dependencies are enough. -/
def flattenWithin (r : Registry) : Nat -> ShapeId -> Option Shape
  | 0, _ => none
  | levels + 1, id =>
      (r.arena.get? id).bind (Definition.flattened r.lookup? (r.flattenWithin levels))

/-- A name stands for a shape. -/
def Flattens (r : Registry) (id : ShapeId) (s : Shape) : Prop :=
  exists levels, r.flattenWithin levels id = some s

/-- A type stands for a shape. -/
def TypeFlattens (r : Registry) (t : FieldType) (s : Shape) : Prop :=
  exists levels, t.shapeFrom (r.flattenWithin levels) = some s

/-- A shape whose flattening looks at another. -/
def Depends (r : Registry) (a b : ShapeId) : Prop :=
  exists d, r.arena.get? a = some d ∧ b ∈ d.needs r.lookup?

/-- A shape is looked at from another, or is it. -/
def Reaches (r : Registry) : ShapeId -> ShapeId -> Prop :=
  Relation.ReflTransGen r.Depends

/-- A shape is looked at from itself. -/
def OnCycle (r : Registry) (id : ShapeId) : Prop :=
  Relation.TransGen r.Depends id id

theorem not_depends_of_needs_eq_nil {r : Registry} {id : ShapeId} {d : Definition}
    (hd : r.arena.get? id = some d) (hneeds : d.needs r.lookup? = []) (b : ShapeId) :
    ¬ r.Depends id b := by
  intro hdepends
  rcases hdepends with ⟨found, hfound, hb⟩
  rw [hd] at hfound
  cases hfound
  rw [hneeds] at hb
  cases hb

theorem flattenWithin_succ_eq_some_iff {r : Registry} {levels : Nat} {id : ShapeId}
    {s : Shape} :
    r.flattenWithin (levels + 1) id = some s <->
      exists d, r.arena.get? id = some d ∧
        d.flattened r.lookup? (r.flattenWithin levels) = some s := by
  simp only [flattenWithin, Option.bind_eq_some_iff]

theorem flattenWithin_succ {r : Registry} {levels : Nat} {id : ShapeId} {s : Shape}
    (h : r.flattenWithin levels id = some s) :
    r.flattenWithin (levels + 1) id = some s := by
  induction levels generalizing id s with
  | zero => cases h
  | succ levels ih =>
      rcases flattenWithin_succ_eq_some_iff.mp h with ⟨d, hd, hflat⟩
      apply flattenWithin_succ_eq_some_iff.mpr
      refine ⟨d, hd, Definition.flattened_mono (fun _ _ hp => hp) ?_ hflat⟩
      intro b _ u hu
      exact ih hu

theorem flattenWithin_mono {r : Registry} {levels more : Nat} (hle : levels ≤ more)
    {id : ShapeId} {s : Shape} (h : r.flattenWithin levels id = some s) :
    r.flattenWithin more id = some s := by
  induction hle with
  | refl => exact h
  | step _ ih => exact flattenWithin_succ ih

theorem not_flattens_of_flattened {r : Registry} {id : ShapeId} {d : Definition}
    (hd : r.arena.get? id = some d)
    (h : forall levels, d.flattened r.lookup? (r.flattenWithin levels) = none) (s : Shape) :
    ¬ r.Flattens id s := by
  intro hfound
  rcases hfound with ⟨levels, hlevels⟩
  have hmore := flattenWithin_succ hlevels
  rw [flattenWithin, hd, Option.bind_some, h levels] at hmore
  cases hmore

theorem flattenWithin_eq_none_of_kind? {r : Registry} {id : ShapeId}
    (h : r.arena.kind? id = none) (levels : Nat) : r.flattenWithin levels id = none := by
  cases levels with
  | zero => rfl
  | succ levels =>
      rw [flattenWithin]
      cases hd : r.arena.get? id with
      | none => rfl
      | some d =>
          rw [Arena.kind?, hd] at h
          rw [Option.bind_some, Definition.flattened, show d.kind = none from h]

theorem flattens_unique {r : Registry} {id : ShapeId} {s t : Shape}
    (hs : r.Flattens id s) (ht : r.Flattens id t) : s = t := by
  rcases hs with ⟨m, hm⟩
  rcases ht with ⟨n, hn⟩
  have hm' := flattenWithin_mono (Nat.le_max_left m n) hm
  have hn' := flattenWithin_mono (Nat.le_max_right m n) hn
  rw [hm'] at hn'
  exact Option.some.inj hn'

/-!
# Collecting levels

Finitely many shapes can be flattened with one number of levels, so one step on
top of flattenings is a flattening.
-/

theorem exists_levels {r : Registry} {find : ShapeId -> Option Shape} (ids : List ShapeId)
    (h : forall b, b ∈ ids -> forall u, find b = some u -> r.Flattens b u) :
    exists levels, forall b, b ∈ ids ->
      forall u, find b = some u -> r.flattenWithin levels b = some u := by
  apply exists_common_level
  · intro m n b hle hb u hu
    exact flattenWithin_mono hle (hb u hu)
  · intro b hb
    cases hfind : find b with
    | none =>
        refine ⟨0, ?_⟩
        intro u hu
        cases hu
    | some v =>
        rcases h b hb v hfind with ⟨levels, hlevels⟩
        refine ⟨levels, ?_⟩
        intro u hu
        cases hu
        exact hlevels

theorem flattens_of_flattened {r : Registry} {find : ShapeId -> Option Shape}
    {id : ShapeId} {d : Definition} {s : Shape} (hd : r.arena.get? id = some d)
    (hfind : forall b, b ∈ d.needs r.lookup? ->
      forall u, find b = some u -> r.Flattens b u)
    (h : d.flattened r.lookup? find = some s) : r.Flattens id s := by
  rcases exists_levels (d.needs r.lookup?) hfind with ⟨levels, hlevels⟩
  refine ⟨levels + 1, flattenWithin_succ_eq_some_iff.mpr ⟨d, hd, ?_⟩⟩
  exact Definition.flattened_mono (fun _ _ hp => hp) hlevels h

theorem typeFlattens_of_shapeFrom {r : Registry} {find : ShapeId -> Option Shape}
    {t : FieldType} {s : Shape}
    (hfind : forall b, b ∈ t.references -> forall u, find b = some u -> r.Flattens b u)
    (h : t.shapeFrom find = some s) : r.TypeFlattens t s := by
  rcases exists_levels t.references hfind with ⟨levels, hlevels⟩
  exact ⟨levels, FieldType.shapeFrom_mono hlevels h⟩

theorem typeFlattens_unique {r : Registry} {t : FieldType} {s u : Shape}
    (hs : r.TypeFlattens t s) (hu : r.TypeFlattens t u) : s = u := by
  rcases hs with ⟨m, hm⟩
  rcases hu with ⟨n, hn⟩
  have hm' := FieldType.shapeFrom_mono
    (fun _ _ _ hv => flattenWithin_mono (Nat.le_max_left m n) hv) hm
  have hn' := FieldType.shapeFrom_mono
    (fun _ _ _ hv => flattenWithin_mono (Nat.le_max_right m n) hv) hn
  rw [hm'] at hn'
  exact Option.some.inj hn'

/-- Types stand for shapes, one by one. -/
def TypesFlatten (r : Registry) (types : List FieldType) (shapes : List Shape) : Prop :=
  exists levels, FieldType.shapesFrom (r.flattenWithin levels) types = some shapes

theorem typesFlatten_of_shapesFrom {r : Registry} {find : ShapeId -> Option Shape}
    {types : List FieldType} {shapes : List Shape}
    (hfind : forall b, b ∈ FieldType.allReferences types ->
      forall u, find b = some u -> r.Flattens b u)
    (h : FieldType.shapesFrom find types = some shapes) : r.TypesFlatten types shapes := by
  rcases exists_levels (FieldType.allReferences types) hfind with ⟨levels, hlevels⟩
  exact ⟨levels, FieldType.shapesFrom_mono hlevels h⟩

theorem typesFlatten_unique {r : Registry} {types : List FieldType}
    {shapes others : List Shape} (hshapes : r.TypesFlatten types shapes)
    (hothers : r.TypesFlatten types others) : shapes = others := by
  rcases hshapes with ⟨m, hm⟩
  rcases hothers with ⟨n, hn⟩
  have hm' := FieldType.shapesFrom_mono
    (fun _ _ _ hu => flattenWithin_mono (Nat.le_max_left m n) hu) hm
  have hn' := FieldType.shapesFrom_mono
    (fun _ _ _ hu => flattenWithin_mono (Nat.le_max_right m n) hu) hn
  rw [hm'] at hn'
  exact Option.some.inj hn'

theorem typesFlatten_cons {r : Registry} {t : FieldType} {rest : List FieldType}
    {shapes : List Shape} (h : r.TypesFlatten (t :: rest) shapes) :
    exists shape others, r.TypeFlattens t shape ∧ r.TypesFlatten rest others := by
  rcases h with ⟨levels, hlevels⟩
  rcases FieldType.shapesFrom_cons_eq_some_iff.mp hlevels with ⟨shape, others, ht, hrest, _⟩
  exact ⟨shape, others, ⟨levels, ht⟩, ⟨levels, hrest⟩⟩

/-!
# Cycles

Each step along dependencies uses up a level, hence what is flattened does not
come back to itself.
-/

theorem flattens_depends {r : Registry} {a b : ShapeId} {levels : Nat} {s : Shape}
    (h : r.flattenWithin (levels + 1) a = some s) (hab : r.Depends a b) :
    exists t, r.flattenWithin levels b = some t := by
  rcases flattenWithin_succ_eq_some_iff.mp h with ⟨d, hd, hflat⟩
  rcases hab with ⟨d', hd', hb⟩
  rw [hd] at hd'
  cases hd'
  exact Definition.needs_found hflat b hb

theorem exists_flattens_of_reaches {r : Registry} {a b : ShapeId} {s : Shape}
    (h : r.Flattens a s) (hab : r.Reaches a b) : exists t, r.Flattens b t := by
  induction hab with
  | refl => exact ⟨s, h⟩
  | tail _ hbc ih =>
      rcases ih with ⟨t, levels, ht⟩
      rcases flattens_depends (flattenWithin_succ ht) hbc with ⟨u, hu⟩
      exact ⟨u, levels, hu⟩

theorem flattenWithin_pred_of_transGen {r : Registry} {a b : ShapeId} {levels : Nat}
    {s : Shape} (h : r.flattenWithin (levels + 1) a = some s)
    (hab : Relation.TransGen r.Depends a b) :
    exists t, r.flattenWithin levels b = some t := by
  induction hab with
  | single hab => exact flattens_depends h hab
  | tail _ hbc ih =>
      rcases ih with ⟨t, ht⟩
      exact flattens_depends (flattenWithin_succ ht) hbc

theorem not_onCycle_of_flattens {r : Registry} {id : ShapeId} {s : Shape}
    (h : r.Flattens id s) : ¬ r.OnCycle id := by
  intro hcycle
  rcases h with ⟨levels, hlevels⟩
  -- A shape on a cycle that needs some levels can do with one level less.
  induction levels generalizing s with
  | zero => cases hlevels
  | succ levels ih =>
      rcases flattenWithin_pred_of_transGen hlevels hcycle with ⟨t, ht⟩
      exact ih ht

/-!
# Registries that agree on some shapes

Only the definitions in reach matter.
-/

theorem flattenWithin_congr {r r' : Registry} (inside : ShapeId -> Prop)
    (hlookup : forall p id, r.lookup? p = some id -> r'.lookup? p = some id)
    (hclosed : forall a b, inside a -> r.Depends a b -> inside b)
    (hsame : forall a d, inside a -> r.arena.get? a = some d ->
      exists d', r'.arena.get? a = some d' ∧
        forall lookup find, d'.flattened lookup find = d.flattened lookup find)
    {levels : Nat} {id : ShapeId} {s : Shape} (hid : inside id)
    (h : r.flattenWithin levels id = some s) : r'.flattenWithin levels id = some s := by
  induction levels generalizing id s with
  | zero => cases h
  | succ levels ih =>
      rcases flattenWithin_succ_eq_some_iff.mp h with ⟨d, hd, hflat⟩
      rcases hsame id d hid hd with ⟨d', hd', heq⟩
      apply flattenWithin_succ_eq_some_iff.mpr
      refine ⟨d', hd', ?_⟩
      rw [heq]
      apply Definition.flattened_mono hlookup _ hflat
      intro b hb u hu
      exact ih (hclosed id b hid ⟨d, hd, hb⟩) hu

/-!
# Registries with the same declarations

Flattening does not look at stages or at kept shapes, so a registry that has
come further flattens to the same shapes.
-/

end Registry

/-- Definitions that gather the same declarations, however far they have come. -/
structure Definition.SameDeclaration (d d' : Definition) : Prop where
  name : d'.name = d.name
  kind : d'.kind = d.kind
  fields : d'.fields = d.fields
  parents : d'.parents = d.parents
  body : d'.body = d.body

namespace Definition.SameDeclaration

theorem refl (d : Definition) : SameDeclaration d d :=
  ⟨rfl, rfl, rfl, rfl, rfl⟩

theorem trans {d d' d'' : Definition} (h : SameDeclaration d d')
    (h' : SameDeclaration d' d'') : SameDeclaration d d'' :=
  ⟨h'.name.trans h.name, h'.kind.trans h.kind, h'.fields.trans h.fields,
    h'.parents.trans h.parents, h'.body.trans h.body⟩

theorem symm {d d' : Definition} (h : SameDeclaration d d') : SameDeclaration d' d :=
  ⟨h.name.symm, h.kind.symm, h.fields.symm, h.parents.symm, h.body.symm⟩

theorem needs_eq {d d' : Definition} (h : SameDeclaration d d')
    (lookup : String -> Option ShapeId) : d'.needs lookup = d.needs lookup := by
  simp only [needs, h.kind, h.body, h.parents]

theorem flattened_eq {d d' : Definition} (h : SameDeclaration d d')
    (lookup : String -> Option ShapeId) (find : ShapeId -> Option Shape) :
    d'.flattened lookup find = d.flattened lookup find := by
  simp only [flattened, h.kind, h.body, h.parents, h.name, h.fields]

end Definition.SameDeclaration

namespace Registry

/-- Registries that hold the same declarations under the same names and identifiers. -/
structure SameDeclarations (r r' : Registry) : Prop where
  index : r'.index = r.index
  definitions : forall id,
    Option.Rel Definition.SameDeclaration (r.arena.get? id) (r'.arena.get? id)

namespace SameDeclarations

variable {r r' : Registry}

theorem of_get?_eq_some (h : r.SameDeclarations r') {id : ShapeId} {d : Definition}
    (hd : r.arena.get? id = some d) :
    exists d', r'.arena.get? id = some d' ∧ d.SameDeclaration d' := by
  have hid := h.definitions id
  rw [hd] at hid
  cases hd' : r'.arena.get? id with
  | none =>
      rw [hd'] at hid
      cases hid
  | some d' =>
      rw [hd'] at hid
      cases hid with
      | some hsame => exact ⟨d', rfl, hsame⟩

theorem trans {r'' : Registry} (h : r.SameDeclarations r') (h' : r'.SameDeclarations r'') :
    r.SameDeclarations r'' := by
  refine ⟨h'.index.trans h.index, ?_⟩
  intro id
  have hfirst := h.definitions id
  have hsecond := h'.definitions id
  generalize r.arena.get? id = before at hfirst
  generalize r'.arena.get? id = between at hfirst hsecond
  generalize r''.arena.get? id = after at hsecond
  cases hfirst with
  | none => exact hsecond
  | some hd =>
      cases hsecond with
      | some hd' => exact Option.Rel.some (hd.trans hd')

theorem symm (h : r.SameDeclarations r') : r'.SameDeclarations r := by
  refine ⟨h.index.symm, ?_⟩
  intro id
  have hid := h.definitions id
  generalize r.arena.get? id = before at hid
  generalize r'.arena.get? id = after at hid
  cases hid with
  | none => exact Option.Rel.none
  | some hsame => exact Option.Rel.some hsame.symm

theorem lookup?_eq (h : r.SameDeclarations r') : r'.lookup? = r.lookup? :=
  lookup?_of_index h.index

theorem size_eq (h : r.SameDeclarations r') : r'.size = r.size :=
  size_of_index h.index

theorem flattenWithin_eq (h : r.SameDeclarations r') (levels : Nat) :
    r'.flattenWithin levels = r.flattenWithin levels := by
  induction levels with
  | zero => rfl
  | succ levels ih =>
      funext id
      simp only [flattenWithin, ih, h.lookup?_eq]
      have hid := h.definitions id
      generalize r.arena.get? id = before at hid
      generalize r'.arena.get? id = after at hid
      cases hid with
      | none => rfl
      | some hsame => exact hsame.flattened_eq _ _

theorem flattens_iff (h : r.SameDeclarations r') {id : ShapeId} {s : Shape} :
    r'.Flattens id s <-> r.Flattens id s := by
  simp only [Flattens, h.flattenWithin_eq]

theorem typeFlattens_iff (h : r.SameDeclarations r') {t : FieldType} {s : Shape} :
    r'.TypeFlattens t s <-> r.TypeFlattens t s := by
  simp only [TypeFlattens, h.flattenWithin_eq]

theorem kind?_eq (h : r.SameDeclarations r') {id : ShapeId} :
    r'.arena.kind? id = r.arena.kind? id := by
  have hid := h.definitions id
  unfold Arena.kind?
  generalize r.arena.get? id = before at hid
  generalize r'.arena.get? id = after at hid
  cases hid with
  | none => rfl
  | some hsame => exact hsame.kind

theorem displayName_eq (h : r.SameDeclarations r') {id : ShapeId} {name : String}
    (hname : r.arena.name? id = some name) : r'.displayName id = name := by
  rcases Option.map_eq_some_iff.mp hname with ⟨d, hd, rfl⟩
  rcases h.of_get?_eq_some hd with ⟨d', hd', hsame⟩
  simp only [displayName, Arena.name?, hd', Option.map_some, Option.getD_some, hsame.name]

theorem displayNames_eq (h : r.SameDeclarations r') : r'.displayName = r.displayName := by
  funext id
  have hid := h.definitions id
  unfold displayName Arena.name?
  generalize r.arena.get? id = before at hid
  generalize r'.arena.get? id = after at hid
  cases hid with
  | none => rfl
  | some hsame => simp [hsame.name]

theorem depends_iff (h : r.SameDeclarations r') {a b : ShapeId} :
    r'.Depends a b <-> r.Depends a b := by
  simp only [Depends, h.lookup?_eq]
  have hid := h.definitions a
  generalize r.arena.get? a = before at hid
  generalize r'.arena.get? a = after at hid
  cases hid with
  | none => simp
  | some hsame => simp [hsame.needs_eq]

theorem setDefinition {id : ShapeId} {d d' : Definition} (hd : r.arena.get? id = some d)
    (hsame : d.SameDeclaration d') : r.SameDeclarations (r.setDefinition id d') := by
  refine ⟨index_setDefinition r id d', ?_⟩
  intro other
  by_cases hother : other = id
  · subst hother
    simp only [Registry.setDefinition, Arena.get?_set_self d' hd, hd]
    exact Option.Rel.some hsame
  · simp only [Registry.setDefinition, Arena.get?_set_of_ne d' hother]
    cases r.arena.get? other with
    | none => exact Option.Rel.none
    | some e => exact Option.Rel.some (.refl e)

end SameDeclarations
end Registry
end Shapes
