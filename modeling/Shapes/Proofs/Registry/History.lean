import Shapes.Proofs.Registry.Contribution
import Shapes.Proofs.Registry.Walk

/-!
# Histories of a registry

`Registry.Step` is one use of a registry, successful or not, and a registry is
`Registry.Reachable` when uses lead to it from the empty one.  Every use keeps a
registry faithful, so in every reachable registry a kept shape is what its
declarations flatten to now, and so are the shapes it was computed from.
-/

namespace Shapes
namespace Registry

/-- One use of a registry. -/
inductive Step : Registry -> Registry -> Prop where
  | declare {r : Registry} (name : String) (kind : NameKind)
      (fields : List (String × FieldType)) :
      Step r ((declare name kind fields).run r).2
  | declareBody {r : Registry} (name : String) (body : FieldType) :
      Step r ((declareBody name body).run r).2
  | extend {r : Registry} (name : String) (parents : List String)
      (fields : List (String × FieldType)) :
      Step r ((extend name parents fields).run r).2
  | reserve {r : Registry} (name : String) : Step r ((reserve name).run r).2
  | resolve {r : Registry} (id : ShapeId) : Step r ((resolve id).run r).2
  | resolveType {r : Registry} (t : FieldType) : Step r ((resolveType t).run r).2
  | freeze {r : Registry} (id : ShapeId) : Step r ((freeze id).run r).2
  | keys {r : Registry} (id : ShapeId) : Step r ((keys id).run r).2
  | checkKey {r : Registry} (id : ShapeId) (key : String) :
      Step r ((checkKey id key).run r).2
  | access {r : Registry} {α : Type} (id : ShapeId) (members : List (String × α))
      (key : String) : Step r ((access id members key).run r).2

/-- A registry that uses lead to from the empty one. -/
def Reachable (r : Registry) : Prop :=
  exists policy, Relation.ReflTransGen Step (empty policy) r

/-!
# Declarations

A contribution is accepted by pending and by open mergeable definitions only.
-/

theorem run_contribute (name : String) (c : Contribution) (r : Registry) :
    (contribute name c).run r =
      match r.lookup? name with
      | none =>
          match Definition.ofContribution name c with
          | .ok d => (.ok (r.register d).1, (r.register d).2)
          | .error failure => (.error failure, r)
      | some id =>
          match r.arena.get? id with
          | none => (.error (.unknownShape name), r)
          | some d =>
              match d.merge c with
              | .ok d' => (.ok id, r.setDefinition id d')
              | .error failure => (.error failure, r) := by
  change (match r.lookup? name with
    | none => _
    | some id => _ : RegistryM ShapeId).run r = _
  cases r.lookup? name with
  | none => cases Definition.ofContribution name c <;> rfl
  | some id =>
      dsimp only
      cases r.arena.get? id with
      | none => rfl
      | some d =>
          dsimp only
          cases d.merge c <;> rfl

theorem run_reserve (name : String) (r : Registry) :
    (reserve name).run r =
      match r.lookup? name with
      | some id => (id, r)
      | none => r.register (.pending name) := rfl

theorem merge_cases {d d' : Definition} {c : Contribution} (h : d.merge c = .ok d') :
    (d.kind = none ∧ d'.resolved = none ∧ d'.name = d.name) ∨
      (d.stage.isOpen = true ∧ d' = d.absorb c) := by
  rcases Definition.merge_eq_ok_iff.mp h with ⟨hkind, hd'⟩ | ⟨_, _, hopen, _, _, hd'⟩
  · rcases Definition.ofContribution_eq_ok_iff.mp hd' with ⟨_, rfl⟩
    exact Or.inl ⟨hkind, rfl, rfl⟩
  · exact Or.inr ⟨hopen, hd'⟩

/-!
# Looking at keys

Requests about keys freeze a shape first and read the registry from then on.
-/

theorem run_freeze_bind_state {α : Type} (id : ShapeId) (r : Registry)
    (next : Shape -> KeyPolicy -> Except Failure α) :
    ((do
      let shape <- freeze id
      next shape (<- get).policy : RegistryM α).run r).2 = ((freeze id).run r).2 := by
  rw [run_bind]
  rcases (freeze id).run r with ⟨answer, r1⟩
  cases answer with
  | error failure => rfl
  | ok s =>
      change ((liftM (next s r1.policy) : RegistryM α).run r1).2 = r1
      cases next s r1.policy <;> rfl

/-!
# What a step changes

Every use of a registry is a sequence of changes of four kinds.  An invariant
therefore has four cases, however many kinds of use there are.
-/

/--
A change of a registry: shapes are flattened and kept, a name is registered, a
contribution is merged into a definition, or a definition is frozen.
-/
inductive Change : Registry -> Registry -> Prop where
  | walk {r r' : Registry} : Walked [] r r' -> Change r r'
  | register {r : Registry} {d : Definition} : r.lookup? d.name = none -> d.New ->
      Change r (r.register d).2
  | merge {r : Registry} {id : ShapeId} {d d' : Definition} {c : Contribution} :
      r.arena.get? id = some d -> c.Proper -> d.merge c = .ok d' ->
      Change r (r.setDefinition id d')
  | freeze {r : Registry} {id : ShapeId} {d : Definition} {s : Shape} :
      r.arena.get? id = some d -> d.resolved = some s ->
      Change r (r.setDefinition id { d with stage := .frozen })

section Changes

variable {r r' : Registry}

theorem contribute_changes (name : String) {c : Contribution} (hc : c.Proper) :
    Relation.ReflTransGen Change r ((contribute name c).run r).2 := by
  rw [run_contribute]
  cases hlookup : r.lookup? name with
  | none =>
      cases hd : Definition.ofContribution name c with
      | error failure => exact .refl
      | ok d =>
          have hname : d.name = name := by
            rw [(Definition.ofContribution_eq_ok_iff.mp hd).2]
            rfl
          subst hname
          exact .single (.register hlookup (Or.inr ⟨c, hc, hd⟩))
  | some id =>
      cases hget : r.arena.get? id with
      | none =>
          simp only [hget]
          exact .refl
      | some d =>
          cases hmerge : d.merge c with
          | error failure =>
              simp only [hget, hmerge]
              exact .refl
          | ok d' =>
              simp only [hget, hmerge]
              exact .single (.merge hget hc hmerge)

theorem reserve_changes (name : String) :
    Relation.ReflTransGen Change r ((reserve name).run r).2 := by
  rw [run_reserve]
  cases hlookup : r.lookup? name with
  | some id => exact .refl
  | none => exact .single (.register hlookup (Or.inl rfl))

theorem freeze_changes (id : ShapeId) :
    Relation.ReflTransGen Change r ((freeze id).run r).2 := by
  rw [run_freeze]
  rcases hrun : (resolve id).run r with ⟨answer, r1⟩
  rcases resolve_walked hrun with ⟨hwalked, hkept⟩
  have hwalk : Relation.ReflTransGen Change r r1 := .single (.walk hwalked)
  cases answer with
  | error failure => exact hwalk
  | ok s =>
      rcases cached?_eq_some_iff.mp hkept with ⟨d, hd, hs⟩
      simp only [hd]
      exact hwalk.tail (.freeze hd hs)

theorem Step.changes (h : Step r r') : Relation.ReflTransGen Change r r' := by
  cases h with
  | declare name kind fields => exact contribute_changes name (.ofFields kind [] fields)
  | declareBody name body => exact contribute_changes name (.ofBody body)
  | extend name parents fields =>
      exact contribute_changes name (.ofFields .mergeable parents fields)
  | reserve name => exact reserve_changes name
  | resolve id => exact .single (.walk (resolve_walked rfl).1)
  | resolveType t => exact .single (.walk (resolveType_walked rfl).1)
  | freeze id => exact freeze_changes id
  | keys id =>
      have hstate := run_freeze_bind_state id r fun s policy => .ok (s.keys policy)
      exact hstate ▸ freeze_changes id
  | checkKey id key =>
      have hstate := run_freeze_bind_state id r fun s policy => s.checkKey policy key
      exact hstate ▸ freeze_changes id
  | access id members key =>
      have hstate := run_freeze_bind_state id r fun s policy => s.access policy members key
      exact hstate ▸ freeze_changes id

theorem Step.preserves {invariant : Registry -> Prop}
    (hchange : forall {r r'}, invariant r -> Change r r' -> invariant r') (h : Step r r')
    (hr : invariant r) : invariant r' := by
  have hchanges := h.changes
  clear h
  induction hchanges with
  | refl => exact hr
  | tail _ hlast ih => exact hchange ih hlast

/-- What holds of the empty registry and survives every change holds of all reachable ones. -/
theorem Reachable.invariant {invariant : Registry -> Prop}
    (hempty : forall policy, invariant (empty policy))
    (hchange : forall {r r'}, invariant r -> Change r r' -> invariant r')
    (hr : r.Reachable) : invariant r := by
  rcases hr with ⟨policy, hsteps⟩
  induction hsteps with
  | refl => exact hempty policy
  | tail _ hstep ih => exact hstep.preserves hchange ih

end Changes

/-!
# Faithful registries

A new definition keeps nothing, and a contribution never reaches a definition
that does.
-/

namespace Faithful

variable {r : Registry}

theorem register (h : r.Faithful) {d : Definition} (hnew : r.lookup? d.name = none)
    (hd : d.resolved = none) : (r.register d).2.Faithful := by
  apply h.of_kept_unchanged (h.numbered.register d)
  · intro p id hp
    exact lookup?_register_of_some hnew hp
  · intro id old s hold _
    exact h.numbered.get?_register_of_some d hold
  · intro id s hs
    rcases cached?_eq_some_iff.mp hs with ⟨found, hfound, hres⟩
    rcases Arena.get?_register_cases hfound with hfound | ⟨_, rfl⟩
    · exact cached?_eq_some_iff.mpr ⟨found, hfound, hres⟩
    · rw [hd] at hres
      cases hres

theorem replace (h : r.Faithful) {id : ShapeId} {d d' : Definition}
    (hget : r.arena.get? id = some d) (hd : d.resolved = none) (hd' : d'.resolved = none) :
    (r.setDefinition id d').Faithful := by
  apply h.of_kept_unchanged (h.numbered.set id d')
  · intro p other hp
    exact hp
  · intro other old s hold hs
    have hne : other ≠ id := by
      intro heq
      subst heq
      rw [hget] at hold
      cases hold
      rw [hd] at hs
      cases hs
    rw [setDefinition, Arena.get?_set_of_ne d' hne]
    exact hold
  · intro other s hs
    by_cases hother : other = id
    · subst hother
      rw [cached?_setDefinition_self d' hget, hd'] at hs
      cases hs
    · rw [cached?_setDefinition_of_ne hother] at hs
      exact hs

theorem resolved_eq_none_of_merge (h : r.Faithful) {id : ShapeId} {d d' : Definition}
    {c : Contribution} (hget : r.arena.get? id = some d) (hmerge : d.merge c = .ok d') :
    d.resolved = none := by
  cases hs : d.resolved with
  | none => rfl
  | some s =>
      rcases merge_cases hmerge with ⟨hkind, _⟩ | ⟨hopen, _⟩
      · exact absurd hkind (h.kind_ne_none hget hs)
      · rcases h.settled hget hs with hstage | hstage
        · rw [hstage] at hopen
          cases hopen
        · rw [hstage] at hopen
          cases hopen

theorem change {r' : Registry} (h : r.Faithful) (hchange : Change r r') : r'.Faithful := by
  cases hchange with
  | walk hwalk => exact hwalk.faithful h
  | register hnew hd => exact h.register hnew hd.resolved_eq_none
  | merge hget _ hmerge =>
      have hd := h.resolved_eq_none_of_merge hget hmerge
      rcases merge_cases hmerge with ⟨_, hd', _⟩ | ⟨_, rfl⟩
      · exact h.replace hget hd hd'
      · exact h.replace hget hd hd
  | freeze hget _ =>
      apply h.restage hget
      intro _ _
      exact Or.inr rfl

end Faithful

theorem Reachable.faithful {r : Registry} (hr : r.Reachable) : r.Faithful :=
  hr.invariant faithful_empty Faithful.change

/-!
# Kept shapes are current

A faithful registry has kept what its declarations flatten to, and every
reachable registry is faithful.
-/

/--
A kept shape is the one that the declarations made so far flatten to, and every
shape that the flattening looks at is kept as well.
-/
theorem kept_shape_is_current {r : Registry} (hr : r.Reachable) {id : ShapeId} {s : Shape}
    (hs : r.arena.cached? id = some s) :
    (forall t, r.Flattens id t <-> t = s) ∧
      forall b, r.Reaches id b -> exists t, r.arena.cached? b = some t := by
  have hfaithful := hr.faithful
  constructor
  · intro t
    constructor
    · intro ht
      exact flattens_unique ht (hfaithful.flattens hs)
    · intro heq
      subst heq
      exact hfaithful.flattens hs
  · intro b hb
    exact hfaithful.cached_of_reaches hs hb

def points : Registry :=
  let r := ((declare "Point" .mergeable [("x", .keyword .number)]).run (empty .common)).2
  let r := ((extend "Solid" ["Point"] [("z", .keyword .number)]).run r).2
  let r := ((declareBody "Spot" (.union [.reference ⟨1⟩, .reference ⟨2⟩])).run r).2
  ((resolve ⟨3⟩).run r).2

theorem points_reachable : points.Reachable := by
  have hpoint : Relation.ReflTransGen Step (empty .common) _ :=
    .single (.declare "Point" .mergeable [("x", .keyword .number)])
  have hsolid := hpoint.tail (.extend "Solid" ["Point"] [("z", .keyword .number)])
  have hspot := hsolid.tail (.declareBody "Spot" (.union [.reference ⟨1⟩, .reference ⟨2⟩]))
  exact ⟨.common, hspot.tail (.resolve ⟨3⟩)⟩

theorem kept_shape_is_current_points :
    exists s, points.arena.cached? ⟨3⟩ = some s ∧
      (forall t, points.Flattens ⟨3⟩ t <-> t = s) ∧
      forall b, points.Reaches ⟨3⟩ b -> exists t, points.arena.cached? b = some t := by
  have hkept : (points.arena.cached? ⟨3⟩).isSome = true := by decide +kernel
  rcases Option.isSome_iff_exists.mp hkept with ⟨s, hs⟩
  exact ⟨s, hs, kept_shape_is_current points_reachable hs⟩

end Registry
end Shapes
