import Shapes.Proofs.Registry.Probe
import Shapes.Proofs.Registry.Setback

/-!
# Resolving again

What is resolved is kept, and what is kept takes neither depth nor attempts.  So a name
that resolves goes on to resolve, to the same shape, whatever else is resolved in between.

The limits are those of the whole walk, and a walk that finds more shapes kept leaves out
some visits of the other.  `WalkM.Ahead` says that it is at the same place otherwise; it
is kept by every part of a walk that succeeds.
-/

namespace Shapes
namespace Registry
namespace WalkM

/-- The second walk is at the place of the first one, and has kept no less. -/
structure Ahead (w v : Walk) : Prop where
  same : w.registry.SameDeclarations v.registry
  kept : forall b s, w.registry.arena.cached? b = some s -> v.registry.arena.cached? b = some s
  faithful : w.registry.Faithful
  faithful' : v.registry.Faithful
  trail : w.trail.Beside v.trail
  counted : v.trail.steps ≤ Trail.stepCeiling

/-- What succeeds, succeeds ahead of it with the same value. -/
def Repeats {α : Type} (walk : WalkM α) : Prop :=
  forall ⦃w v a w'⦄, Ahead w v -> walk.run w = (.ok a, w') ->
    exists v', walk.run v = (.ok a, v') ∧ Ahead w' v'

/-!
# Parts of a walk

Each construct of a walk repeats ahead of another run if its parts do.
-/

section Parts

variable {α β : Type}

theorem repeats_pure (a : α) : Repeats (pure a : WalkM α) := by
  intro w v b w' h hrun
  cases hrun
  exact ⟨v, rfl, h⟩

theorem repeats_lift (result : Except Failure α) : Repeats (liftM result : WalkM α) := by
  intro w v b w' h hrun
  rw [run_liftExcept] at hrun
  cases hrun
  exact ⟨v, run_liftExcept _ v, h⟩

theorem Repeats.bind {first : WalkM α} {next : α -> WalkM β} (hfirst : Repeats first)
    (hnext : forall a, Repeats (next a)) : Repeats (first >>= next) := by
  intro w v b w' h hrun
  rcases run_bind_cases hrun with ⟨a, w1, hrun1, hrest⟩ | ⟨_, _, hfailed⟩
  · rcases hfirst h hrun1 with ⟨v1, hrun1', h1⟩
    rcases hnext a h1 hrest with ⟨v', hrest', h'⟩
    refine ⟨v', ?_, h'⟩
    rw [run_bind, hrun1']
    exact hrest'
  · cases hfailed

theorem repeats_mapM {f : α -> WalkM β} {list : List α} (hf : forall a, Repeats (f a)) :
    Repeats (list.mapM f) := by
  induction list with
  | nil => exact repeats_pure []
  | cons a rest ih =>
      rw [List.mapM_cons]
      apply (hf a).bind
      intro first
      apply ih.bind
      intro others
      exact repeats_pure (first :: others)

variable {visit : Route -> ShapeId -> WalkM Shape}

mutual

theorem shapeOf_repeats (hvisit : forall route b, Repeats (visit route b)) :
    forall t : FieldType, Repeats (shapeOf visit t)
  | .keyword word => repeats_pure (Shape.keyword word)
  | .literal value => repeats_pure (Shape.literal value)
  | .reference id => hvisit .reference id
  | .union members =>
      (shapesOf_repeats hvisit members).bind fun shapes => repeats_lift (Shape.unite shapes)
  | .intersection members =>
      (shapesOf_repeats hvisit members).bind fun shapes => repeats_lift (Shape.intersect shapes)

theorem shapesOf_repeats (hvisit : forall route b, Repeats (visit route b)) :
    forall types : List FieldType, Repeats (shapesOf visit types)
  | [] => repeats_pure []
  | t :: rest =>
      (shapeOf_repeats hvisit t).bind fun shape =>
        (shapesOf_repeats hvisit rest).bind fun shapes => repeats_pure (shape :: shapes)

end

theorem parentFields_repeats (hvisit : forall route b, Repeats (visit route b))
    (parent : String) : Repeats (parentFields visit parent) := by
  intro w v fields w' h hrun
  rw [run_parentFields] at hrun
  cases hid : w.registry.lookup? parent with
  | none =>
      rw [hid] at hrun
      cases hrun
  | some id =>
      by_cases hpending : (w.registry.arena.kind? id).isNone = true
      · simp only [hid, if_pos hpending] at hrun
        cases hrun
      · simp only [hid, if_neg hpending] at hrun
        rcases hparent : (visit .parent id).run w with ⟨answer, w1⟩
        rw [hparent] at hrun
        cases answer with
        | error failure => cases hrun
        | ok shape =>
            cases shape with
            | object name found =>
                cases hrun
                rcases hvisit .parent id h hparent with ⟨v', hparent', h'⟩
                refine ⟨v', ?_, h'⟩
                simp only [run_parentFields, h.same.lookup?_eq, h.same.kind?_eq, hid,
                  if_neg hpending, hparent']
            | union | keyword | literal => cases hrun

theorem flatten_repeats (hvisit : forall route b, Repeats (visit route b)) (kind : NameKind)
    (d : Definition) : Repeats (flatten visit kind d) := by
  unfold flatten
  cases kind with
  | mergeable =>
      apply (repeats_mapM fun parent => parentFields_repeats hvisit parent).bind
      intro tables
      exact repeats_pure (Shape.object (some d.name) (Table.inherit tables d.fields))
  | single =>
      cases d.body with
      | none => exact repeats_pure (Shape.object (some d.name) d.fields)
      | some body =>
          apply (shapeOf_repeats hvisit body).bind
          intro shape
          exact repeats_pure (shape.rename d.name)

end Parts

/-!
# Definitions

A write at the same definition keeps one walk ahead of the other, except where
only the first of them keeps a shape by it.
-/

namespace Ahead

variable {w v : Walk} (h : Ahead w v)

include h

theorem setDefinition {id : ShapeId} {d d' e e' : Definition}
    (hd : w.registry.arena.get? id = some d) (hd' : v.registry.arena.get? id = some d')
    (he : d.SameDeclaration e) (he' : d'.SameDeclaration e')
    (hkept : forall s, e.resolved = some s -> e'.resolved = some s)
    (hfaithful : (w.registry.setDefinition id e).Faithful)
    (hfaithful' : (v.registry.setDefinition id e').Faithful) :
    Ahead { w with registry := w.registry.setDefinition id e }
      { v with registry := v.registry.setDefinition id e' } := by
  refine ⟨?_, ?_, hfaithful, hfaithful', h.trail, h.counted⟩
  · have hback := (SameDeclarations.setDefinition hd he).symm
    exact (hback.trans h.same).trans (SameDeclarations.setDefinition hd' he')
  · intro b u hu
    by_cases hb : b = id
    · subst hb
      simp only [Faithful.cached?_setDefinition_self e hd] at hu
      simp only [Faithful.cached?_setDefinition_self e' hd']
      exact hkept u hu
    · simp only [Faithful.cached?_setDefinition_of_ne hb] at hu ⊢
      exact h.kept b u hu

theorem leave (id : ShapeId) :
    Ahead { w with trail := w.trail.leave id } { v with trail := v.trail.leave id } := by
  have hsame := Trail.leave_visiting_depth h.trail.visiting h.trail.depth id
  refine ⟨h.same, h.kept, h.faithful, h.faithful', ⟨?_, hsame.1, hsame.2, ?_⟩, ?_⟩
  · simp only [Trail.leave_limits]
    exact h.trail.limits
  · simp only [Trail.leave_steps]
    exact h.trail.steps
  · simp only [Trail.leave_steps]
    exact h.counted

end Ahead

theorem settle_repeats {visit : Route -> ShapeId -> WalkM Shape} (hsteady : Steady visit)
    (hvisit : forall route b, Repeats (visit route b)) {w v w' : Walk} {id : ShapeId}
    {rest : List ShapeId} {s : Shape} (h : Ahead w v) (hvisiting : w.trail.visiting = id :: rest)
    (hrest : id ∉ rest) (hnone : w.registry.arena.cached? id = none)
    (hnone' : v.registry.arena.cached? id = none)
    (hrun : (settle visit id).run w = (.ok s, w')) :
    exists v', (settle visit id).run v = (.ok s, v') ∧ Ahead w' v' := by
  have hvisiting' : v.trail.visiting = id :: rest := h.trail.visiting.trans hvisiting
  have hid : id ∈ w.trail.visiting := by
    rw [hvisiting]
    exact List.mem_cons_self
  have hid' : id ∈ v.trail.visiting := by
    rw [hvisiting']
    exact List.mem_cons_self
  have hfaithful := (settle_advances hsteady hvisiting hrest hnone hrun).2.1.faithful h.faithful
  rcases settle_cases hsteady hid hrun with ⟨_, ⟨_, hfailed⟩, _⟩ |
    ⟨d, kind, w2, hd, hkind, hflatten, hd2, hend⟩
  · cases hfailed
  · cases hend
    rcases h.same.of_get?_eq_some hd with ⟨d', hd', hsame⟩
    have hresolved : d.resolved = none := (cached?_of_get? hd).symm.trans hnone
    have hresolved' : d'.resolved = none := (cached?_of_get? hd').symm.trans hnone'
    have hmarked := h.setDefinition hd hd' d.sameDeclaration_marked d'.sameDeclaration_marked
      (fun s hs => by rw [Definition.marked_resolved, hresolved] at hs; cases hs)
      (h.faithful.mark hd hresolved) (h.faithful'.mark hd' hresolved')
    rcases flatten_repeats hvisit kind d hmarked hflatten with ⟨v2, hflatten', h2⟩
    rw [← flatten_sameDeclaration visit kind hsame] at hflatten'
    rcases hrun' : (settle visit id).run v with ⟨answer, v'⟩
    have hfaithful' :=
      (settle_advances hsteady hvisiting' hrest hnone' hrun').2.1.faithful h.faithful'
    rcases settle_cases hsteady hid' hrun' with ⟨hpending, _, _⟩ |
      ⟨e, kind', u, he, hkind', hagain, he2, hend'⟩
    · rw [Arena.kind?, hd', Option.bind_some, hsame.kind, hkind] at hpending
      cases hpending
    · rw [hd'] at he
      cases he
      rw [hsame.kind, hkind] at hkind'
      cases hkind'
      rw [hflatten'] at hagain
      cases hagain
      cases hend'
      refine ⟨_, rfl, ?_⟩
      exact h2.setDefinition hd2 he2 ⟨rfl, rfl, rfl, rfl, rfl⟩ ⟨rfl, rfl, rfl, rfl, rfl⟩
        (fun _ hs => hs) hfaithful hfaithful'

/-!
# Visits

A visit of the first walk is a visit of the second, or it finds a shape that the
second has kept, and everything below is kept as well.  No attempt is taken
back.
-/

theorem visitBy_counts {n : Nat} (hn : n ≤ Trail.stepCeiling) {settle : ShapeId -> WalkM Shape}
    {route : Route} {id : ShapeId}
    (hsettle : Passes (fun w => n ≤ w.trail.steps) (fun w => n ≤ w.trail.steps) (settle id)) :
    Passes (fun w => n ≤ w.trail.steps) (fun w => n ≤ w.trail.steps)
      (visitBy settle route id) := by
  intro w result w' hw h
  have hentered : forall entry trail, w.trail.enter id = (entry, trail) -> n ≤ trail.steps := by
    intro entry trail henter
    rw [(Trail.enter_cases henter).2.1]
    omega
  rcases visitBy_cases h with ⟨s, _, rfl, rfl⟩ | ⟨_, entry, trail, henter, _, rfl, rfl⟩ |
    ⟨_, trail, w1, henter, hrun, rfl⟩
  · exact hw
  · exact hentered entry trail henter
  · have hpassed := hsettle (w := { w with trail }) (hentered .entered trail henter) hrun
    cases result with
    | ok s =>
        show n ≤ (w1.trail.leave id).steps
        rw [Trail.leave_steps]
        exact hpassed
    | error failure =>
        show n ≤ (w1.trail.leave id).steps
        rw [Trail.leave_steps]
        exact hpassed

theorem visit_counts {n : Nat} (hn : n ≤ Trail.stepCeiling) (levels : Nat) (route : Route)
    (id : ShapeId) :
    Passes (fun w => n ≤ w.trail.steps) (fun w => n ≤ w.trail.steps)
      (visit levels route id) := by
  induction levels generalizing route id with
  | zero =>
      apply visitBy_counts hn
      intro w result w' hw h
      cases h
      exact hw
  | succ levels ih =>
      apply visitBy_counts hn
      apply settle_passes fun _ hw => hw
      · exact fun _ _ _ hw _ _ => hw
      · exact fun _ _ _ hw _ _ => hw
      · exact fun _ _ _ route b _ _ _ _ => ih route b

theorem run_visit_of_kept {levels : Nat} {route : Route} {id : ShapeId} {w : Walk} {s : Shape}
    (h : w.registry.arena.cached? id = some s) : (visit levels route id).run w = (.ok s, w) := by
  cases levels with
  | zero =>
      show (visitBy _ route id).run w = _
      rw [run_visitBy, h]
  | succ levels =>
      show (visitBy _ route id).run w = _
      rw [run_visitBy, h]

theorem Ahead.of_kept {levels : Nat} {route : Route} {id : ShapeId} {w v w' : Walk}
    {s t : Shape} (h : Ahead w v) (hrun : (visit levels route id).run w = (.ok s, w'))
    (ht : v.registry.arena.cached? id = some t) : t = s ∧ Ahead w' v := by
  rcases visit_steady levels hrun with ⟨hadv, hkept⟩
  have hsame : w'.registry.SameDeclarations v.registry :=
    hadv.registry.sameDeclarations.symm.trans h.same
  have hfaithful := hadv.registry.faithful h.faithful
  have hagree : forall b u u', w'.registry.arena.cached? b = some u ->
      v.registry.arena.cached? b = some u' -> u' = u := by
    intro b u u' hu hu'
    exact flattens_unique (h.faithful'.flattens hu')
      (hsame.flattens_iff.mpr (hfaithful.flattens hu))
  have hconfined : Confined w.registry [id] w'.registry :=
    visit_stays levels route ⟨id, List.mem_cons_self, .refl⟩ (Confined.refl _ _) hrun
  have hsteps : v.trail.steps ≤ w'.trail.steps :=
    visit_counts h.counted levels route id h.trail.steps hrun
  refine ⟨hagree id s t hkept ht, hsame, ?_, hfaithful, h.faithful', ?_, h.counted⟩
  · intro b u hu
    by_cases hb : w.registry.ReachedFrom [id] b
    · have hreach : v.registry.Reaches id b :=
        Relation.ReflTransGen.mono (fun _ _ hab => h.same.depends_iff.mpr hab) _ _
          (reachedFrom_singleton hb)
      rcases h.faithful'.cached_of_reaches ht hreach with ⟨u', hu'⟩
      rw [hu', hagree b u u' hu hu']
    · apply h.kept b u
      rw [← hu, Arena.cached?, Arena.cached?, hconfined.outside b hb]
  · exact ⟨h.trail.limits.trans hadv.limits.symm, h.trail.visiting.trans hadv.visiting.symm,
      h.trail.depth.trans hadv.depth.symm, hsteps⟩

theorem visit_repeats (levels : Nat) (route : Route) (id : ShapeId) :
    Repeats (visit levels route id) := by
  induction levels generalizing route id with
  | zero =>
      intro w v s w' h hrun
      rcases visitBy_cases hrun with ⟨t, ht, hok, rfl⟩ | ⟨_, _, _, _, _, hfailed, _⟩ |
        ⟨_, _, _, _, hexhausted, _⟩
      · cases hok
        exact ⟨v, run_visit_of_kept (h.kept id s ht), h⟩
      · cases hfailed
      · cases hexhausted
  | succ levels ih =>
      intro w v s w' h hrun
      cases hv : v.registry.arena.cached? id with
      | some t =>
          rcases h.of_kept hrun hv with ⟨rfl, hafter⟩
          exact ⟨v, run_visit_of_kept hv, hafter⟩
      | none =>
          rcases visitBy_cases hrun with ⟨t, ht, _, _⟩ | ⟨_, _, _, _, _, hfailed, _⟩ |
            ⟨hnone, trail, w1, henter, hsettle, rfl⟩
          · rw [h.kept id t ht] at hv
            cases hv
          · cases hfailed
          · rcases h.trail.enter henter (by simp) with ⟨trail', henter', hbeside⟩
            rcases Trail.enter_entered henter with ⟨_, _, hnew, _, hvisiting, _⟩
            have hcounted : trail'.steps ≤ Trail.stepCeiling := by
              rw [(Trail.enter_entered henter').2.1]
              exact Nat.min_le_right _ _
            have hentered : Ahead { w with trail } { v with trail := trail' } :=
              ⟨h.same, h.kept, h.faithful, h.faithful', hbeside, hcounted⟩
            rcases settle_repeats (visit_steady levels) ih hentered hvisiting hnew hnone hv
              hsettle with ⟨v1, hsettle', hafter⟩
            refine ⟨{ v1 with trail := v1.trail.leave id }, ?_, hafter.leave id⟩
            show (visitBy _ route id).run v = _
            simp only [run_visitBy, hv, run_inside, henter', hsettle']

end WalkM

/-!
# Resolving

A whole walk that succeeds is repeated ahead of any later one.
-/

theorem resolve_again {r r1 : Registry} (hr : r.Faithful) (hwalk : Walked [] r r1) {id : ShapeId}
    {s : Shape} (h : ((resolve id).run r).1 = .ok s) :
    exists r2, (resolve id).run r1 = (.ok s, r2) := by
  rcases hrun : (WalkM.visit Limits.resolution.maxDepth .root id).run
    ⟨r, Trail.start Limits.resolution⟩ with ⟨answer, w⟩
  rw [run_resolve, hrun] at h
  cases answer with
  | error failure => cases h
  | ok found =>
      cases h
      have hahead : WalkM.Ahead ⟨r, Trail.start Limits.resolution⟩
          ⟨r1, Trail.start Limits.resolution⟩ :=
        ⟨hwalk.sameDeclarations, fun _ _ hs => hwalk.cached? hs, hr, hwalk.faithful hr,
          ⟨rfl, rfl, rfl, Nat.le_refl _⟩, Nat.zero_le _⟩
      rcases WalkM.visit_repeats Limits.resolution.maxDepth .root id hahead hrun with
        ⟨v, hrun', _⟩
      refine ⟨v.registry, ?_⟩
      rw [run_resolve, hrun']
      rfl

end Registry
end Shapes
