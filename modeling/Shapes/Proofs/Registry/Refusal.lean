import Mathlib.Data.Finset.Card
import Shapes.Proofs.Registry.Trace
import Shapes.Proofs.Registry.Walk
import Shapes.Proofs.Shape.Failures

/-!
# Why a walk fails

A walk that fails has met a cycle, has come to the end of its limits, or has
come to a shape that flattens to nothing.  `Registry.Fault` says which, in terms
of the declarations alone.

The number of attempts to enter a shape is bounded on the way: a shape that is
entered with success is kept and never entered again, and after a failure
nothing is entered any more.  `Walk.idle` counts the shapes that can still be
entered.
-/

namespace Shapes

namespace Registry

/-!
# Faults

A fault is said in terms of dependencies, without a trail and without kept
shapes.
-/

/--
Why a walk from some shapes fails: a cycle below them, a path that is too long,
too many attempts, or a shape below them that flattens to nothing.
-/
inductive Fault (r : Registry) (roots : List ShapeId) (steps : Nat) : Failure -> Prop where
  | cycle {id : ShapeId} {name : String} {failure : Failure} :
      r.ReachedFrom roots id -> r.OnCycle id -> r.arena.name? id = some name ->
      failure = .cyclicExtension name ∨ failure = .cyclicReference name ->
      Fault r roots steps failure
  | tooDeep {root : ShapeId} {path : List ShapeId} {name : String} :
      root ∈ roots -> r.FreshPath root path -> Limits.resolution.maxDepth < path.length ->
      Fault r roots steps (.resolutionTooDeep name)
  | tooManySteps {name : String} : Limits.resolution.maxSteps < steps ->
      Fault r roots steps (.resolutionTooDeep name)
  | stuck {id : ShapeId} {failure : Failure} :
      r.ReachedFrom roots id -> (forall s, ¬ r.Flattens id s) ->
      failure.isRefusal = false -> Fault r roots steps failure

/-!
# Counting attempts

Each attempt that succeeds makes an idle shape a kept one, so attempts are paid
for by idle shapes.  A failure is one attempt that nothing pays for.
-/

/-- How many shapes are neither kept nor on the trail. -/
def Walk.idle (w : Walk) : Nat :=
  (w.registry.arena.ids.toFinset.filter fun id =>
    w.registry.arena.cached? id = none ∧ id ∉ w.trail.visiting).card

namespace Walk

theorem idle_le {w w' : Walk} (hindex : w'.registry.index = w.registry.index)
    (h : forall id, w'.registry.arena.cached? id = none -> id ∉ w'.trail.visiting ->
      w.registry.arena.cached? id = none ∧ id ∉ w.trail.visiting) :
    w'.idle ≤ w.idle := by
  have hids : w'.registry.arena.ids = w.registry.arena.ids := congrArg Index.ids hindex
  apply Finset.card_le_card
  intro id hid
  rw [hids, Finset.mem_filter] at hid
  exact Finset.mem_filter.mpr ⟨hid.1, h id hid.2.1 hid.2.2⟩

theorem idle_enter_lt {w : Walk} {trail : Trail ShapeId} {id : ShapeId} {d : Definition}
    (hd : w.registry.arena.get? id = some d) (hnone : w.registry.arena.cached? id = none)
    (hnew : id ∉ w.trail.visiting) (hvisiting : trail.visiting = id :: w.trail.visiting) :
    ({ w with trail } : Walk).idle < w.idle := by
  apply Finset.card_lt_card
  rw [Finset.ssubset_iff_of_subset]
  · have hmem : id ∈ w.registry.arena.ids := Arena.exists_get?_iff_mem_ids.mp ⟨d, hd⟩
    refine ⟨id, Finset.mem_filter.mpr ⟨List.mem_toFinset.mpr hmem, hnone, hnew⟩, ?_⟩
    simp [hvisiting]
  · intro other hother
    simp only [Finset.mem_filter, hvisiting, List.mem_cons, not_or] at hother ⊢
    exact ⟨hother.1, hother.2.1, hother.2.2.2⟩

theorem idle_le_size (w : Walk) : w.idle ≤ w.registry.size := by
  calc w.idle ≤ w.registry.arena.ids.toFinset.card := Finset.card_filter_le _ _
    _ ≤ w.registry.arena.ids.length := List.toFinset_card_le _
    _ = w.registry.size := List.length_map _

/-- A success: each attempt since has made an idle shape a kept one. -/
def Paid (w w' : Walk) : Prop :=
  w'.trail.steps + w'.idle ≤ w.trail.steps + w.idle

/-- A failure: there was one attempt more than idle shapes at most. -/
def Spent (w w' : Walk) : Prop :=
  w'.trail.steps ≤ w.trail.steps + w.idle + 1

theorem Paid.refl (w : Walk) : Paid w w :=
  Nat.le_refl _

theorem Paid.trans {w w' w'' : Walk} (h : Paid w w') (h' : Paid w' w'') : Paid w w'' :=
  Nat.le_trans h' h

theorem Paid.spent {w w' w'' : Walk} (h : Paid w w') (h' : Spent w' w'') : Spent w w'' := by
  unfold Paid at h
  unfold Spent at h' ⊢
  omega

theorem spent_of_paid {w w' : Walk} (h : Paid w w') : Spent w w' := by
  unfold Paid at h
  unfold Spent
  omega

end Walk

/-!
# Walks along dependencies

An account says what a walk came to: it is paid for, or it is spent and a fault
explains it.  What a way to visit shapes has to account for is passed on to
everything that uses it.
-/

/-- A walk from some shapes of a registry, seen while it is under way. -/
structure Course (r : Registry) (roots : List ShapeId) (w : Walk) : Prop where
  same : r.SameDeclarations w.registry
  fresh_before : forall id, w.registry.arena.cached? id = none -> r.arena.cached? id = none
  faithful : w.registry.Faithful
  limits : w.trail.limits = Limits.resolution
  depth : w.trail.depth = w.trail.visiting.length
  trace : r.Trace roots w.trail.visiting
  fresh : forall id, id ∈ w.trail.visiting -> w.registry.arena.cached? id = none

namespace Course

variable {r : Registry} {roots : List ShapeId} {w w' : Walk}

theorem advance (h : Course r roots w) (hadv : WalkM.Advances w w') : Course r roots w' := by
  have hsame := hadv.registry.sameDeclarations
  refine ⟨?_, ?_, hadv.registry.faithful h.faithful,
    hadv.limits.trans h.limits, ?_, ?_, ?_⟩
  · exact h.same.trans hsame
  · intro id hnone
    exact h.fresh_before id (hadv.registry.cached?_eq_none hnone)
  · rw [hadv.depth, hadv.visiting, h.depth]
  · rw [hadv.visiting]
    exact h.trace
  · intro id hid
    rw [hadv.visiting] at hid
    have hunchanged := hadv.registry.unchanged id hid
    have hnone := h.fresh id hid
    simp only [Arena.cached?] at hnone ⊢
    rw [hunchanged]
    exact hnone

theorem enter (h : Course r roots w) {id : ShapeId} {trail : Trail ShapeId}
    (hnext : r.Next roots w.trail.visiting id) (hnone : w.registry.arena.cached? id = none)
    (henter : w.trail.enter id = (.entered, trail)) : Course r roots { w with trail } := by
  rcases Trail.enter_entered henter with ⟨hlimits, _, hnew, _, hvisiting, hdepth⟩
  refine ⟨h.same, h.fresh_before, h.faithful, hlimits.trans h.limits, ?_, ?_, ?_⟩
  · simp only [hdepth, hvisiting, List.length_cons, h.depth]
  · simp only [hvisiting]
    exact .cons hnext hnew h.trace
  · intro b hb
    simp only [hvisiting] at hb
    rcases List.mem_cons.mp hb with rfl | hb
    · exact hnone
    · exact h.fresh b hb

theorem mark (h : Course r roots w) {id : ShapeId} {d : Definition}
    (hd : w.registry.arena.get? id = some d) (hid : id ∈ w.trail.visiting) :
    Course r roots { w with registry := w.registry.setDefinition id d.marked } ∧
      w.Paid { w with registry := w.registry.setDefinition id d.marked } := by
  have hcached := cached?_mark hd
  have hnone : d.resolved = none := by
    rw [← cached?_of_get? hd]
    exact h.fresh id hid
  refine ⟨⟨?_, ?_, h.faithful.mark hd hnone, h.limits, h.depth, h.trace, ?_⟩, ?_⟩
  · exact h.same.trans (.setDefinition hd d.sameDeclaration_marked)
  · intro other hother
    rw [hcached] at hother
    exact h.fresh_before other hother
  · intro other hother
    rw [hcached]
    exact h.fresh other hother
  · apply Nat.add_le_add_left
    refine Walk.idle_le (w := w) (index_setDefinition w.registry id d.marked) ?_
    intro other hother hnew
    rw [hcached] at hother
    exact ⟨hother, hnew⟩

theorem symm_get? (h : Course r roots w) {id : ShapeId} {d : Definition}
    (hd : w.registry.arena.get? id = some d) :
    exists e, r.arena.get? id = some e ∧ e.SameDeclaration d := by
  rcases h.same.symm.of_get?_eq_some hd with ⟨e, he, hsame⟩
  exact ⟨e, he, hsame.symm⟩

theorem flattens_iff (h : Course r roots w) {id : ShapeId} {s : Shape} :
    w.registry.Flattens id s <-> r.Flattens id s :=
  h.same.flattens_iff

end Course

namespace WalkM

/--
The account of a walk from one state to another.  A failure is explained by a
fault or by something at hand that is blocked.
-/
def Accounted {α : Type} (r : Registry) (roots : List ShapeId) (blocked : Prop)
    (w w' : Walk) : Except Failure α -> Prop :=
  Ends (fun _ => w.Paid w') fun failure =>
    w.Spent w' ∧
      (r.Fault roots w'.trail.steps failure ∨ failure.isRefusal = false ∧ blocked)

theorem Accounted.after {α : Type} {r : Registry} {roots : List ShapeId} {blocked : Prop}
    {w w1 w' : Walk} {result : Except Failure α} (hpaid : w.Paid w1)
    (h : Accounted r roots blocked w1 w' result) : Accounted r roots blocked w w' result := by
  cases result with
  | ok a => exact hpaid.trans h
  | error failure => exact ⟨hpaid.spent h.1, h.2⟩

theorem Accounted.error_imp {α β : Type} {r : Registry} {roots : List ShapeId}
    {blocked blocked' : Prop} {w w' : Walk} {failure : Failure}
    (h : Accounted r roots blocked w w' (.error failure : Except Failure α))
    (himp : blocked -> blocked') :
    Accounted r roots blocked' w w' (.error failure : Except Failure β) :=
  ⟨h.1, h.2.imp_right fun hblocked => ⟨hblocked.1, himp hblocked.2⟩⟩

/-- A way to visit shapes that is steady and accounts for what it does. -/
structure Exact (r : Registry) (roots : List ShapeId) (levels : Nat)
    (visit : Route -> ShapeId -> WalkM Shape) : Prop where
  steady : Steady visit
  accounted : forall {route id w result w'}, Course r roots w ->
    w.trail.depth + levels = Limits.resolution.maxDepth ->
    r.Next roots w.trail.visiting id -> (visit route id).run w = (result, w') ->
      Accounted r roots False w w' result

section Flattening

variable {r : Registry} {roots : List ShapeId} {levels : Nat}
  {visit : Route -> ShapeId -> WalkM Shape}

/-!
# Types

The references of a type are visited in order, and the first failure is the
failure of the type.
-/

theorem combine_accounted {members : List FieldType}
    {combine : List Shape -> Except Failure Shape} {w w' : Walk}
    {result : Except Failure Shape} (hvisit : Steady visit) (hcourse : Course r roots w)
    (hnever : forall shapes, NeverRefused (combine shapes))
    (hmembers : forall {w1 result}, (shapesOf visit members).run w = (result, w1) ->
      Accounted r roots (forall shapes, ¬ r.TypesFlatten members shapes) w w1 result)
    (h : (shapesOf visit members >>= fun shapes => liftM (combine shapes) : WalkM Shape).run w =
      (result, w')) :
    Accounted r roots
      (forall shapes s, r.TypesFlatten members shapes -> combine shapes ≠ .ok s) w w' result := by
  rcases run_bind_cases h with ⟨shapes, w1, hshapes, hrest⟩ | ⟨failure, hshapes, rfl⟩
  · rcases shapesOf_advances hvisit hshapes with ⟨hadv, hfrom⟩
    have hpaid : w.Paid w1 := hmembers hshapes
    rw [run_liftExcept] at hrest
    cases hrest
    cases hcombine : combine shapes with
    | ok s => exact hpaid
    | error failure =>
        have hlocal := hnever shapes
        rw [hcombine] at hlocal
        refine ⟨Walk.spent_of_paid hpaid, Or.inr ⟨hlocal, ?_⟩⟩
        intro others s hothers hs
        -- The members flatten to the shapes at hand, which cannot be combined.
        have hnow := hcourse.advance hadv
        have hflat : r.TypesFlatten members shapes :=
          typesFlatten_of_shapesFrom
            (fun _ _ _ hu => hnow.flattens_iff.mp (hnow.faithful.flattens hu)) hfrom
        rw [typesFlatten_unique hothers hflat, hcombine] at hs
        cases hs
  · apply (hmembers hshapes).error_imp
    intro hblocked others s hothers
    exact absurd hothers (hblocked others)

mutual

theorem shapeOf_accounted (hvisit : Exact r roots levels visit) :
    forall {t : FieldType} {w w' : Walk} {result : Except Failure Shape},
      Course r roots w -> w.trail.depth + levels = Limits.resolution.maxDepth ->
      (forall b, b ∈ t.references -> r.Next roots w.trail.visiting b) ->
      (shapeOf visit t).run w = (result, w') ->
        Accounted r roots (forall s, ¬ r.TypeFlattens t s) w w' result
  | .keyword word, w, w', result, _, _, _, h => by
      cases h
      exact Walk.Paid.refl w
  | .literal value, w, w', result, _, _, _, h => by
      cases h
      exact Walk.Paid.refl w
  | .reference id, w, w', result, hcourse, hlevels, hnext, h => by
      have hid := hnext id (by simp [FieldType.references])
      have haccount := hvisit.accounted hcourse hlevels hid h
      cases result with
      | ok s => exact haccount
      | error failure => exact haccount.error_imp False.elim
  | .union members, w, w', result, hcourse, hlevels, hnext, h => by
      have haccount := combine_accounted hvisit.steady hcourse Shape.neverRefused_unite
        (fun hmembers => shapesOf_accounted hvisit hcourse hlevels hnext hmembers) h
      cases result with
      | ok s => exact haccount
      | error failure =>
          apply haccount.error_imp
          intro hblocked s hfound
          rcases hfound with ⟨n, hn⟩
          rcases Option.bind_eq_some_iff.mp hn with ⟨shapes, hshapes, hs⟩
          exact hblocked shapes s ⟨n, hshapes⟩ (toOption_eq_some hs)
  | .intersection members, w, w', result, hcourse, hlevels, hnext, h => by
      have haccount := combine_accounted hvisit.steady hcourse Shape.neverRefused_intersect
        (fun hmembers => shapesOf_accounted hvisit hcourse hlevels hnext hmembers) h
      cases result with
      | ok s => exact haccount
      | error failure =>
          apply haccount.error_imp
          intro hblocked s hfound
          rcases hfound with ⟨n, hn⟩
          rcases Option.bind_eq_some_iff.mp hn with ⟨shapes, hshapes, hs⟩
          exact hblocked shapes s ⟨n, hshapes⟩ (toOption_eq_some hs)

theorem shapesOf_accounted (hvisit : Exact r roots levels visit) :
    forall {types : List FieldType} {w w' : Walk} {result : Except Failure (List Shape)},
      Course r roots w -> w.trail.depth + levels = Limits.resolution.maxDepth ->
      (forall b, b ∈ FieldType.allReferences types -> r.Next roots w.trail.visiting b) ->
      (shapesOf visit types).run w = (result, w') ->
        Accounted r roots (forall shapes, ¬ r.TypesFlatten types shapes) w w' result
  | [], w, w', result, _, _, _, h => by
      cases h
      exact Walk.Paid.refl w
  | t :: rest, w, w', result, hcourse, hlevels, hnext, h => by
      have hnextFirst : forall b, b ∈ t.references -> r.Next roots w.trail.visiting b := by
        intro b hb
        exact hnext b (List.mem_append.mpr (Or.inl hb))
      rcases run_bind_cases h with ⟨shape, w1, hshape, hrest⟩ | ⟨failure, hshape, rfl⟩
      · have hpaid : w.Paid w1 := shapeOf_accounted hvisit hcourse hlevels hnextFirst hshape
        have hadv := (shapeOf_advances hvisit.steady hshape).1
        have hnextRest : forall b, b ∈ FieldType.allReferences rest ->
            r.Next roots w1.trail.visiting b := by
          intro b hb
          rw [hadv.visiting]
          exact hnext b (List.mem_append.mpr (Or.inr hb))
        have hlevels1 : w1.trail.depth + levels = Limits.resolution.maxDepth := by
          rw [hadv.depth]
          exact hlevels
        rcases run_bind_cases hrest with ⟨shapes, w2, hshapes, hdone⟩ | ⟨failure, hshapes, rfl⟩
        · cases hdone
          exact hpaid.trans
            (shapesOf_accounted hvisit (hcourse.advance hadv) hlevels1 hnextRest hshapes)
        · have haccount :=
            shapesOf_accounted hvisit (hcourse.advance hadv) hlevels1 hnextRest hshapes
          apply (haccount.after hpaid).error_imp
          intro hblocked all hall
          rcases typesFlatten_cons hall with ⟨_, others, _, hothers⟩
          exact hblocked others hothers
      · apply (shapeOf_accounted hvisit hcourse hlevels hnextFirst hshape).error_imp
        intro hblocked all hall
        rcases typesFlatten_cons hall with ⟨first, _, hfirst, _⟩
        exact hblocked first hfirst

end

/-!
# Definitions

Parents come first, then the body; a definition that cannot be flattened is
blocked by one of the things it needs.
-/

theorem parentFields_accounted (hvisit : Exact r roots levels visit) {parent : String}
    {w w' : Walk} {result : Except Failure (Table FieldType)} (hcourse : Course r roots w)
    (hlevels : w.trail.depth + levels = Limits.resolution.maxDepth)
    (hnext : forall b, r.lookup? parent = some b -> r.Next roots w.trail.visiting b)
    (h : (parentFields visit parent).run w = (result, w')) :
    Accounted r roots
      (forall n, Definition.parentFrom r.lookup? (r.flattenWithin n) parent = none)
      w w' result := by
  have hlookups := hcourse.same.lookup?_eq
  rcases parentFields_cases h with ⟨rfl, rfl, hmissing⟩ | ⟨id, answer, hlookup, hrun, hanswer⟩
  · refine ⟨Walk.spent_of_paid (Walk.Paid.refl _), Or.inr ⟨rfl, ?_⟩⟩
    intro n
    rw [hlookups] at hmissing
    rcases hmissing with hnone | ⟨id, hlookup, hpending⟩
    · rw [Definition.parentFrom, hnone]
      rfl
    · rw [Definition.parentFrom, hlookup, Option.bind_some,
        flattenWithin_eq_none_of_kind? (hcourse.same.kind?_eq.symm.trans hpending)]
      rfl
  · rw [hlookups] at hlookup
    have haccount := hvisit.accounted hcourse hlevels (hnext id hlookup) hrun
    rcases hvisit.steady hrun with ⟨hadv, hkept⟩
    have hnow := hcourse.advance hadv
    rcases hanswer with ⟨failure, rfl, rfl⟩ | ⟨shape, rfl, hfields, rfl⟩ |
      ⟨shape, fields, rfl, _, rfl⟩
    · exact haccount.error_imp False.elim
    · refine ⟨Walk.spent_of_paid haccount, Or.inr ⟨rfl, ?_⟩⟩
      intro n
      have hflat : r.Flattens id shape := hnow.flattens_iff.mp (hnow.faithful.flattens hkept)
      rw [Definition.parentFrom, hlookup, Option.bind_some]
      cases hother : r.flattenWithin n id with
      | none => rfl
      | some other =>
          rw [flattens_unique ⟨n, hother⟩ hflat]
          exact hfields
    · exact haccount

theorem parents_accounted (hvisit : Exact r roots levels visit) {parents : List String}
    {w w' : Walk} {result : Except Failure (List (Table FieldType))}
    (hcourse : Course r roots w) (hlevels : w.trail.depth + levels = Limits.resolution.maxDepth)
    (hnext : forall b, b ∈ parents.filterMap r.lookup? -> r.Next roots w.trail.visiting b)
    (h : (parents.mapM (parentFields visit)).run w = (result, w')) :
    Accounted r roots
      (forall n, parents.mapM (Definition.parentFrom r.lookup? (r.flattenWithin n)) = none)
      w w' result := by
  induction parents generalizing w w' result with
  | nil =>
      cases h
      exact Walk.Paid.refl w
  | cons p rest ih =>
      rw [List.mapM_cons] at h
      have hnextFirst : forall b, r.lookup? p = some b -> r.Next roots w.trail.visiting b := by
        intro b hb
        exact hnext b (List.mem_filterMap.mpr ⟨p, List.mem_cons_self, hb⟩)
      rcases run_bind_cases h with ⟨fields, w1, hfields, hrest⟩ | ⟨failure, hfields, rfl⟩
      · have hpaid : w.Paid w1 := parentFields_accounted hvisit hcourse hlevels hnextFirst hfields
        have hadv := (parentFields_advances hvisit.steady hfields).1
        have hnextRest : forall b, b ∈ rest.filterMap r.lookup? ->
            r.Next roots w1.trail.visiting b := by
          intro b hb
          rcases List.mem_filterMap.mp hb with ⟨q, hq, hlookup⟩
          rw [hadv.visiting]
          exact hnext b (List.mem_filterMap.mpr ⟨q, List.mem_cons_of_mem p hq, hlookup⟩)
        have hlevels1 : w1.trail.depth + levels = Limits.resolution.maxDepth := by
          rw [hadv.depth]
          exact hlevels
        rcases run_bind_cases hrest with ⟨tables, w2, htables, hdone⟩ | ⟨failure, htables, rfl⟩
        · cases hdone
          exact hpaid.trans (ih (hcourse.advance hadv) hlevels1 hnextRest htables)
        · apply ((ih (hcourse.advance hadv) hlevels1 hnextRest htables).after hpaid).error_imp
          intro hblocked n
          rw [List.mapM_cons, hblocked n]
          cases Definition.parentFrom r.lookup? (r.flattenWithin n) p <;> rfl
      · apply (parentFields_accounted hvisit hcourse hlevels hnextFirst hfields).error_imp
        intro hblocked n
        rw [List.mapM_cons, hblocked n]
        rfl

theorem flatten_accounted (hvisit : Exact r roots levels visit) {kind : NameKind}
    {d : Definition} (hkind : d.kind = some kind) {w w' : Walk}
    {result : Except Failure Shape} (hcourse : Course r roots w)
    (hlevels : w.trail.depth + levels = Limits.resolution.maxDepth)
    (hnext : forall b, b ∈ d.needs r.lookup? -> r.Next roots w.trail.visiting b)
    (h : (flatten visit kind d).run w = (result, w')) :
    Accounted r roots (forall n, d.flattened r.lookup? (r.flattenWithin n) = none)
      w w' result := by
  unfold flatten at h
  unfold Definition.needs at hnext
  unfold Definition.flattened
  rw [hkind] at hnext ⊢
  cases kind with
  | mergeable =>
      rcases run_bind_cases h with ⟨tables, w1, htables, hdone⟩ | ⟨failure, htables, rfl⟩
      · cases hdone
        exact parents_accounted hvisit hcourse hlevels hnext htables
      · apply (parents_accounted hvisit hcourse hlevels hnext htables).error_imp
        intro hblocked n
        simp only [hblocked n, Option.map_none]
  | single =>
      cases hbody : d.body with
      | none =>
          simp only [hbody] at h
          cases h
          exact Walk.Paid.refl w
      | some body =>
          simp only [hbody] at h hnext ⊢
          rcases run_bind_cases h with ⟨shape, w1, hshape, hdone⟩ | ⟨failure, hshape, rfl⟩
          · cases hdone
            exact shapeOf_accounted hvisit hcourse hlevels hnext hshape
          · apply (shapeOf_accounted hvisit hcourse hlevels hnext hshape).error_imp
            intro hblocked n
            cases hfrom : body.shapeFrom (r.flattenWithin n) with
            | none => rfl
            | some s => exact absurd ⟨n, hfrom⟩ (hblocked s)

/-!
# Visits

A visit is refused, finds a kept shape, or enters the shape.  A refusal is a
fault, and an attempt that is let in is paid for by the shape that it enters.
-/

theorem settle_of_get?_eq_none {id : ShapeId} {w : Walk}
    (h : w.registry.arena.get? id = none) :
    (settle visit id).run w = (.error (.unknownShape (w.registry.displayName id)), w) := by
  rw [run_settle, run_begin, h]

theorem paid_keep {w : Walk} {id : ShapeId} {d : Definition} (hid : id ∈ w.trail.visiting) :
    w.Paid { w with registry := w.registry.setDefinition id d } := by
  apply Nat.add_le_add_left
  refine Walk.idle_le (w := w) (index_setDefinition w.registry id d) ?_
  intro other hother hnew
  have hne : other ≠ id := by
    intro heq
    subst heq
    exact hnew hid
  rw [Faithful.cached?_setDefinition_of_ne hne] at hother
  exact ⟨hother, hnew⟩

theorem settle_accounted (hvisit : Exact r roots levels visit) {id : ShapeId}
    {rest : List ShapeId} {w w' : Walk} {result : Except Failure Shape}
    (hcourse : Course r roots w) (hvisiting : w.trail.visiting = id :: rest)
    (hlevels : w.trail.depth + levels = Limits.resolution.maxDepth)
    (h : (settle visit id).run w = (result, w')) :
    Accounted r roots False w w' result := by
  have hreached : r.ReachedFrom roots id := by
    have htrace := hcourse.trace
    rw [hvisiting] at htrace
    cases htrace with
    | cons hnext _ hbefore => exact hbefore.reachedFrom hnext
  have hid : id ∈ w.trail.visiting := by
    rw [hvisiting]
    exact List.mem_cons_self
  rcases settle_cases hvisit.steady hid h with ⟨hpending, ⟨name, rfl⟩, rfl⟩ |
    ⟨d, kind, w2, hd, hkind, hrun, _, hend⟩
  · -- A name that is not declared flattens to nothing.
    refine ⟨Walk.spent_of_paid (.refl _), Or.inl (.stuck hreached ?_ rfl)⟩
    intro s hfound
    rcases hfound with ⟨n, hn⟩
    rw [flattenWithin_eq_none_of_kind? (hcourse.same.kind?_eq.symm.trans hpending)] at hn
    cases hn
  · rcases hcourse.symm_get? hd with ⟨e, he, hsame⟩
    rcases hcourse.mark hd hid with ⟨hmarked, hpaid⟩
    have hnext : forall b, b ∈ d.needs r.lookup? -> r.Next roots w.trail.visiting b := by
      intro b hb
      rw [hvisiting]
      rw [hsame.needs_eq] at hb
      exact ⟨e, he, hb⟩
    have haccount : Accounted r roots _ w w2 result :=
      (flatten_accounted hvisit hkind hmarked hlevels hnext hrun).after hpaid
    cases result with
    | ok s =>
        cases hend
        apply Walk.Paid.trans haccount
        apply paid_keep
        rw [(flatten_advances hvisit.steady hkind hrun).1.visiting]
        exact hid
    | error failure =>
        cases hend
        refine ⟨haccount.1, Or.inl ?_⟩
        rcases haccount.2 with hfault | ⟨hnever, hblocked⟩
        · exact hfault
        · apply Fault.stuck hreached _ hnever
          apply not_flattens_of_flattened he
          intro n
          rw [← hsame.flattened_eq]
          exact hblocked n

theorem visitBy_accounted {settle : ShapeId -> WalkM Shape} {route : Route} {id : ShapeId}
    {w w' : Walk} {result : Except Failure Shape} (hcourse : Course r roots w)
    (hnext : r.Next roots w.trail.visiting id)
    (hinside : forall {trail w1}, w.registry.arena.cached? id = none ->
      w.trail.enter id = (.entered, trail) ->
      (settle id).run { w with trail } = (result, w1) ->
        Accounted r roots False w { w1 with trail := w1.trail.leave id } result)
    (h : (visitBy settle route id).run w = (result, w')) :
    Accounted r roots False w w' result := by
  rcases visitBy_cases h with ⟨s, _, rfl, rfl⟩ |
    ⟨hnone, entry, trail, henter, hrefused, rfl, rfl⟩ | ⟨hnone, trail, w1, henter, hrun, rfl⟩
  · exact Walk.Paid.refl _
  · rcases Trail.enter_cases henter with ⟨_, hsteps, hcases⟩
    have hspent : w.Spent { w with trail } := by
      unfold Walk.Spent
      simp only [hsteps]
      omega
    refine ⟨hspent, Or.inl ?_⟩
    rcases hcases with ⟨rfl, hmany, _⟩ | ⟨rfl, hmem, _⟩ | ⟨rfl, hnew, hdeep, _⟩ | ⟨rfl, _⟩
    · rw [hcourse.limits] at hmany
      exact .tooManySteps hmany
    · have hcycle := hcourse.trace.onCycle hnext hmem
      rcases hcycle.exists_name with ⟨name, hname⟩
      have hdisplay := hcourse.same.displayName_eq hname
      apply Fault.cycle (hcourse.trace.reachedFrom hnext) hcycle hname
      unfold refusal
      rw [hdisplay]
      cases route with
      | root => exact Or.inl rfl
      | parent => exact Or.inl rfl
      | reference => exact Or.inr rfl
    · have hfresh : forall b, b ∈ id :: w.trail.visiting -> r.arena.cached? b = none := by
        intro b hb
        apply hcourse.fresh_before
        rcases List.mem_cons.mp hb with rfl | hb
        · exact hnone
        · exact hcourse.fresh b hb
      rcases hcourse.trace.freshPath hnext hnew hfresh with ⟨root, hroot, hpath⟩
      apply Fault.tooDeep hroot hpath
      rw [hcourse.limits, hcourse.depth] at hdeep
      rw [List.length_reverse, List.length_cons]
      exact Nat.lt_succ_of_le hdeep
    · exact absurd rfl hrefused
  · exact hinside hnone henter hrun

theorem inside_accounted (hvisit : Exact r roots levels visit) {id : ShapeId}
    {trail : Trail ShapeId} {w w1 : Walk} {result : Except Failure Shape}
    (hcourse : Course r roots w)
    (hlevels : w.trail.depth + (levels + 1) = Limits.resolution.maxDepth)
    (hnext : r.Next roots w.trail.visiting id) (hnone : w.registry.arena.cached? id = none)
    (henter : w.trail.enter id = (.entered, trail))
    (hrun : (settle visit id).run { w with trail } = (result, w1)) :
    Accounted r roots False w { w1 with trail := w1.trail.leave id } result := by
  rcases Trail.enter_entered henter with ⟨_, hsteps, hnew, _, hvisiting, hdepth⟩
  have hentered := hcourse.enter hnext hnone henter
  have hstep : trail.steps ≤ w.trail.steps + 1 := by
    rw [hsteps]
    exact Nat.min_le_left _ _
  have haccount : Accounted r roots False { w with trail } w1 result := by
    refine settle_accounted hvisit hentered hvisiting ?_ hrun
    simp only [hdepth]
    omega
  rcases settle_advances (w := { w with trail }) hvisit.steady hvisiting hnew hnone hrun with
    ⟨⟨_, hvisiting1, _⟩, _, hkept⟩
  rcases Trail.leave_entered (hvisiting1.trans hvisiting) with ⟨_, hsteps2, hvisiting2, _⟩
  cases hd : w.registry.arena.get? id with
  | none =>
      rw [settle_of_get?_eq_none (w := { w with trail }) hd] at hrun
      cases hrun
      refine ⟨?_, ?_⟩
      · unfold Walk.Spent
        simp only [hsteps2]
        omega
      · simp only [hsteps2]
        exact haccount.2
  | some d =>
      have hidle := Walk.idle_enter_lt hd hnone hnew hvisiting
      cases result with
      | error failure =>
          refine ⟨?_, ?_⟩
          · have hspent := haccount.1
            unfold Walk.Spent at hspent ⊢
            simp only [hsteps2] at hspent ⊢
            omega
          · simp only [hsteps2]
            exact haccount.2
      | ok s =>
          -- The shape is kept by now, so leaving it makes nothing idle.
          have hleft : ({ w1 with trail := w1.trail.leave id } : Walk).idle ≤ w1.idle := by
            refine Walk.idle_le (w := w1) rfl ?_
            intro other hother hfree
            refine ⟨hother, ?_⟩
            simp only [hvisiting2] at hfree
            rw [hvisiting1, hvisiting]
            intro hmem
            rcases List.mem_cons.mp hmem with rfl | hmem
            · rw [show w1.registry.arena.cached? other = some s from hkept] at hother
              cases hother
            · exact hfree hmem
          have hpaid : ({ w with trail } : Walk).Paid w1 := haccount
          show w.Paid _
          unfold Walk.Paid at hpaid ⊢
          simp only [hsteps2] at hpaid ⊢
          omega

theorem visit_exact (levels : Nat) : Exact r roots levels (WalkM.visit levels) := by
  induction levels with
  | zero =>
      refine ⟨visit_steady 0, ?_⟩
      intro route id w result w' hcourse hlevels hnext h
      refine visitBy_accounted hcourse hnext ?_ h
      intro trail w1 _ henter _
      -- With no level left the trail is full and lets nothing in.
      rcases Trail.enter_entered henter with ⟨_, _, _, hdepth, _⟩
      rw [hcourse.limits] at hdepth
      omega
  | succ levels ih =>
      refine ⟨visit_steady (levels + 1), ?_⟩
      intro route id w result w' hcourse hlevels hnext h
      refine visitBy_accounted hcourse hnext ?_ h
      intro trail w1 hnone henter hrun
      exact inside_accounted ih hcourse hlevels hnext hnone henter hrun

end Flattening
end WalkM
end Registry
end Shapes
