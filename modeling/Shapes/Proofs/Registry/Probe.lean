import Shapes.Proofs.Registry.History
import Shapes.Proofs.Registry.Refusal
import Shapes.Proofs.Registry.Relabel

/-!
# Answers that do not depend on kept shapes

A walk stops where a shape is kept, and goes on below the shape where it is not kept
yet.  The answer is the same, also when it is a failure: what is below a shape that can
be flattened is no cause of failures, so the first cause that a walk meets is the first
one that it would meet if nothing were kept.

`Registry.probe` is the answer of a visit that looks at no kept shape and keeps none.
In a small registry every visit gives that answer, whatever is kept: the shapes on a
trail are distinct and declared, so the trail is never too long, and attempts are few.
-/

namespace Shapes
namespace Registry

/-- The state in which a walk over a registry starts. -/
def Walk.begun (r : Registry) : Walk :=
  ⟨r, Trail.start Limits.resolution⟩

namespace WalkM

/-- A way to visit shapes whose answers are known beforehand. -/
def given (find : Route -> ShapeId -> Except Failure Shape) (route : Route) (id : ShapeId) :
    WalkM Shape :=
  liftM (find route id)

end WalkM

/-- The answer of a visit to a shape, with so many levels left and a trail of shapes. -/
def probe (r : Registry) : Nat -> List ShapeId -> Route -> ShapeId -> Except Failure Shape
  | 0, trail, route, id =>
      .error (WalkM.refusal r route id (if id ∈ trail then .cycle else .tooDeep))
  | levels + 1, trail, route, id =>
      if id ∈ trail then .error (WalkM.refusal r route id .cycle)
      else
        match ((WalkM.begin id).run (.begun r)).1 with
        | .error failure => .error failure
        | .ok (kind, d) =>
            ((WalkM.flatten (WalkM.given (r.probe levels (id :: trail))) kind d).run
              (.begun r)).1

/-!
# Shapes that can be flattened

Where the answers of all visits are known and successful, a flattening succeeds,
and on a trace of distinct shapes there is always room for the next one.
-/

namespace WalkM

section Given

variable {find : Route -> ShapeId -> Except Failure Shape} {known : ShapeId -> Option Shape}

theorem run_given (route : Route) (id : ShapeId) (w : Walk) :
    (given find route id).run w = (find route id, w) :=
  run_liftExcept _ _

mutual

theorem shapeOf_given {w : Walk} :
    forall {t : FieldType} {s : Shape},
      (forall b, b ∈ t.references -> forall u, known b = some u ->
        forall route, find route b = .ok u) ->
      t.shapeFrom known = some s -> (shapeOf (given find) t).run w = (.ok s, w)
  | .keyword word, s, _, h => by
      cases h
      rfl
  | .literal value, s, _, h => by
      cases h
      rfl
  | .reference id, s, hfind, h => by
      rw [shapeOf, run_given, hfind id (by simp [FieldType.references]) s h]
  | .union members, s, hfind, h => by
      rcases Option.bind_eq_some_iff.mp h with ⟨shapes, hshapes, hs⟩
      rw [shapeOf, run_bind, shapesOf_given hfind hshapes]
      exact (run_liftExcept _ _).trans (by rw [toOption_eq_some hs])
  | .intersection members, s, hfind, h => by
      rcases Option.bind_eq_some_iff.mp h with ⟨shapes, hshapes, hs⟩
      rw [shapeOf, run_bind, shapesOf_given hfind hshapes]
      exact (run_liftExcept _ _).trans (by rw [toOption_eq_some hs])

theorem shapesOf_given {w : Walk} :
    forall {types : List FieldType} {shapes : List Shape},
      (forall b, b ∈ FieldType.allReferences types -> forall u, known b = some u ->
        forall route, find route b = .ok u) ->
      FieldType.shapesFrom known types = some shapes ->
        (shapesOf (given find) types).run w = (.ok shapes, w)
  | [], shapes, _, h => by
      cases h
      rfl
  | t :: rest, shapes, hfind, h => by
      rcases FieldType.shapesFrom_cons_eq_some_iff.mp h with ⟨shape, others, hshape, hothers, rfl⟩
      have hfirst := shapeOf_given (w := w)
        (fun b hb => hfind b (List.mem_append.mpr (Or.inl hb))) hshape
      have hrest := shapesOf_given (w := w)
        (fun b hb => hfind b (List.mem_append.mpr (Or.inr hb))) hothers
      rw [shapesOf, run_bind, hfirst]
      simp only [run_bind, hrest]
      rfl

end

theorem parents_given {w : Walk} {parents : List String} {tables : List (Table FieldType)}
    (hkind : forall b u, known b = some u -> w.registry.arena.kind? b ≠ none)
    (hfind : forall b, b ∈ parents.filterMap w.registry.lookup? -> forall u, known b = some u ->
      forall route, find route b = .ok u)
    (h : parents.mapM (Definition.parentFrom w.registry.lookup? known) = some tables) :
    (parents.mapM (parentFields (given find))).run w = (.ok tables, w) := by
  induction parents generalizing tables with
  | nil =>
      cases h
      rfl
  | cons p rest ih =>
      rcases Definition.mapM_eq_some_cons_iff.mp h with ⟨fields, others, hp, hrest, rfl⟩
      rcases Option.bind_eq_some_iff.mp hp with ⟨shape, hshape, hfields⟩
      rcases Option.bind_eq_some_iff.mp hshape with ⟨id, hid, hfound⟩
      have hfirst : (parentFields (given find) p).run w = (.ok fields, w) := by
        have hmem : id ∈ (p :: rest).filterMap w.registry.lookup? :=
          List.mem_filterMap.mpr ⟨p, List.mem_cons_self, hid⟩
        rw [run_parentFields, hid]
        simp only [Option.isNone_iff_eq_none, hkind id shape hfound, if_false, run_given,
          hfind id hmem shape hfound .parent]
        cases shape with
        | object name own =>
            cases hfields
            rfl
        | union | keyword | literal => cases hfields
      have hothers := ih (fun b hb => hfind b (by
        rcases List.mem_filterMap.mp hb with ⟨q, hq, hqb⟩
        exact List.mem_filterMap.mpr ⟨q, List.mem_cons_of_mem p hq, hqb⟩)) hrest
      rw [List.mapM_cons, run_bind, hfirst]
      simp only [run_bind, hothers]
      rfl

theorem flatten_given {w : Walk} {kind : NameKind} {d : Definition} {s : Shape}
    (hd : d.kind = some kind)
    (hkind : forall b u, known b = some u -> w.registry.arena.kind? b ≠ none)
    (hfind : forall b, b ∈ d.needs w.registry.lookup? -> forall u, known b = some u ->
      forall route, find route b = .ok u)
    (h : d.flattened w.registry.lookup? known = some s) :
    (flatten (given find) kind d).run w = (.ok s, w) := by
  unfold Definition.flattened at h
  unfold Definition.needs at hfind
  unfold flatten
  rw [hd] at h hfind
  cases kind with
  | mergeable =>
      rcases Option.map_eq_some_iff.mp h with ⟨tables, htables, rfl⟩
      dsimp only
      rw [run_bind, parents_given hkind hfind htables]
      rfl
  | single =>
      cases hbody : d.body with
      | none =>
          simp only [hbody] at h
          cases h
          rfl
      | some body =>
          simp only [hbody] at h hfind
          rcases Option.map_eq_some_iff.mp h with ⟨shape, hshape, rfl⟩
          dsimp only
          rw [run_bind, shapeOf_given hfind hshape]
          rfl

end Given

end WalkM

theorem Trace.room {r : Registry} {roots trail : List ShapeId} {id : ShapeId} {s : Shape}
    (htrace : r.Trace roots trail) (hnext : r.Next roots trail id) (h : r.Flattens id s) :
    id ∉ trail ∧ trail.length < r.size := by
  have hnew : id ∉ trail := by
    intro hmem
    exact not_onCycle_of_flattens h (htrace.onCycle hnext hmem)
  have hdeclared : forall b, b ∈ id :: trail -> exists d, r.arena.get? b = some d := by
    intro b hb
    rcases List.mem_cons.mp hb with rfl | hb
    · rcases h with ⟨levels, hlevels⟩
      rcases flattenWithin_succ_eq_some_iff.mp (flattenWithin_succ hlevels) with ⟨d, hd, _⟩
      exact ⟨d, hd⟩
    · rcases Relation.TransGen.head'_iff.mp (htrace.reaches_next hb hnext) with
        ⟨_, ⟨d, hd, _⟩, _⟩
      exact ⟨d, hd⟩
  exact ⟨hnew, length_le_size (List.nodup_cons.mpr ⟨hnew, htrace.nodup⟩) hdeclared⟩

theorem probe_of_flattens {r : Registry} {roots : List ShapeId} {levels : Nat}
    {trail : List ShapeId} {route : Route} {id : ShapeId} {s : Shape}
    (hlevels : r.size ≤ trail.length + levels) (htrace : r.Trace roots trail)
    (hnext : r.Next roots trail id) (h : r.Flattens id s) :
    r.probe levels trail route id = .ok s := by
  induction levels generalizing trail route id s with
  | zero => exact absurd (htrace.room hnext h).2 (Nat.not_lt_of_le hlevels)
  | succ levels ih =>
      have hnew := (htrace.room hnext h).1
      rcases h with ⟨n, hn⟩
      rcases flattenWithin_succ_eq_some_iff.mp (flattenWithin_succ hn) with ⟨d, hd, hflat⟩
      rw [probe, if_neg hnew, WalkM.run_begin]
      simp only [Walk.begun, hd]
      cases hkind : d.kind with
      | none => simp [Definition.flattened, hkind] at hflat
      | some kind =>
          dsimp only
          rw [WalkM.flatten_given hkind _ _ hflat]
          · intro b u hu hnone
            rw [flattenWithin_eq_none_of_kind? hnone] at hu
            cases hu
          · intro b hb u hu route
            refine ih ?_ (.cons hnext hnew htrace) ⟨d, hd, hb⟩ ⟨n, hu⟩
            rw [List.length_cons]
            omega

/-!
# Walks that are told the answers

A walk is compared with one that is told the answers of its visits and changes
nothing.
-/

namespace WalkM

/--
From some states a walk gives the answer that another one gives, which changes nothing.
As long as it succeeds it stays among these states.
-/
def Tells {α : Type} (now : Walk -> Prop) (base : Walk) (told walk : WalkM α) : Prop :=
  (told.run base).2 = base ∧
    forall w, now w ->
      (walk.run w).1 = (told.run base).1 ∧ forall a, (walk.run w).1 = .ok a -> now (walk.run w).2

section Tells

variable {α β : Type} {now : Walk -> Prop} {base : Walk}

theorem Tells.lift (result : Except Failure α) :
    Tells now base (liftM result) (liftM result) := by
  refine ⟨by rw [run_liftExcept], ?_⟩
  intro w hw
  rw [run_liftExcept, run_liftExcept]
  exact ⟨rfl, fun _ _ => hw⟩

theorem Tells.pure (a : α) : Tells now base (Pure.pure a) (Pure.pure a) :=
  ⟨rfl, fun _ hw => ⟨rfl, fun _ _ => hw⟩⟩

theorem Tells.bind {told walk : WalkM α} {next next' : α -> WalkM β}
    (h : Tells now base told walk) (hnext : forall a, Tells now base (next a) (next' a)) :
    Tells now base (told >>= next) (walk >>= next') := by
  rcases h with ⟨hstill, hwalk⟩
  rcases htold : told.run base with ⟨answer, after⟩
  rw [htold] at hstill hwalk
  cases hstill
  constructor
  · rw [run_bind, htold]
    cases answer with
    | error failure => rfl
    | ok a => exact (hnext a).1
  · intro w hw
    rcases hwalk w hw with ⟨hanswer, hnow⟩
    rcases hrun : walk.run w with ⟨result, w1⟩
    rw [hrun] at hanswer hnow
    cases hanswer
    rw [run_bind, run_bind, htold, hrun]
    cases answer with
    | error failure => exact ⟨rfl, nofun⟩
    | ok a => exact (hnext a).2 w1 (hnow a rfl)

theorem Tells.mapM {list : List α} {m m' : α -> WalkM β}
    (h : forall a, a ∈ list -> Tells now base (m a) (m' a)) :
    Tells now base (list.mapM m) (list.mapM m') := by
  induction list with
  | nil => exact .pure []
  | cons a rest ih =>
      rw [List.mapM_cons, List.mapM_cons]
      apply (h a List.mem_cons_self).bind
      intro b
      apply (ih fun c hc => h c (List.mem_cons_of_mem a hc)).bind
      intro bs
      exact .pure (b :: bs)

variable {visit visit' : Route -> ShapeId -> WalkM Shape}

mutual

theorem shapeOf_tells : forall {t : FieldType},
    (forall route b, b ∈ t.references -> Tells now base (visit route b) (visit' route b)) ->
      Tells now base (shapeOf visit t) (shapeOf visit' t)
  | .keyword word, _ => .pure (Shape.keyword word)
  | .literal value, _ => .pure (Shape.literal value)
  | .reference id, h => h .reference id (by simp [FieldType.references])
  | .union _, h => (shapesOf_tells h).bind fun shapes => .lift (Shape.unite shapes)
  | .intersection _, h => (shapesOf_tells h).bind fun shapes => .lift (Shape.intersect shapes)

theorem shapesOf_tells : forall {types : List FieldType},
    (forall route b, b ∈ FieldType.allReferences types ->
      Tells now base (visit route b) (visit' route b)) ->
      Tells now base (shapesOf visit types) (shapesOf visit' types)
  | [], _ => .pure []
  | t :: rest, h => by
      have hfirst : Tells now base (shapeOf visit t) (shapeOf visit' t) :=
        shapeOf_tells fun route b hb => h route b (List.mem_append.mpr (Or.inl hb))
      have hrest : Tells now base (shapesOf visit rest) (shapesOf visit' rest) :=
        shapesOf_tells fun route b hb => h route b (List.mem_append.mpr (Or.inr hb))
      exact hfirst.bind fun shape => hrest.bind fun shapes => .pure (shape :: shapes)

end

/-- The names in the states at hand are those in the state that is told from. -/
structure SameNames (now : Walk -> Prop) (base : Walk) : Prop where
  lookup? : forall w, now w -> w.registry.lookup? = base.registry.lookup?
  kind? : forall w, now w -> forall id,
    w.registry.arena.kind? id = base.registry.arena.kind? id

theorem parentFields_tells (hnames : SameNames now base) {parent : String}
    (h : forall id, base.registry.lookup? parent = some id ->
      Tells now base (visit .parent id) (visit' .parent id)) :
    Tells now base (parentFields visit parent) (parentFields visit' parent) := by
  cases hid : base.registry.lookup? parent with
  | none =>
      refine ⟨by rw [run_parentFields, hid], ?_⟩
      intro w hw
      rw [run_parentFields, run_parentFields, hnames.lookup? w hw, hid]
      exact ⟨rfl, nofun⟩
  | some id =>
      by_cases hpending : (base.registry.arena.kind? id).isNone = true
      · refine ⟨by simp only [run_parentFields, hid, if_pos hpending], ?_⟩
        intro w hw
        simp only [run_parentFields, hnames.lookup? w hw, hid, hnames.kind? w hw,
          if_pos hpending]
        exact ⟨trivial, nofun⟩
      · rcases h id hid with ⟨hstill, hwalk⟩
        rcases htold : (visit .parent id).run base with ⟨answer, after⟩
        rw [htold] at hstill hwalk
        dsimp only at hstill
        subst hstill
        constructor
        · simp only [run_parentFields, hid, if_neg hpending, htold]
          cases answer with
          | error failure => rfl
          | ok shape => cases shape <;> rfl
        · intro w hw
          rcases hwalk w hw with ⟨hanswer, hnow⟩
          rcases hrun : (visit' .parent id).run w with ⟨result, w1⟩
          rw [hrun] at hanswer hnow
          cases hanswer
          simp only [run_parentFields, hnames.lookup? w hw, hid, hnames.kind? w hw,
            if_neg hpending, htold, hrun]
          cases answer with
          | error failure => exact ⟨rfl, nofun⟩
          | ok shape =>
              cases shape with
              | object name fields => exact ⟨rfl, fun _ _ => hnow _ rfl⟩
              | union | keyword | literal => exact ⟨rfl, nofun⟩

theorem flatten_tells (hnames : SameNames now base) {kind : NameKind} {d : Definition}
    (hkind : d.kind = some kind)
    (h : forall route b, b ∈ d.needs base.registry.lookup? ->
      Tells now base (visit route b) (visit' route b)) :
    Tells now base (flatten visit kind d) (flatten visit' kind d) := by
  unfold Definition.needs at h
  unfold flatten
  rw [hkind] at h
  cases kind with
  | mergeable =>
      apply Tells.bind
      · apply Tells.mapM
        intro parent hparent
        apply parentFields_tells hnames
        intro id hid
        exact h .parent id (List.mem_filterMap.mpr ⟨parent, hparent, hid⟩)
      · intro tables
        exact .pure (Shape.object (some d.name) (Table.inherit tables d.fields))
  | single =>
      cases hbody : d.body with
      | none => exact .pure (Shape.object (some d.name) d.fields)
      | some body =>
          simp only [hbody] at h
          apply (shapeOf_tells h).bind
          intro shape
          exact .pure (shape.rename d.name)

end Tells

/-!
# Visits in a small registry

In a small registry a visit is never refused for the number of attempts.  It is
ready for what it needs after it has entered a shape, and the answer of its
needs is the one that was told.
-/

theorem flatten_sameDeclaration (visit : Route -> ShapeId -> WalkM Shape) (kind : NameKind)
    {d d' : Definition} (h : d.SameDeclaration d') :
    flatten visit kind d' = flatten visit kind d := by
  simp only [flatten, h.name, h.fields, h.parents, h.body]

theorem run_finish_fst (id : ShapeId) (result : Except Failure Shape) (w : Walk) :
    ((finish id result).run w).1 = result := by
  rw [run_finish]
  cases w.registry.arena.get? id <;> cases result <;> rfl

end WalkM

/-- A walk over a registry, seen with a given trail and with enough attempts left. -/
structure Ready (r : Registry) (roots trail : List ShapeId) (w : Walk) : Prop where
  course : Course r roots w
  visiting : w.trail.visiting = trail
  attempts : w.trail.steps + w.idle ≤ r.size

namespace Ready

variable {r : Registry} {roots trail : List ShapeId}

theorem sameNames (r : Registry) (roots trail : List ShapeId) :
    WalkM.SameNames (Ready r roots trail) (.begun r) := by
  constructor
  · intro w hw
    exact hw.course.same.lookup?_eq
  · intro w hw id
    exact hw.course.same.kind?_eq

variable {w : Walk} {levels : Nat} (h : Ready r roots trail w)
  (hlevels : trail.length + levels = Limits.resolution.maxDepth)

include h

theorem depth : w.trail.depth = trail.length := by
  rw [h.course.depth, h.visiting]

theorem trace : r.Trace roots trail := by
  rw [← h.visiting]
  exact h.course.trace

theorem enter_ne_tooManySteps (hsmall : r.size ≤ Limits.resolution.maxDepth) {id : ShapeId}
    {t : Trail ShapeId} (henter : w.trail.enter id = (.tooManySteps, t)) : False := by
  rcases Trail.enter_cases henter with ⟨_, hsteps, hcases⟩
  rcases hcases with ⟨_, hmany, _⟩ | ⟨hother, _⟩ | ⟨hother, _⟩ | ⟨hother, _⟩
  · have hattempts := h.attempts
    rw [h.course.limits] at hmany
    have hfew : Limits.resolution.maxDepth + 1 ≤ Limits.resolution.maxSteps := by decide
    have hstep := Nat.min_le_left (w.trail.steps + 1) Trail.stepCeiling
    omega
  · cases hother
  · cases hother
  · cases hother

include hlevels

theorem visited {route : Route} {id : ShapeId} (hnext : r.Next roots trail id) {s : Shape}
    {w' : Walk} (hrun : (WalkM.visit levels route id).run w = (.ok s, w')) :
    Ready r roots trail w' := by
  have hexact : WalkM.Exact r roots levels (WalkM.visit levels) := WalkM.visit_exact levels
  have hadv := (hexact.steady hrun).1
  have hpaid : w.Paid w' := hexact.accounted h.course (by rw [h.depth]; exact hlevels)
    (by rw [h.visiting]; exact hnext) hrun
  exact ⟨h.course.advance hadv, hadv.visiting.trans h.visiting,
    Nat.le_trans hpaid h.attempts⟩

omit hlevels in
theorem entered {id : ShapeId} {d : Definition} {t : Trail ShapeId}
    (hnext : r.Next roots trail id) (hnone : w.registry.arena.cached? id = none)
    (hd : w.registry.arena.get? id = some d) (henter : w.trail.enter id = (.entered, t)) :
    Ready r roots (id :: trail)
      { registry := w.registry.setDefinition id d.marked, trail := t } := by
  rcases Trail.enter_entered henter with ⟨_, hsteps, hnew, _, hvisiting, _⟩
  have hcourse := h.course.enter (by rw [h.visiting]; exact hnext) hnone henter
  rcases hcourse.mark hd (by rw [hvisiting]; exact List.mem_cons_self) with ⟨hmarked, hpaid⟩
  refine ⟨hmarked, by rw [hvisiting, h.visiting], Nat.le_trans hpaid ?_⟩
  -- The attempt is paid for by the shape, which is idle no more.
  have hidle := Walk.idle_enter_lt hd hnone hnew hvisiting
  have hstep := Nat.min_le_left (w.trail.steps + 1) Trail.stepCeiling
  have hattempts := h.attempts
  rw [← hsteps] at hstep
  dsimp only
  omega

end Ready

namespace WalkM

variable {r : Registry} {roots trail : List ShapeId} {levels : Nat} {w : Walk} {route : Route}
  {id : ShapeId}

theorem visitBy_answer {settle : ShapeId -> WalkM Shape}
    (hsmall : r.size ≤ Limits.resolution.maxDepth)
    (hlevels : trail.length + levels = Limits.resolution.maxDepth)
    (hnext : r.Next roots trail id) (hw : Ready r roots trail w)
    (hinside : forall {t result w1}, w.registry.arena.cached? id = none ->
      w.trail.enter id = (.entered, t) -> (settle id).run { w with trail := t } = (result, w1) ->
        result = r.probe levels trail route id) :
    ((visitBy settle route id).run w).1 = r.probe levels trail route id := by
  rcases hrun : (visitBy settle route id).run w with ⟨result, w'⟩
  rcases visitBy_cases hrun with ⟨s, hcached, rfl, _⟩ |
    ⟨_, entry, t, henter, hrefused, rfl, _⟩ | ⟨hnone, t, w1, henter, hsettle, _⟩
  · have hflat := hw.course.flattens_iff.mp (hw.course.faithful.flattens hcached)
    exact (probe_of_flattens (by omega) hw.trace hnext hflat).symm
  · have hrefusal : refusal w.registry route id entry = refusal r route id entry := by
      unfold refusal
      rw [hw.course.same.displayNames_eq]
    rw [hrefusal]
    rcases Trail.enter_cases henter with ⟨_, _, hcases⟩
    rw [hw.visiting, hw.course.limits, hw.depth] at hcases
    rcases hcases with ⟨rfl, _⟩ | ⟨rfl, hmem, _⟩ | ⟨rfl, hnew, hdeep, _⟩ | ⟨rfl, _⟩
    · exact absurd henter fun henter => hw.enter_ne_tooManySteps hsmall henter
    · cases levels with
      | zero => simp only [probe, if_pos hmem]
      | succ levels => simp only [probe, if_pos hmem]
    · cases levels with
      | zero => simp only [probe, if_neg hnew]
      | succ levels => omega
    · exact absurd rfl hrefused
  · exact hinside hnone henter hsettle

theorem tells_of_answer (hlevels : trail.length + levels = Limits.resolution.maxDepth)
    (hnext : r.Next roots trail id)
    (h : forall w, Ready r roots trail w ->
      ((visit levels route id).run w).1 = r.probe levels trail route id) :
    Tells (Ready r roots trail) (.begun r) (given (r.probe levels trail) route id)
      (visit levels route id) := by
  refine ⟨by rw [run_given], ?_⟩
  intro w hw
  rw [run_given]
  refine ⟨h w hw, ?_⟩
  intro s hs
  exact hw.visited hlevels hnext (Prod.ext hs rfl)

theorem visit_answer (hsmall : r.size ≤ Limits.resolution.maxDepth)
    (hlevels : trail.length + levels = Limits.resolution.maxDepth)
    (hnext : r.Next roots trail id) (hw : Ready r roots trail w) :
    ((visit levels route id).run w).1 = r.probe levels trail route id := by
  induction levels generalizing trail w route id with
  | zero =>
      apply visitBy_answer hsmall hlevels hnext hw
      intro t result w1 _ henter _
      rcases Trail.enter_entered henter with ⟨_, _, _, hdepth, _⟩
      rw [hw.course.limits, hw.depth] at hdepth
      omega
  | succ levels ih =>
      apply visitBy_answer hsmall hlevels hnext hw
      intro t result w1 hnone henter hrun
      have hnew : id ∉ trail := by
        rw [← hw.visiting]
        exact (Trail.enter_entered henter).2.2.1
      have hresult : result = ((settle (visit levels) id).run { w with trail := t }).1 := by
        rw [hrun]
      rw [hresult, probe, if_neg hnew, run_settle, run_begin, run_begin]
      dsimp only [Walk.begun]
      cases hd : w.registry.arena.get? id with
      | none =>
          have he : r.arena.get? id = none := by
            cases he : r.arena.get? id with
            | none => rfl
            | some e =>
                rcases hw.course.same.of_get?_eq_some he with ⟨d, hd', _⟩
                rw [hd] at hd'
                cases hd'
          rw [he, hw.course.same.displayNames_eq]
      | some d =>
          rcases hw.course.symm_get? hd with ⟨e, he, hsame⟩
          rw [he]
          simp only [hsame.kind]
          cases hkind : e.kind with
          | none => simp only [hsame.name]
          | some kind =>
              dsimp only
              rw [run_finish_fst, flatten_sameDeclaration _ _ hsame]
              have hready := hw.entered hnext hnone hd henter
              have htells : Tells (Ready r roots (id :: trail)) (.begun r)
                  (flatten (given (r.probe levels (id :: trail))) kind e)
                  (flatten (visit levels) kind e) := by
                apply flatten_tells (Ready.sameNames r roots (id :: trail)) hkind
                intro route b hb
                have hlevels' : (id :: trail).length + levels = Limits.resolution.maxDepth := by
                  rw [List.length_cons]
                  omega
                apply tells_of_answer hlevels' ⟨e, he, hb⟩
                intro w hw
                exact ih hlevels' ⟨e, he, hb⟩ hw
              exact (htells.2 _ hready).1

end WalkM

/-!
# Resolving

A later registry has the same declarations and has kept some shapes that they
flatten to.
-/

/-- A registry after some shapes have been looked at and kept. -/
structure Later (r r' : Registry) : Prop where
  same : r.SameDeclarations r'
  policy : r'.policy = r.policy
  fresh_before : forall id, r'.arena.cached? id = none -> r.arena.cached? id = none
  faithful : r'.Faithful

namespace Later

variable {r r' : Registry}

theorem refl (hr : r.Faithful) : Later r r :=
  ⟨(Walked.refl [] r).sameDeclarations, rfl, fun _ h => h, hr⟩

theorem walked (h : Later r r') {r'' : Registry} (hwalk : Walked [] r' r'') : Later r r'' :=
  ⟨h.same.trans hwalk.sameDeclarations, hwalk.policy.trans h.policy,
    fun id hnone => h.fresh_before id (hwalk.cached?_eq_none hnone), hwalk.faithful h.faithful⟩

theorem ready (h : Later r r') (roots : List ShapeId) : Ready r roots [] (.begun r') := by
  refine ⟨⟨h.same, h.fresh_before, h.faithful, rfl, rfl, .nil, ?_⟩, rfl, ?_⟩
  · intro b hb
    cases hb
  · have hidle := Walk.idle_le_size (.begun r')
    have hsize : (Walk.begun r').registry.size = r.size := h.same.size_eq
    change 0 + _ ≤ _
    omega

/-!
# What later registries answer

All of them answer what the first one would.
-/

theorem resolve (h : Later r r') (id : ShapeId) : Later r ((Registry.resolve id).run r').2 :=
  h.walked (resolve_walked rfl).1

theorem resolveType (h : Later r r') (t : FieldType) :
    Later r ((Registry.resolveType t).run r').2 :=
  h.walked (resolveType_walked rfl).1

theorem freeze (h : Later r r') (id : ShapeId) : Later r ((Registry.freeze id).run r').2 := by
  have hresolve := h.resolve id
  rw [run_freeze]
  generalize (Registry.resolve id).run r' = out at hresolve
  rcases out with ⟨answer, r1⟩
  cases answer with
  | error failure => exact hresolve
  | ok s =>
      dsimp only at hresolve ⊢
      cases hd : r1.arena.get? id with
      | none => exact hresolve
      | some d =>
          refine ⟨hresolve.same.trans (.setDefinition hd ⟨rfl, rfl, rfl, rfl, rfl⟩),
            hresolve.policy, ?_,
            hresolve.faithful.restage hd fun _ _ => Or.inr rfl⟩
          intro other hnone
          rw [Faithful.cached?_restage hd] at hnone
          exact hresolve.fresh_before other hnone

section Answers

variable (hsmall : r.size ≤ Limits.resolution.maxDepth) (h : Later r r')

include hsmall h

theorem resolve_answer (id : ShapeId) :
    ((Registry.resolve id).run r').1 =
      (r.probe Limits.resolution.maxDepth [] .root id).mapError
        (blameRoot (r.displayName id)) := by
  have hnext : r.Next [id] [] id := List.mem_singleton_self id
  rw [run_resolve, h.same.displayNames_eq,
    ← WalkM.visit_answer hsmall (Nat.zero_add _) hnext (h.ready [id])]
  rfl

theorem resolveType_answer (t : FieldType) :
    ((Registry.resolveType t).run r').1 =
      ((WalkM.shapeOf (WalkM.given (r.probe Limits.resolution.maxDepth [])) t).run
        (.begun r)).1 := by
  have htells : WalkM.Tells (Ready r t.references []) (.begun r)
      (WalkM.shapeOf (WalkM.given (r.probe Limits.resolution.maxDepth [])) t)
      (WalkM.shapeOf (WalkM.visit Limits.resolution.maxDepth) t) := by
    apply WalkM.shapeOf_tells
    intro route b hb
    have hnext : r.Next t.references [] b := hb
    apply WalkM.tells_of_answer (Nat.zero_add _) hnext
    intro w hw
    exact WalkM.visit_answer hsmall (Nat.zero_add _) hnext hw
  exact (htells.2 _ (h.ready t.references)).1

end Answers

theorem inStep (hsmall : r.size ≤ Limits.resolution.maxDepth) :
    InStep id fun r1 r2 => Later r r1 ∧ Later r r2 := by
  have hsame : forall result : Except Failure Shape,
      result.map (Shape.relabel id) = result := by
    intro result
    cases result with
    | error failure => rfl
    | ok s => exact congrArg Except.ok (Shape.relabel_id s)
  have hresolve : forall {r1 r2} (_ : Later r r1) (_ : Later r r2) (id : ShapeId),
      ((Registry.resolve id).run r2).1 = ((Registry.resolve id).run r1).1 := by
    intro r1 r2 h1 h2 id
    rw [h2.resolve_answer hsmall, h1.resolve_answer hsmall]
  refine ⟨Function.injective_id, ?_, ?_, ?_, ?_, ?_, ?_⟩
  · rintro r1 r2 ⟨h1, h2⟩
    exact h2.policy.trans h1.policy.symm
  · rintro r1 r2 ⟨h1, h2⟩ name
    rw [h2.same.lookup?_eq, h1.same.lookup?_eq, Option.map_id_fun, id]
  · rintro r1 r2 ⟨h1, h2⟩ name
    rw [h2.same.displayNames_eq, h1.same.displayNames_eq, id]
  · rintro name r1 r2 ⟨h1, h2⟩
    refine ⟨?_, h1.resolve name, h2.resolve name⟩
    rw [hsame, id, hresolve h1 h2]
  · rintro t r1 r2 ⟨h1, h2⟩
    rw [FieldType.relabel_id]
    refine ⟨?_, h1.resolveType t, h2.resolveType t⟩
    rw [hsame, h2.resolveType_answer hsmall, h1.resolveType_answer hsmall]
  · rintro name r1 r2 ⟨h1, h2⟩
    refine ⟨?_, h1.freeze name, h2.freeze name⟩
    rw [hsame, id, run_freeze_fst, run_freeze_fst, hresolve h1 h2]

end Later
end Registry
end Shapes
