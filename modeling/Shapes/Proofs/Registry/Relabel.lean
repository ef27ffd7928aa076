import Shapes.Proofs.Registry.Walk
import Shapes.Proofs.Shape.Relabel

/-!
# Registries with other identifiers

Two registries that hold the same definitions under different identifiers answer
alike.  `Registry.Relabels` says that one of them is the other one with identifiers
changed throughout, and `Mirrors` that two computations stay in step: from related
states they come to related states, and the result of the second one is that of the
first one, changed likewise.

The walk over a registry is followed from the inside out, as it is defined.
-/

namespace Shapes

/-!
# Computations in step

The relation between states is a parameter, and each construct of computations
is in step if its parts are.
-/

/-- From related states, the second computation does what the first one does. -/
def Mirrors {σ α β : Type} (related : σ -> σ -> Prop) (change : α -> β)
    (m : StateM σ α) (m' : StateM σ β) : Prop :=
  forall s s', related s s' ->
    (m'.run s').1 = change (m.run s).1 ∧ related (m.run s).2 (m'.run s').2

/-- The same for computations that may fail; failures are not changed. -/
def MirrorsT {σ α β : Type} (related : σ -> σ -> Prop) (change : α -> β)
    (m : ExceptT Failure (StateM σ) α) (m' : ExceptT Failure (StateM σ) β) : Prop :=
  forall s s', related s s' ->
    (m'.run s').1 = (m.run s).1.map change ∧ related (m.run s).2 (m'.run s').2

section Mirrors

variable {σ α β γ δ : Type} {related : σ -> σ -> Prop} {change : α -> β} {change' : γ -> δ}

theorem Mirrors.pure (a : α) : Mirrors related change (Pure.pure a) (Pure.pure (change a)) :=
  fun _ _ h => ⟨rfl, h⟩

theorem Mirrors.bind {m : StateM σ α} {m' : StateM σ β} {next : α -> StateM σ γ}
    {next' : β -> StateM σ δ} (h : Mirrors related change m m')
    (hnext : forall a, Mirrors related change' (next a) (next' (change a))) :
    Mirrors related change' (m >>= next) (m' >>= next') := by
  intro s s' hs
  rcases h s s' hs with ⟨hresult, hstate⟩
  rw [run_stateBind, run_stateBind, hresult]
  exact hnext _ _ _ hstate

theorem MirrorsT.run {m : ExceptT Failure (StateM σ) α} {m' : ExceptT Failure (StateM σ) β}
    (h : MirrorsT related change m m') :
    Mirrors related (Except.map change) m.run m'.run :=
  h

theorem MirrorsT.pure (a : α) : MirrorsT related change (Pure.pure a) (Pure.pure (change a)) :=
  fun _ _ h => ⟨rfl, h⟩

theorem MirrorsT.throw (failure : Failure) :
    MirrorsT related change (throw failure) (throw failure) :=
  fun _ _ h => ⟨rfl, h⟩

theorem MirrorsT.lift {result : Except Failure α} {result' : Except Failure β}
    (h : result' = change <$> result) :
    MirrorsT related change (liftM result) (liftM result') := by
  intro s s' hs
  rw [run_liftExcept, run_liftExcept, h]
  exact ⟨rfl, hs⟩

theorem MirrorsT.bind {m : ExceptT Failure (StateM σ) α} {m' : ExceptT Failure (StateM σ) β}
    {next : α -> ExceptT Failure (StateM σ) γ} {next' : β -> ExceptT Failure (StateM σ) δ}
    (h : MirrorsT related change m m')
    (hnext : forall a, MirrorsT related change' (next a) (next' (change a))) :
    MirrorsT related change' (m >>= next) (m' >>= next') := by
  intro s s' hs
  rcases h s s' hs with ⟨hresult, hstate⟩
  rcases hrun : m.run s with ⟨answer, after⟩
  rcases hrun' : m'.run s' with ⟨answer', after'⟩
  simp only [hrun, hrun'] at hresult hstate
  rw [run_bind, run_bind, hrun, hrun', hresult]
  cases answer with
  | error failure => exact ⟨rfl, hstate⟩
  | ok a => exact hnext a _ _ hstate

section Lists

variable {list : List γ}

theorem Mirrors.mapM {m : γ -> StateM σ α} {m' : γ -> StateM σ β}
    (h : forall a, a ∈ list -> Mirrors related change (m a) (m' a)) :
    Mirrors related (List.map change) (list.mapM m) (list.mapM m') := by
  induction list with
  | nil => exact Mirrors.pure []
  | cons a rest ih =>
      rw [List.mapM_cons, List.mapM_cons]
      apply (h a List.mem_cons_self).bind
      intro b
      apply (ih fun c hc => h c (List.mem_cons_of_mem a hc)).bind
      intro bs
      exact Mirrors.pure (b :: bs)

theorem MirrorsT.mapM {m : γ -> ExceptT Failure (StateM σ) α}
    {m' : γ -> ExceptT Failure (StateM σ) β}
    (h : forall a, a ∈ list -> MirrorsT related change (m a) (m' a)) :
    MirrorsT related (List.map change) (list.mapM m) (list.mapM m') := by
  induction list with
  | nil => exact MirrorsT.pure []
  | cons a rest ih =>
      rw [List.mapM_cons, List.mapM_cons]
      apply (h a List.mem_cons_self).bind
      intro b
      apply (ih fun c hc => h c (List.mem_cons_of_mem a hc)).bind
      intro bs
      exact MirrorsT.pure (b :: bs)

variable {g : γ -> δ} {check : γ -> StateM σ Bool} {check' : δ -> StateM σ Bool}
  (h : forall a, a ∈ list -> Mirrors related id (check a) (check' (g a)))

include h

theorem Mirrors.allM : Mirrors related id (list.allM check) ((list.map g).allM check') := by
  induction list with
  | nil => exact Mirrors.pure true
  | cons a rest ih =>
      rw [List.map_cons, List.allM_cons, List.allM_cons]
      apply (h a List.mem_cons_self).bind
      intro answer
      cases answer with
      | true => exact ih fun b hb => h b (List.mem_cons_of_mem a hb)
      | false => exact Mirrors.pure false

theorem Mirrors.anyM : Mirrors related id (list.anyM check) ((list.map g).anyM check') := by
  induction list with
  | nil => exact Mirrors.pure false
  | cons a rest ih =>
      rw [List.map_cons, List.anyM_cons, List.anyM_cons]
      apply (h a List.mem_cons_self).bind
      intro answer
      cases answer with
      | true => exact Mirrors.pure true
      | false => exact ih fun b hb => h b (List.mem_cons_of_mem a hb)

end Lists

end Mirrors

/-!
# Trails

A trail only compares its keys, so distinct keys may be given other names.
-/

namespace Trail

variable {κ κ' : Type} [DecidableEq κ] [DecidableEq κ'] {f : κ -> κ'}

/-- A trail with other keys. -/
def map (f : κ -> κ') (t : Trail κ) : Trail κ' :=
  { limits := t.limits, visiting := t.visiting.map f, depth := t.depth, steps := t.steps }

variable (hf : Function.Injective f)

include hf

theorem isVisiting_map (t : Trail κ) (key : κ) :
    (t.map f).isVisiting (f key) = t.isVisiting key := by
  apply Bool.eq_iff_iff.mpr
  simp [isVisiting, map, hf.eq_iff]

theorem enter_map (t : Trail κ) (key : κ) :
    (t.map f).enter (f key) = ((t.enter key).1, (t.enter key).2.map f) := by
  have hvisiting := isVisiting_map hf { t with steps := min (t.steps + 1) stepCeiling } key
  unfold enter
  simp only [map] at hvisiting ⊢
  simp only [hvisiting]
  split
  · rfl
  · split
    · rfl
    · by_cases hdepth : t.limits.maxDepth ≤ t.depth <;> simp [hdepth]

theorem leave_map (t : Trail κ) (key : κ) :
    (t.map f).leave (f key) = (t.leave key).map f := by
  unfold leave leave?
  rw [isVisiting_map hf]
  split
  · simp [map, List.map_erase hf]
  · rfl

end Trail

/-!
# Definitions and registries

Identifiers change in what is mentioned, and names stay.
-/

namespace Definition

/-- A definition with other identifiers in what it mentions. -/
def relabel (f : ShapeId -> ShapeId) (d : Definition) : Definition :=
  { d with
    fields := d.fields.map (FieldType.relabel f)
    body := d.body.map (FieldType.relabel f)
    resolved := d.resolved.map (Shape.relabel f) }

@[simp] theorem relabel_name (f : ShapeId -> ShapeId) (d : Definition) :
    (d.relabel f).name = d.name := rfl

@[simp] theorem relabel_kind (f : ShapeId -> ShapeId) (d : Definition) :
    (d.relabel f).kind = d.kind := rfl

theorem relabel_relabel (f g : ShapeId -> ShapeId) (d : Definition) :
    (d.relabel f).relabel g = d.relabel (g ∘ f) := by
  simp only [relabel, Table.map_map, Option.map_map, Function.comp_def,
    FieldType.relabel_relabel, Shape.relabel_relabel]

theorem relabel_id (d : Definition) : d.relabel id = d := by
  have htype : FieldType.relabel id = fun t => t := funext FieldType.relabel_id
  have hshape : Shape.relabel id = fun s => s := funext Shape.relabel_id
  simp [relabel, htype, hshape, Table.map_eq_self]

theorem relabel_injective {f : ShapeId -> ShapeId} (hf : Function.Injective f) :
    Function.Injective (relabel f) := by
  have : Nonempty ShapeId := ⟨⟨0⟩⟩
  rcases hf.hasLeftInverse with ⟨g, hg⟩
  intro d e h
  have hback := congrArg (relabel g) h
  rwa [relabel_relabel, relabel_relabel, hg.comp_eq_id, relabel_id, relabel_id] at hback

theorem relabel_marked (f : ShapeId -> ShapeId) (d : Definition) :
    d.marked.relabel f = (d.relabel f).marked := by
  by_cases h : d.stage = .unresolved <;> simp [marked, relabel, h]

theorem relabel_unmarked (f : ShapeId -> ShapeId) (d : Definition) :
    d.unmarked.relabel f = (d.relabel f).unmarked := by
  by_cases h : d.stage = .resolving <;> simp [unmarked, relabel, h]

end Definition

namespace Registry

/-- One registry is the other one with other identifiers. -/
structure Relabels (f : ShapeId -> ShapeId) (r r' : Registry) : Prop where
  policy : r'.policy = r.policy
  get? : forall id, r'.arena.get? (f id) = (r.arena.get? id).map (Definition.relabel f)
  lookup? : forall name, r'.lookup? name = (r.lookup? name).map f
  /-- Identifiers that are not in use stay what they are. -/
  unused : forall id, r.arena.get? id = none -> f id = id

namespace Relabels

variable {f : ShapeId -> ShapeId} {r r' : Registry}

theorem displayName (h : Relabels f r r') (id : ShapeId) :
    r'.displayName (f id) = r.displayName id := by
  unfold Registry.displayName Arena.name?
  rw [h.get? id]
  cases hid : r.arena.get? id with
  | none => simp [h.unused id hid]
  | some d => rfl

theorem cached? (h : Relabels f r r') (id : ShapeId) :
    r'.arena.cached? (f id) = (r.arena.cached? id).map (Shape.relabel f) := by
  unfold Arena.cached?
  rw [h.get? id]
  cases r.arena.get? id <;> rfl

theorem kind? (h : Relabels f r r') (id : ShapeId) :
    r'.arena.kind? (f id) = r.arena.kind? id := by
  unfold Arena.kind?
  rw [h.get? id]
  cases r.arena.get? id <;> rfl

theorem setDefinition (h : Relabels f r r') (hf : Function.Injective f) {id : ShapeId}
    {old d : Definition} (hold : r.arena.get? id = some old) :
    Relabels f (r.setDefinition id d) (r'.setDefinition (f id) (d.relabel f)) := by
  have hold' : r'.arena.get? (f id) = some (old.relabel f) := by
    rw [h.get? id, hold]
    rfl
  refine ⟨h.policy, ?_, ?_, ?_⟩
  · intro other
    by_cases hother : other = id
    · subst hother
      simp only [Registry.setDefinition, Arena.get?_set_self _ hold,
        Arena.get?_set_self _ hold', Option.map_some]
    · have hne : f other ≠ f id := hf.ne hother
      simp only [Registry.setDefinition, Arena.get?_set_of_ne _ hother,
        Arena.get?_set_of_ne _ hne, h.get? other]
  · intro name
    exact h.lookup? name
  · intro other hother
    apply h.unused
    by_cases heq : other = id
    · subst heq
      simp only [Registry.setDefinition, Arena.get?_set_self _ hold] at hother
      cases hother
    · simpa only [Registry.setDefinition, Arena.get?_set_of_ne _ heq] using hother

end Relabels

/-- Two walks in step. -/
structure Walk.Relabels (f : ShapeId -> ShapeId) (w w' : Walk) : Prop where
  registry : Registry.Relabels f w.registry w'.registry
  trail : w'.trail = w.trail.map f

/-!
# Walks

Two walks in step visit the same names under different identifiers.
-/

namespace WalkM

section Walks

variable {f : ShapeId -> ShapeId} (hf : Function.Injective f)

include hf

theorem begin_mirrors (id : ShapeId) :
    MirrorsT (Walk.Relabels f) (fun found => (found.1, found.2.relabel f))
      (begin id) (begin (f id)) := by
  intro w w' h
  rw [run_begin, run_begin, h.registry.get? id, h.registry.displayName]
  cases hd : w.registry.arena.get? id with
  | none => exact ⟨rfl, h⟩
  | some d =>
      simp only [Option.map_some, Definition.relabel_kind]
      cases d.kind with
      | none => exact ⟨rfl, h⟩
      | some kind =>
          rw [← Definition.relabel_marked]
          exact ⟨rfl, h.registry.setDefinition hf hd, h.trail⟩

theorem finish_mirrors (id : ShapeId) (result : Except Failure Shape) :
    MirrorsT (Walk.Relabels f) (Shape.relabel f)
      (finish id result) (finish (f id) (result.map (Shape.relabel f))) := by
  intro w w' h
  rw [run_finish, run_finish, h.registry.get? id]
  cases hd : w.registry.arena.get? id with
  | none => exact ⟨rfl, h⟩
  | some d =>
      cases result with
      | ok s => exact ⟨rfl, h.registry.setDefinition hf hd, h.trail⟩
      | error failure =>
          refine ⟨rfl, ?_, h.trail⟩
          simp only [Option.map_some, Except.map]
          rw [← Definition.relabel_unmarked]
          exact h.registry.setDefinition hf hd

section Flattening

variable {visit visit' : Route -> ShapeId -> WalkM Shape}
  (hvisit : forall route id,
    MirrorsT (Walk.Relabels f) (Shape.relabel f) (visit route id) (visit' route (f id)))

include hvisit

omit hf hvisit in
theorem shapesOf_mirrors {types : List FieldType}
    (h : forall t, t ∈ types -> MirrorsT (Walk.Relabels f) (Shape.relabel f)
      (shapeOf visit t) (shapeOf visit' (t.relabel f))) :
    MirrorsT (Walk.Relabels f) (List.map (Shape.relabel f))
      (shapesOf visit types) (shapesOf visit' (types.map (FieldType.relabel f))) := by
  induction types with
  | nil => exact MirrorsT.pure []
  | cons t rest ih =>
      rw [List.map_cons, shapesOf, shapesOf]
      apply (h t List.mem_cons_self).bind
      intro s
      apply (ih fun u hu => h u (List.mem_cons_of_mem t hu)).bind
      intro shapes
      exact MirrorsT.pure (s :: shapes)

theorem shapeOf_mirrors (t : FieldType) :
    MirrorsT (Walk.Relabels f) (Shape.relabel f)
      (shapeOf visit t) (shapeOf visit' (t.relabel f)) := by
  induction t using FieldType.memberInduction with
  | keyword word => exact MirrorsT.pure (Shape.keyword word)
  | literal value => exact MirrorsT.pure (Shape.literal value)
  | reference id => exact hvisit .reference id
  | union members ih =>
      rw [FieldType.relabel_union, shapeOf, shapeOf]
      apply (shapesOf_mirrors ih).bind
      intro shapes
      exact MirrorsT.lift (Shape.unite_relabel hf shapes)
  | intersection members ih =>
      rw [FieldType.relabel_intersection, shapeOf, shapeOf]
      apply (shapesOf_mirrors ih).bind
      intro shapes
      exact MirrorsT.lift (Shape.intersect_relabel hf shapes)

omit hf in
theorem parentFields_mirrors (parent : String) :
    MirrorsT (Walk.Relabels f) (Table.map (FieldType.relabel f))
      (parentFields visit parent) (parentFields visit' parent) := by
  intro w w' h
  rw [run_parentFields, run_parentFields, h.registry.lookup? parent]
  cases w.registry.lookup? parent with
  | none => exact ⟨rfl, h⟩
  | some id =>
      simp only [Option.map_some, h.registry.kind? id]
      split
      · exact ⟨rfl, h⟩
      · rcases hvisit .parent id w w' h with ⟨hresult, hstate⟩
        rcases hrun : (visit .parent id).run w with ⟨answer, w1⟩
        rcases hrun' : (visit' .parent (f id)).run w' with ⟨answer', w1'⟩
        simp only [hrun, hrun'] at hresult hstate
        subst hresult
        cases answer with
        | error failure => exact ⟨rfl, hstate⟩
        | ok s => cases s <;> exact ⟨rfl, hstate⟩

theorem flatten_mirrors (kind : NameKind) (d : Definition) :
    MirrorsT (Walk.Relabels f) (Shape.relabel f)
      (flatten visit kind d) (flatten visit' kind (d.relabel f)) := by
  cases kind with
  | mergeable =>
      apply MirrorsT.bind (MirrorsT.mapM fun parent _ => parentFields_mirrors hvisit parent)
      intro parents
      rw [show (d.relabel f).fields = d.fields.map (FieldType.relabel f) from rfl,
        ← Table.map_inherit]
      exact MirrorsT.pure (Shape.object (some d.name) (Table.inherit parents d.fields))
  | single =>
      simp only [flatten, Definition.relabel]
      cases d.body with
      | none => exact MirrorsT.pure (Shape.object (some d.name) d.fields)
      | some body =>
          apply (shapeOf_mirrors hf hvisit body).bind
          intro s
          rw [← Shape.relabel_rename]
          exact MirrorsT.pure (s.rename d.name)

theorem settle_mirrors (id : ShapeId) :
    MirrorsT (Walk.Relabels f) (Shape.relabel f) (settle visit id) (settle visit' (f id)) := by
  intro w w' h
  rw [run_settle, run_settle]
  rcases begin_mirrors hf id w w' h with ⟨hresult, hstate⟩
  rcases hrun : (begin id).run w with ⟨answer, w1⟩
  rcases hrun' : (begin (f id)).run w' with ⟨answer', w1'⟩
  simp only [hrun, hrun'] at hresult hstate
  subst hresult
  cases answer with
  | error failure => exact ⟨rfl, hstate⟩
  | ok found =>
      rcases flatten_mirrors hf hvisit found.1 found.2 w1 w1' hstate with ⟨hflat, hstate1⟩
      simp only [Except.map]
      rw [hflat]
      exact finish_mirrors hf id _ _ _ hstate1

end Flattening

theorem visitBy_mirrors {settle settle' : ShapeId -> WalkM Shape}
    (hsettle : forall id,
      MirrorsT (Walk.Relabels f) (Shape.relabel f) (settle id) (settle' (f id)))
    (route : Route) (id : ShapeId) :
    MirrorsT (Walk.Relabels f) (Shape.relabel f)
      (visitBy settle route id) (visitBy settle' route (f id)) := by
  intro w w' h
  rw [run_visitBy, run_visitBy, h.registry.cached? id]
  cases w.registry.arena.cached? id with
  | some s => exact ⟨rfl, h⟩
  | none =>
      simp only [Option.map_none]
      rw [run_inside, run_inside, h.trail, Trail.enter_map hf]
      rcases w.trail.enter id with ⟨entry, trail⟩
      have hinside : Walk.Relabels f { w with trail } { w' with trail := trail.map f } :=
        ⟨h.registry, rfl⟩
      cases entry with
      | entered =>
          rcases hsettle id _ _ hinside with ⟨hresult, hstate⟩
          refine ⟨hresult, hstate.registry, ?_⟩
          simp only [hstate.trail, Trail.leave_map hf]
      | cycle | tooDeep | tooManySteps =>
          refine ⟨?_, hinside⟩
          simp only [refusal, h.registry.displayName]
          rfl

theorem visit_mirrors (levels : Nat) (route : Route) (id : ShapeId) :
    MirrorsT (Walk.Relabels f) (Shape.relabel f)
      (visit levels route id) (visit levels route (f id)) := by
  induction levels generalizing route id with
  | zero =>
      apply visitBy_mirrors hf
      intro id w w' h
      refine ⟨?_, h⟩
      show Except.error (Failure.resolutionTooDeep (w'.registry.displayName (f id))) = _
      rw [h.registry.displayName]
      rfl
  | succ levels ih => exact visitBy_mirrors hf (settle_mirrors hf ih) route id

end Walks

end WalkM

/-!
# Resolving

A whole resolution is in step, whatever it ends with.
-/

section Resolving

variable {f : ShapeId -> ShapeId} (hf : Function.Injective f)

include hf

theorem resolve_mirrors (id : ShapeId) :
    MirrorsT (Relabels f) (Shape.relabel f) (resolve id) (resolve (f id)) := by
  intro r r' h
  rw [run_resolve, run_resolve, h.displayName]
  have hstart : Walk.Relabels f ⟨r, Trail.start Limits.resolution⟩
      ⟨r', Trail.start Limits.resolution⟩ := ⟨h, rfl⟩
  rcases WalkM.visit_mirrors hf Limits.resolution.maxDepth .root id _ _ hstart with
    ⟨hresult, hstate⟩
  refine ⟨?_, hstate.registry⟩
  simp only [hresult]
  cases ((WalkM.visit Limits.resolution.maxDepth .root id).run
    ⟨r, Trail.start Limits.resolution⟩).1 <;> rfl

theorem resolveType_mirrors (t : FieldType) :
    MirrorsT (Relabels f) (Shape.relabel f) (resolveType t) (resolveType (t.relabel f)) := by
  intro r r' h
  rw [run_resolveType, run_resolveType]
  have hstart : Walk.Relabels f ⟨r, Trail.start Limits.resolution⟩
      ⟨r', Trail.start Limits.resolution⟩ := ⟨h, rfl⟩
  have hvisit := WalkM.visit_mirrors hf Limits.resolution.maxDepth
  rcases WalkM.shapeOf_mirrors hf hvisit t _ _ hstart with ⟨hresult, hstate⟩
  exact ⟨hresult, hstate.registry⟩

theorem freeze_mirrors (id : ShapeId) :
    MirrorsT (Relabels f) (Shape.relabel f) (freeze id) (freeze (f id)) := by
  intro r r' h
  rcases resolve_mirrors hf id r r' h with ⟨hresult, hstate⟩
  rw [run_freeze, run_freeze]
  rcases hrun : (resolve id).run r with ⟨answer, r1⟩
  rcases hrun' : (resolve (f id)).run r' with ⟨answer', r1'⟩
  simp only [hrun, hrun'] at hresult hstate
  subst hresult
  cases answer with
  | error failure => exact ⟨rfl, hstate⟩
  | ok s =>
      refine ⟨rfl, ?_⟩
      dsimp only [Except.map]
      rw [hstate.get? id]
      cases hd : r1.arena.get? id with
      | none => exact hstate
      | some d => exact hstate.setDefinition hf hd

end Resolving

/-!
# Registries that answer in step

Queries use a registry in three ways: they look names up, they resolve, and they
look at keys.
-/

/--
Related registries hold the same names and resolve in step, and are related after that:
all that the answer to a query depends on.
-/
structure InStep (f : ShapeId -> ShapeId) (related : Registry -> Registry -> Prop) : Prop where
  injective : Function.Injective f
  policy : forall {r r'}, related r r' -> r'.policy = r.policy
  lookup? : forall {r r'}, related r r' ->
    forall name, r'.lookup? name = (r.lookup? name).map f
  displayName : forall {r r'}, related r r' ->
    forall id, r'.displayName (f id) = r.displayName id
  resolve : forall id, MirrorsT related (Shape.relabel f) (resolve id) (resolve (f id))
  resolveType : forall t,
    MirrorsT related (Shape.relabel f) (resolveType t) (resolveType (t.relabel f))
  freeze : forall id, MirrorsT related (Shape.relabel f) (freeze id) (freeze (f id))

theorem Relabels.inStep {f : ShapeId -> ShapeId} (hf : Function.Injective f) :
    InStep f (Relabels f) where
  injective := hf
  policy h := h.policy
  lookup? h := h.lookup?
  displayName h := h.displayName
  resolve := resolve_mirrors hf
  resolveType := resolveType_mirrors hf
  freeze := freeze_mirrors hf

section InStep

variable {f : ShapeId -> ShapeId} {related : Registry -> Registry -> Prop}
  (hstep : InStep f related)

include hstep

theorem keys_mirrors (name : ShapeId) : MirrorsT related id (keys name) (keys (f name)) := by
  apply (hstep.freeze name).bind
  intro s r r' h
  refine ⟨?_, h⟩
  show Except.ok ((s.relabel f).keys r'.policy) = Except.ok (s.keys r.policy)
  rw [hstep.policy h, Shape.keys_relabel]

theorem checkKey_mirrors (name : ShapeId) (key : String) :
    MirrorsT related (FieldType.relabel f) (checkKey name key) (checkKey (f name) key) := by
  apply (hstep.freeze name).bind
  intro s r r' h
  have hcheck : MirrorsT related (FieldType.relabel f)
      (liftM (s.checkKey r.policy key)) (liftM ((s.relabel f).checkKey r'.policy key)) := by
    apply MirrorsT.lift
    rw [hstep.policy h, Shape.checkKey_relabel hstep.injective]
  exact hcheck r r' h

theorem access_mirrors {α : Type} (name : ShapeId) (members : List (String × α))
    (key : String) :
    MirrorsT related id (access name members key) (access (f name) members key) := by
  apply (hstep.freeze name).bind
  intro s r r' h
  have haccess : MirrorsT related id (liftM (s.access r.policy members key))
      (liftM ((s.relabel f).access r'.policy members key)) := by
    apply MirrorsT.lift
    rw [hstep.policy h, Shape.access_relabel hstep.injective, id_map]
  exact haccess r r' h

end InStep

end Registry
end Shapes
