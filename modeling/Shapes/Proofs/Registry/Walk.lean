import Shapes.Proofs.Registry.Progress
import Shapes.Proofs.Running
import Shapes.Proofs.Trail
import Shapes.Registry.Resolve

/-!
# What a walk changes

A walk over a registry changes no declaration, no kept shape and no definition
of its trail, whether it succeeds or fails.  It leaves the trail as it found it
and a faithful registry faithful, and a shape that is visited with success is
kept.

The statements follow the walk from the inside out.  `WalkM.Steady` is what is
asked of the function that visits a shape; it is passed on from types and
parents to definitions and back to the visit, by induction on the levels.
-/

namespace Shapes
namespace Registry

/-!
# Running a walk

One equation for each function of a walk says what it does to a state, so that
no proof has to open it again.
-/

namespace WalkM

theorem run_begin (id : ShapeId) (w : Walk) :
    (begin id).run w =
      match w.registry.arena.get? id with
      | none => (.error (.unknownShape (w.registry.displayName id)), w)
      | some d =>
          match d.kind with
          | none => (.error (.unknownShape d.name), w)
          | some kind =>
              (.ok (kind, d), { w with registry := w.registry.setDefinition id d.marked }) := by
  unfold begin
  rw [run_getBind]
  cases hd : w.registry.arena.get? id with
  | none => rfl
  | some d =>
      cases hkind : d.kind with
      | none =>
          simp only [hkind]
          rfl
      | some kind =>
          simp only [hkind, Definition.marked]
          split
          · rfl
          · rw [setDefinition, Arena.set_of_get?_eq_some hd]
            rfl

theorem run_finish (id : ShapeId) (result : Except Failure Shape) (w : Walk) :
    (finish id result).run w =
      match w.registry.arena.get? id with
      | none => (result, w)
      | some d =>
          match result with
          | .ok shape =>
              (.ok shape,
                { w with
                  registry := w.registry.setDefinition id
                    { d with resolved := some shape, stage := .resolved } })
          | .error failure =>
              (.error failure,
                { w with registry := w.registry.setDefinition id d.unmarked }) := by
  unfold finish
  rw [run_getBind]
  cases hd : w.registry.arena.get? id with
  | none => cases result <;> rfl
  | some d =>
      cases result with
      | ok shape => rfl
      | error failure =>
          simp only [Definition.unmarked]
          split
          · rfl
          · rw [setDefinition, Arena.set_of_get?_eq_some hd]
            rfl

theorem run_settle (visit : Route -> ShapeId -> WalkM Shape) (id : ShapeId) (w : Walk) :
    (settle visit id).run w =
      match (begin id).run w with
      | (.error failure, w1) => (.error failure, w1)
      | (.ok (kind, d), w1) =>
          (finish id ((flatten visit kind d).run w1).1).run ((flatten visit kind d).run w1).2 := by
  unfold settle
  rw [run_bind]
  rcases (begin id).run w with ⟨answer, w1⟩
  cases answer <;> rfl

theorem run_inside (route : Route) (id : ShapeId) (walk : WalkM Shape) (w : Walk) :
    (inside route id walk).run w =
      match w.trail.enter id with
      | (.entered, trail) =>
          ((walk.run { w with trail }).1,
            { (walk.run { w with trail }).2 with
              trail := (walk.run { w with trail }).2.trail.leave id })
      | (refused, trail) =>
          (.error (refusal w.registry route id refused), { w with trail }) := by
  unfold inside
  rw [run_getBind]
  rcases w.trail.enter id with ⟨entry, trail⟩
  cases entry <;> rfl

theorem run_visitBy (settle : ShapeId -> WalkM Shape) (route : Route) (id : ShapeId)
    (w : Walk) :
    (visitBy settle route id).run w =
      match w.registry.arena.cached? id with
      | some shape => (.ok shape, w)
      | none => (inside route id (settle id)).run w := by
  unfold visitBy
  rw [run_getBind]
  cases w.registry.arena.cached? id <;> rfl

theorem run_parentFields (visit : Route -> ShapeId -> WalkM Shape) (parent : String)
    (w : Walk) :
    (parentFields visit parent).run w =
      match w.registry.lookup? parent with
      | none => (.error (.unknownParent parent), w)
      | some id =>
          if (w.registry.arena.kind? id).isNone then (.error (.unknownParent parent), w)
          else
            match (visit .parent id).run w with
            | (.ok (.object _ fields), w1) => (.ok fields, w1)
            | (.ok _, w1) => (.error (.nonObjectParent parent), w1)
            | (.error failure, w1) => (.error failure, w1) := by
  unfold parentFields
  rw [run_getBind]
  dsimp only
  cases w.registry.lookup? parent with
  | none => rfl
  | some id =>
      by_cases hkind : (w.registry.arena.kind? id).isNone = true
      · simp only [if_pos hkind]
        rfl
      · simp only [if_neg hkind]
        rw [run_bind]
        rcases (visit .parent id).run w with ⟨answer, w1⟩
        cases answer with
        | error failure => rfl
        | ok shape => cases shape <;> rfl

/-!
# Steady walks

What a walk keeps is a preorder on its states, and what is asked of a visit is
passed on to types, parents and definitions.
-/

/-- What a walk keeps, whatever comes of it. -/
structure Advances (w w' : Walk) : Prop where
  limits : w'.trail.limits = w.trail.limits
  visiting : w'.trail.visiting = w.trail.visiting
  depth : w'.trail.depth = w.trail.depth
  registry : Walked w.trail.visiting w.registry w'.registry

namespace Advances

theorem refl (w : Walk) : Advances w w :=
  ⟨rfl, rfl, rfl, Walked.refl _ _⟩

theorem trans {w w' w'' : Walk} (h : Advances w w') (h' : Advances w' w'') :
    Advances w w'' := by
  refine ⟨h'.limits.trans h.limits, h'.visiting.trans h.visiting, h'.depth.trans h.depth, ?_⟩
  have hsecond := h'.registry
  rw [h.visiting] at hsecond
  exact h.registry.trans hsecond

end Advances

/-- A way to visit shapes that advances a walk and keeps the shapes it finds. -/
def Steady (visit : Route -> ShapeId -> WalkM Shape) : Prop :=
  forall {route id w result w'}, (visit route id).run w = (result, w') ->
    Advances w w' ∧ Succeeds (fun s => w'.registry.arena.cached? id = some s) result

section Flattening

variable {visit : Route -> ShapeId -> WalkM Shape}

theorem combine_advances {members : List FieldType}
    {combine : List Shape -> Except Failure Shape}
    (hmembers : forall {w w' result}, (shapesOf visit members).run w = (result, w') ->
      Advances w w' ∧ Succeeds (fun shapes =>
        FieldType.shapesFrom w'.registry.arena.cached? members = some shapes) result)
    {w w' : Walk} {result : Except Failure Shape}
    (h : (shapesOf visit members >>= fun shapes => liftM (combine shapes) : WalkM Shape).run w =
      (result, w')) :
    Advances w w' ∧ Succeeds (fun s =>
      ((FieldType.shapesFrom w'.registry.arena.cached? members).bind fun shapes =>
        (combine shapes).toOption) = some s) result := by
  rcases run_bind_cases h with ⟨shapes, w1, hshapes, hrest⟩ | ⟨failure, hshapes, rfl⟩
  · rcases hmembers hshapes with ⟨hadv, hfrom⟩
    rw [run_liftExcept] at hrest
    cases hrest
    refine ⟨hadv, ?_⟩
    rw [show FieldType.shapesFrom _ members = some shapes from hfrom]
    cases hcombine : combine shapes with
    | error failure => trivial
    | ok s =>
        show (combine shapes).toOption = some s
        rw [hcombine]
        rfl
  · exact ⟨(hmembers hshapes).1, trivial⟩

mutual

theorem shapeOf_advances (hvisit : Steady visit) :
    forall {t : FieldType} {w w' : Walk} {result : Except Failure Shape},
      (shapeOf visit t).run w = (result, w') ->
        Advances w w' ∧
          Succeeds (fun s => t.shapeFrom w'.registry.arena.cached? = some s) result
  | .keyword word, w, w', result, h => by
      cases h
      exact ⟨.refl w, rfl⟩
  | .literal value, w, w', result, h => by
      cases h
      exact ⟨.refl w, rfl⟩
  | .reference id, w, w', result, h => hvisit h
  | .union members, w, w', result, h =>
      combine_advances (fun hmembers => shapesOf_advances hvisit hmembers) h
  | .intersection members, w, w', result, h =>
      combine_advances (fun hmembers => shapesOf_advances hvisit hmembers) h

theorem shapesOf_advances (hvisit : Steady visit) :
    forall {types : List FieldType} {w w' : Walk} {result : Except Failure (List Shape)},
      (shapesOf visit types).run w = (result, w') ->
        Advances w w' ∧ Succeeds (fun shapes =>
          FieldType.shapesFrom w'.registry.arena.cached? types = some shapes) result
  | [], w, w', result, h => by
      cases h
      exact ⟨.refl w, rfl⟩
  | t :: rest, w, w', result, h => by
      rcases run_bind_cases h with ⟨shape, w1, hshape, hrest⟩ | ⟨failure, hshape, rfl⟩
      · rcases shapeOf_advances hvisit hshape with ⟨hfirst, hfrom⟩
        rcases run_bind_cases hrest with ⟨shapes, w2, hshapes, hdone⟩ | ⟨failure, hshapes, rfl⟩
        · rcases shapesOf_advances hvisit hshapes with ⟨hsecond, hfroms⟩
          cases hdone
          refine ⟨hfirst.trans hsecond, ?_⟩
          apply FieldType.shapesFrom_cons_eq_some_iff.mpr
          refine ⟨shape, shapes, ?_, hfroms, rfl⟩
          exact FieldType.shapeFrom_mono (fun _ _ _ hu => hsecond.registry.cached? hu) hfrom
        · exact ⟨hfirst.trans (shapesOf_advances hvisit hshapes).1, trivial⟩
      · exact ⟨(shapeOf_advances hvisit hshape).1, trivial⟩

end

theorem parentFields_cases {parent : String} {w w' : Walk}
    {result : Except Failure (Table FieldType)}
    (h : (parentFields visit parent).run w = (result, w')) :
    (w' = w ∧ result = .error (.unknownParent parent) ∧
        (w.registry.lookup? parent = none ∨
          exists id, w.registry.lookup? parent = some id ∧
            w.registry.arena.kind? id = none)) ∨
      exists id answer, w.registry.lookup? parent = some id ∧
        (visit .parent id).run w = (answer, w') ∧
        ((exists failure, answer = .error failure ∧ result = .error failure) ∨
          (exists shape, answer = .ok shape ∧ shape.fields? = none ∧
            result = .error (.nonObjectParent parent)) ∨
          exists shape fields, answer = .ok shape ∧ shape.fields? = some fields ∧
            result = .ok fields) := by
  rw [run_parentFields] at h
  cases hlookup : w.registry.lookup? parent with
  | none =>
      rw [hlookup] at h
      cases h
      exact Or.inl ⟨rfl, rfl, Or.inl rfl⟩
  | some id =>
      simp only [hlookup] at h
      split at h
      · rename_i hkind
        cases h
        exact Or.inl ⟨rfl, rfl, Or.inr ⟨id, rfl, Option.isNone_iff_eq_none.mp hkind⟩⟩
      · rcases hrun : (visit .parent id).run w with ⟨answer, w1⟩
        rw [hrun] at h
        apply Or.inr
        refine ⟨id, answer, rfl, ?_⟩
        cases answer with
        | error failure =>
            cases h
            exact ⟨hrun, Or.inl ⟨failure, rfl, rfl⟩⟩
        | ok shape =>
            cases shape with
            | object name fields =>
                cases h
                exact ⟨hrun, Or.inr (Or.inr ⟨.object name fields, fields, rfl, rfl, rfl⟩)⟩
            | union name members =>
                cases h
                exact ⟨hrun, Or.inr (Or.inl ⟨.union name members, rfl, rfl, rfl⟩)⟩
            | keyword word =>
                cases h
                exact ⟨hrun, Or.inr (Or.inl ⟨.keyword word, rfl, rfl, rfl⟩)⟩
            | literal value =>
                cases h
                exact ⟨hrun, Or.inr (Or.inl ⟨.literal value, rfl, rfl, rfl⟩)⟩

theorem parentFields_advances (hvisit : Steady visit) {parent : String} {w w' : Walk}
    {result : Except Failure (Table FieldType)}
    (h : (parentFields visit parent).run w = (result, w')) :
    Advances w w' ∧ Succeeds (fun fields =>
      Definition.parentFrom w'.registry.lookup? w'.registry.arena.cached? parent =
        some fields) result := by
  rcases parentFields_cases h with ⟨rfl, rfl, _⟩ | ⟨id, answer, hlookup, hrun, hanswer⟩
  · exact ⟨.refl _, trivial⟩
  · rcases hvisit hrun with ⟨hadv, hkept⟩
    refine ⟨hadv, ?_⟩
    rcases hanswer with ⟨failure, _, rfl⟩ | ⟨shape, _, _, rfl⟩ | ⟨shape, fields, rfl, hfields, rfl⟩
    · trivial
    · trivial
    · have hshape : w'.registry.arena.cached? id = some shape := hkept
      show Definition.parentFrom _ _ parent = some fields
      simp only [Definition.parentFrom, hadv.registry.sameDeclarations.lookup?_eq, hlookup,
        Option.bind_some, hshape, hfields]

theorem parents_advance (hvisit : Steady visit) {parents : List String} {w w' : Walk}
    {result : Except Failure (List (Table FieldType))}
    (h : (parents.mapM (parentFields visit)).run w = (result, w')) :
    Advances w w' ∧ Succeeds (fun tables =>
      parents.mapM (Definition.parentFrom w'.registry.lookup? w'.registry.arena.cached?) =
        some tables) result := by
  induction parents generalizing w w' result with
  | nil =>
      cases h
      exact ⟨.refl _, rfl⟩
  | cons p rest ih =>
      rw [List.mapM_cons] at h
      rcases run_bind_cases h with ⟨fields, w1, hfields, hrest⟩ | ⟨failure, hfields, rfl⟩
      · rcases parentFields_advances hvisit hfields with ⟨hfirst, hfrom⟩
        rcases run_bind_cases hrest with ⟨tables, w2, htables, hdone⟩ | ⟨failure, htables, rfl⟩
        · rcases ih htables with ⟨hsecond, hfroms⟩
          cases hdone
          refine ⟨hfirst.trans hsecond, ?_⟩
          apply Definition.mapM_eq_some_cons_iff.mpr
          refine ⟨fields, tables, ?_, hfroms, rfl⟩
          rw [hsecond.registry.sameDeclarations.lookup?_eq]
          exact Definition.parentFrom_mono (fun _ hid => hid)
            (fun _ _ _ hu => hsecond.registry.cached? hu) hfrom
        · exact ⟨hfirst.trans (ih htables).1, trivial⟩
      · exact ⟨(parentFields_advances hvisit hfields).1, trivial⟩

theorem flatten_advances (hvisit : Steady visit) {kind : NameKind} {d : Definition}
    (hkind : d.kind = some kind) {w w' : Walk} {result : Except Failure Shape}
    (h : (flatten visit kind d).run w = (result, w')) :
    Advances w w' ∧ Succeeds (fun s =>
      d.flattened w'.registry.lookup? w'.registry.arena.cached? = some s) result := by
  unfold flatten at h
  unfold Definition.flattened
  rw [hkind]
  cases kind with
  | mergeable =>
      rcases run_bind_cases h with ⟨tables, w1, htables, hdone⟩ | ⟨failure, htables, rfl⟩
      · rcases parents_advance hvisit htables with ⟨hadv, hfrom⟩
        cases hdone
        refine ⟨hadv, ?_⟩
        exact Option.map_eq_some_iff.mpr ⟨tables, hfrom, rfl⟩
      · exact ⟨(parents_advance hvisit htables).1, trivial⟩
  | single =>
      cases hbody : d.body with
      | none =>
          simp only [hbody] at h
          cases h
          exact ⟨.refl w, rfl⟩
      | some body =>
          simp only [hbody] at h
          rcases run_bind_cases h with ⟨shape, w1, hshape, hdone⟩ | ⟨failure, hshape, rfl⟩
          · rcases shapeOf_advances hvisit hshape with ⟨hadv, hfrom⟩
            cases hdone
            refine ⟨hadv, ?_⟩
            exact Option.map_eq_some_iff.mpr ⟨shape, hfrom, rfl⟩
          · exact ⟨(shapeOf_advances hvisit hshape).1, trivial⟩

/-!
# Visits

To put a shape on the trail and take it off again leaves nothing behind, and of
the definition that is flattened only the shape is new.
-/

theorem settle_cases (hvisit : Steady visit) {id : ShapeId} {w w' : Walk}
    {result : Except Failure Shape} (hid : id ∈ w.trail.visiting)
    (h : (settle visit id).run w = (result, w')) :
    (w.registry.arena.kind? id = none ∧ (exists name, result = .error (.unknownShape name)) ∧
        w' = w) ∨
      exists d kind w2, w.registry.arena.get? id = some d ∧ d.kind = some kind ∧
        (flatten visit kind d).run
          { w with registry := w.registry.setDefinition id d.marked } = (result, w2) ∧
        w2.registry.arena.get? id = some d.marked ∧
        match result with
        | .ok shape =>
            w' = { w2 with
              registry := w2.registry.setDefinition id
                { d.marked with resolved := some shape, stage := .resolved } }
        | .error _ =>
            w' = { w2 with registry := w2.registry.setDefinition id d.marked.unmarked } := by
  rw [run_settle, run_begin] at h
  cases hd : w.registry.arena.get? id with
  | none =>
      rw [hd] at h
      cases h
      exact Or.inl ⟨by rw [Arena.kind?, hd]; rfl, ⟨_, rfl⟩, rfl⟩
  | some d =>
      cases hkind : d.kind with
      | none =>
          simp only [hd, hkind] at h
          cases h
          exact Or.inl ⟨by rw [Arena.kind?, hd]; exact hkind, ⟨_, rfl⟩, rfl⟩
      | some kind =>
          simp only [hd, hkind] at h
          rcases hrun : (flatten visit kind d).run
            { w with registry := w.registry.setDefinition id d.marked } with ⟨answer, w2⟩
          have hadv := (flatten_advances hvisit hkind hrun).1
          -- What is below a shape on the trail leaves the shape as it is.
          have hd2 : w2.registry.arena.get? id = some d.marked := by
            rw [hadv.registry.unchanged id hid]
            exact Arena.get?_set_self d.marked hd
          rw [hrun, run_finish] at h
          simp only [hd2] at h
          apply Or.inr
          cases answer with
          | ok s =>
              cases h
              exact ⟨d, kind, w2, rfl, hkind, hrun, hd2, rfl⟩
          | error failure =>
              cases h
              exact ⟨d, kind, w2, rfl, hkind, hrun, hd2, rfl⟩

theorem settle_advances (hvisit : Steady visit) {id : ShapeId} {rest : List ShapeId}
    {w w' : Walk} {result : Except Failure Shape}
    (hvisiting : w.trail.visiting = id :: rest) (hrest : id ∉ rest)
    (hnone : w.registry.arena.cached? id = none)
    (h : (settle visit id).run w = (result, w')) :
    (w'.trail.limits = w.trail.limits ∧ w'.trail.visiting = w.trail.visiting ∧
        w'.trail.depth = w.trail.depth) ∧
      Walked rest w.registry w'.registry ∧
      Succeeds (fun s => w'.registry.arena.cached? id = some s) result := by
  have hid : id ∈ w.trail.visiting := by
    rw [hvisiting]
    exact List.mem_cons_self
  rcases settle_cases hvisit hid h with ⟨_, ⟨name, rfl⟩, rfl⟩ |
    ⟨d, kind, w2, hd, hkind, hrun, hd2, hend⟩
  · exact ⟨⟨rfl, rfl, rfl⟩, .refl _ _, trivial⟩
  · rcases flatten_advances hvisit hkind hrun with ⟨hadv, hflat⟩
    have hresolved : d.resolved = none := by
      rw [← hnone, cached?_of_get? hd]
    have hwalk : Walked (id :: rest) (w.registry.setDefinition id d.marked) w2.registry := by
      rw [← hvisiting]
      exact hadv.registry
    have htrail := And.intro hadv.limits (And.intro hadv.visiting hadv.depth)
    have hbegun : w.registry.Faithful -> w2.registry.Faithful := by
      intro hfaithful
      exact hwalk.faithful (hfaithful.mark hd hresolved)
    cases result with
    | error failure =>
        cases hend
        refine ⟨htrail, ?_, trivial⟩
        apply Walked.around hd hrest hwalk (Definition.walked_unmarked_marked hresolved) rfl
        intro hfaithful
        apply (hbegun hfaithful).unmark hd2
        rw [Definition.marked_resolved]
        exact hresolved
    | ok s =>
        cases hend
        refine ⟨htrail, ?_, ?_⟩
        · apply Walked.around hd hrest hwalk (Definition.walked_keep_marked hresolved s) rfl
          intro hfaithful
          apply (hbegun hfaithful).keep hd2
          rw [(Definition.sameDeclaration_marked d).flattened_eq]
          exact hflat
        · exact Faithful.cached?_setDefinition_self _ hd2

theorem visitBy_cases {settle : ShapeId -> WalkM Shape} {route : Route} {id : ShapeId}
    {w w' : Walk} {result : Except Failure Shape}
    (h : (visitBy settle route id).run w = (result, w')) :
    (exists s, w.registry.arena.cached? id = some s ∧ result = .ok s ∧ w' = w) ∨
      (w.registry.arena.cached? id = none ∧
        exists entry trail, w.trail.enter id = (entry, trail) ∧ entry ≠ .entered ∧
          result = .error (refusal w.registry route id entry) ∧ w' = { w with trail }) ∨
      (w.registry.arena.cached? id = none ∧
        exists trail w1, w.trail.enter id = (.entered, trail) ∧
          (settle id).run { w with trail } = (result, w1) ∧
          w' = { w1 with trail := w1.trail.leave id }) := by
  rw [run_visitBy] at h
  cases hcached : w.registry.arena.cached? id with
  | some s =>
      rw [hcached] at h
      cases h
      exact Or.inl ⟨s, rfl, rfl, rfl⟩
  | none =>
      rw [hcached] at h
      simp only [run_inside] at h
      apply Or.inr
      rcases henter : w.trail.enter id with ⟨entry, trail⟩
      rw [henter] at h
      cases entry with
      | entered =>
          rcases hrun : (settle id).run { w with trail } with ⟨answer, w1⟩
          simp only [hrun] at h
          cases h
          exact Or.inr ⟨rfl, trail, w1, rfl, hrun, rfl⟩
      | cycle =>
          cases h
          exact Or.inl ⟨rfl, .cycle, trail, rfl, by simp, rfl, rfl⟩
      | tooDeep =>
          cases h
          exact Or.inl ⟨rfl, .tooDeep, trail, rfl, by simp, rfl, rfl⟩
      | tooManySteps =>
          cases h
          exact Or.inl ⟨rfl, .tooManySteps, trail, rfl, by simp, rfl, rfl⟩

theorem visitBy_steady {settle : ShapeId -> WalkM Shape}
    (hsettle : forall {id : ShapeId} {w w' : Walk} {rest : List ShapeId}
      {result : Except Failure Shape},
      w.trail.visiting = id :: rest -> id ∉ rest -> w.registry.arena.cached? id = none ->
      (settle id).run w = (result, w') ->
        (w'.trail.limits = w.trail.limits ∧ w'.trail.visiting = w.trail.visiting ∧
            w'.trail.depth = w.trail.depth) ∧
          Walked rest w.registry w'.registry ∧
          Succeeds (fun s => w'.registry.arena.cached? id = some s) result) :
    Steady (visitBy settle) := by
  intro route id w result w' h
  rcases visitBy_cases h with ⟨s, hcached, rfl, rfl⟩ |
    ⟨_, entry, trail, henter, hrefused, rfl, rfl⟩ | ⟨hnone, trail, w1, henter, hrun, rfl⟩
  · exact ⟨.refl _, hcached⟩
  · refine ⟨?_, trivial⟩
    rcases Trail.enter_cases henter with ⟨hlimits, _, hcases⟩
    rcases hcases with ⟨_, _, hvisiting, hdepth⟩ | ⟨_, _, hvisiting, hdepth⟩ |
      ⟨_, _, _, hvisiting, hdepth⟩ | ⟨hentered, _⟩
    · exact ⟨hlimits, hvisiting, hdepth, .refl _ _⟩
    · exact ⟨hlimits, hvisiting, hdepth, .refl _ _⟩
    · exact ⟨hlimits, hvisiting, hdepth, .refl _ _⟩
    · exact absurd hentered hrefused
  · rcases Trail.enter_entered henter with ⟨hlimits, _, hnew, _, hvisiting, hdepth⟩
    rcases hsettle (w := { w with trail }) hvisiting hnew hnone hrun with
      ⟨⟨hlimits1, hvisiting1, hdepth1⟩, hwalk, hkept⟩
    rcases Trail.leave_entered (hvisiting1.trans hvisiting) with ⟨hlimits2, _, hvisiting2, hdepth2⟩
    refine ⟨⟨hlimits2.trans (hlimits1.trans hlimits), hvisiting2, ?_, hwalk⟩, hkept⟩
    rw [hdepth2, hdepth1, hdepth]
    rfl

theorem visit_steady (levels : Nat) : Steady (WalkM.visit levels) := by
  induction levels with
  | zero =>
      apply visitBy_steady
      intro id w w' rest result _ _ _ h
      cases h
      exact ⟨⟨rfl, rfl, rfl⟩, .refl _ _, trivial⟩
  | succ levels ih => exact visitBy_steady (settle_advances ih)

end Flattening

end WalkM

/-!
# Resolving

A resolution is a walk that starts with an empty trail; in a faithful registry
it ends with the flattening.
-/

theorem run_resolve (id : ShapeId) (r : Registry) :
    (resolve id).run r =
      let out := (WalkM.visit Limits.resolution.maxDepth .root id).run
        ⟨r, Trail.start Limits.resolution⟩
      (out.1.mapError (blameRoot (r.displayName id)), out.2.registry) := rfl

theorem run_resolveType (t : FieldType) (r : Registry) :
    (resolveType t).run r =
      let out := (WalkM.shapeOf (WalkM.visit Limits.resolution.maxDepth) t).run
        ⟨r, Trail.start Limits.resolution⟩
      (out.1, out.2.registry) := rfl

theorem run_freeze (id : ShapeId) (r : Registry) :
    (freeze id).run r =
      match (resolve id).run r with
      | (.error failure, r1) => (.error failure, r1)
      | (.ok s, r1) =>
          (.ok s,
            match r1.arena.get? id with
            | some d => r1.setDefinition id { d with stage := .frozen }
            | none => r1) := by
  unfold freeze
  rw [run_bind]
  rcases (resolve id).run r with ⟨answer, r1⟩
  cases answer <;> rfl

theorem run_freeze_fst (id : ShapeId) (r : Registry) :
    ((freeze id).run r).1 = ((resolve id).run r).1 := by
  rw [run_freeze]
  rcases (resolve id).run r with ⟨answer, r1⟩
  cases answer <;> rfl

theorem resolve_walked {id : ShapeId} {r r' : Registry} {result : Except Failure Shape}
    (h : (resolve id).run r = (result, r')) :
    Walked [] r r' ∧
      Succeeds (fun s => r'.arena.cached? id = some s) result := by
  rw [run_resolve] at h
  rcases hrun : (WalkM.visit Limits.resolution.maxDepth .root id).run
    ⟨r, Trail.start Limits.resolution⟩ with ⟨answer, w⟩
  simp only [hrun] at h
  cases h
  rcases WalkM.visit_steady Limits.resolution.maxDepth hrun with ⟨hadv, hkept⟩
  refine ⟨hadv.registry, ?_⟩
  cases answer with
  | error failure => trivial
  | ok s => exact hkept

theorem resolveType_walked {t : FieldType} {r r' : Registry}
    {result : Except Failure Shape} (h : (resolveType t).run r = (result, r')) :
    Walked [] r r' ∧
      Succeeds (fun s => t.shapeFrom r'.arena.cached? = some s) result := by
  rw [run_resolveType] at h
  rcases hrun : (WalkM.shapeOf (WalkM.visit Limits.resolution.maxDepth) t).run
    ⟨r, Trail.start Limits.resolution⟩ with ⟨answer, w⟩
  simp only [hrun] at h
  cases h
  rcases WalkM.shapeOf_advances (WalkM.visit_steady Limits.resolution.maxDepth) hrun with
    ⟨hadv, hfrom⟩
  exact ⟨hadv.registry, hfrom⟩

theorem flattens_of_resolve {id : ShapeId} {r r' : Registry} {s : Shape}
    (hr : r.Faithful) (h : (resolve id).run r = (.ok s, r')) : r.Flattens id s := by
  rcases resolve_walked h with ⟨hwalk, hkept⟩
  exact hwalk.sameDeclarations.flattens_iff.mp ((hwalk.faithful hr).flattens hkept)

theorem typeFlattens_of_resolveType {t : FieldType} {r r' : Registry} {s : Shape}
    (hr : r.Faithful) (h : (resolveType t).run r = (.ok s, r')) : r.TypeFlattens t s := by
  rcases resolveType_walked h with ⟨hwalk, hfrom⟩
  apply hwalk.sameDeclarations.typeFlattens_iff.mp
  exact typeFlattens_of_shapeFrom (fun _ _ _ hu => (hwalk.faithful hr).flattens hu) hfrom

end Registry
end Shapes
