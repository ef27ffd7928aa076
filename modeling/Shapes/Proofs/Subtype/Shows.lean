import Shapes.Proofs.Registry.Walk
import Shapes.Registry.Subtype

/-!
# What a comparison shows

A comparison resolves names as it goes and assumes the pairs of references that
it is in the middle of comparing.  `CompareM.Shows` ties a comparison to what is
known when it answers yes: it may depend on the pairs that are assumed, and it
speaks about the declarations of one registry, which do not change meanwhile.

The rules below are those that comparisons are made of: several of them one after
the other, the shapes that two resolutions find, and a pair of references.
-/

namespace Shapes
namespace Registry

/-- References that are compared, the first with the second. -/
abbrev Pairs := List (ShapeId × ShapeId)

namespace CompareM

/-!
# Frames

Whatever a comparison answers, it leaves the same pairs on the trail, keeps the
declarations and gives no step back.
-/

/-- What a comparison keeps, whatever it answers.  Steps are never given back. -/
structure Advances (c c' : Comparison) : Prop where
  limits : c'.trail.limits = c.trail.limits
  visiting : c'.trail.visiting = c.trail.visiting
  depth : c'.trail.depth = c.trail.depth
  steps : forall n, n < Trail.stepCeiling -> c'.trail.steps ≤ n -> c.trail.steps ≤ n
  expansions : c'.expansions = c.expansions
  registry : Walked [] c.registry c'.registry

namespace Advances

theorem refl (c : Comparison) : Advances c c :=
  ⟨rfl, rfl, rfl, fun _ _ h => h, rfl, .refl [] c.registry⟩

theorem trans {c c' c'' : Comparison} (h : Advances c c') (h' : Advances c' c'') :
    Advances c c'' := by
  refine ⟨h'.limits.trans h.limits, h'.visiting.trans h.visiting, h'.depth.trans h.depth, ?_,
    h'.expansions.trans h.expansions, h.registry.trans h'.registry⟩
  intro n hn hsteps
  exact h.steps n hn (h'.steps n hn hsteps)

theorem walked {c : Comparison} {r : Registry} (h : Walked [] c.registry r) :
    Advances c { c with registry := r } :=
  ⟨rfl, rfl, rfl, fun _ _ hsteps => hsteps, rfl, h⟩

theorem refused {c : Comparison} {pair : ShapeId × ShapeId} {entry : Entry}
    {trail : Trail (ShapeId × ShapeId)} (henter : c.trail.enter pair = (entry, trail))
    (hrefused : entry ≠ .entered) : Advances c { c with trail } := by
  rcases Trail.enter_cases henter with ⟨hlimits, hsteps, hcases⟩
  have hspent : forall n, n < Trail.stepCeiling -> trail.steps ≤ n -> c.trail.steps ≤ n := by
    intro n hn hle
    omega
  rcases hcases with ⟨_, _, hvisiting, hdepth⟩ | ⟨_, _, hvisiting, hdepth⟩ |
    ⟨_, _, _, hvisiting, hdepth⟩ | ⟨hentered, _⟩
  · exact ⟨hlimits, hvisiting, hdepth, hspent, rfl, .refl [] c.registry⟩
  · exact ⟨hlimits, hvisiting, hdepth, hspent, rfl, .refl [] c.registry⟩
  · exact ⟨hlimits, hvisiting, hdepth, hspent, rfl, .refl [] c.registry⟩
  · exact absurd hentered hrefused

theorem left {c c1 : Comparison} {pair : ShapeId × ShapeId} {trail : Trail (ShapeId × ShapeId)}
    (henter : c.trail.enter pair = (.entered, trail)) (h : Advances { c with trail } c1) :
    Advances c { c1 with trail := c1.trail.leave pair } := by
  rcases Trail.enter_entered henter with ⟨hlimits, hsteps, _, _, hvisiting, hdepth⟩
  rcases Trail.leave_entered (h.visiting.trans hvisiting) with
    ⟨hlimits', hsteps', hvisiting', hdepth'⟩
  refine ⟨hlimits'.trans (h.limits.trans hlimits), hvisiting', ?_, ?_, h.expansions, h.registry⟩
  · show (c1.trail.leave pair).depth = c.trail.depth
    rw [hdepth', h.depth, hdepth, Nat.add_sub_cancel]
  · intro n hn hle
    have hinside : trail.steps ≤ n := h.steps n hn (hsteps' ▸ hle)
    omega

end Advances

/-- A comparison over a registry with the declarations of a given one. -/
structure Over (r : Registry) (c : Comparison) : Prop where
  same : r.SameDeclarations c.registry
  faithful : c.registry.Faithful

theorem Over.advance {r : Registry} {c c' : Comparison} (h : Over r c) (hadv : Advances c c') :
    Over r c' :=
  ⟨h.same.trans hadv.registry.sameDeclarations, hadv.registry.faithful h.faithful⟩

/-- A comparison that answers yes only if something follows from the assumed pairs. -/
structure Shows (r : Registry) (compare : CompareM Bool) (shown : Pairs -> Prop) : Prop where
  advances : forall {c answer c'}, compare.run c = (answer, c') -> Advances c c'
  sound : forall {c c'}, Over r c -> compare.run c = (true, c') -> shown c.trail.visiting

namespace Shows

variable {r : Registry} {first second : CompareM Bool} {shown shown' : Pairs -> Prop}

theorem imp (h : Shows r first shown) (himp : forall pairs, shown pairs -> shown' pairs) :
    Shows r first shown' := by
  refine ⟨h.advances, ?_⟩
  intro c c' hover hrun
  exact himp _ (h.sound hover hrun)

theorem pure {answer : Bool} (h : answer = true -> forall pairs, shown pairs) :
    Shows r (Pure.pure answer) shown := by
  constructor
  · intro c answer' c' hrun
    cases hrun
    exact .refl c
  · intro c c' _ hrun
    cases hrun
    exact h rfl c.trail.visiting

theorem ite {condition : Bool} (hthen : condition = true -> forall pairs, shown pairs)
    (helse : Shows r second shown) :
    Shows r (if condition then Pure.pure true else second) shown := by
  split
  · rename_i hcondition
    exact Shows.pure fun _ => hthen hcondition
  · exact helse

/-!
# One after the other

Checks that are combined by "all of them" show what all of them show, and checks
that are combined by "one of them" what one of them shows.
-/

theorem both (hfirst : Shows r first shown) (hsecond : Shows r second shown') :
    Shows r (first >>= fun answer => if answer then second else Pure.pure false)
      fun pairs => shown pairs ∧ shown' pairs := by
  constructor
  · intro c answer c' hrun
    rw [run_stateBind] at hrun
    rcases hstep : first.run c with ⟨yes, c1⟩
    rw [hstep] at hrun
    have hadv := hfirst.advances hstep
    cases yes with
    | true => exact hadv.trans (hsecond.advances hrun)
    | false =>
        cases hrun
        exact hadv
  · intro c c' hover hrun
    rw [run_stateBind] at hrun
    rcases hstep : first.run c with ⟨yes, c1⟩
    rw [hstep] at hrun
    have hadv := hfirst.advances hstep
    cases yes with
    | true =>
        have hrest := hsecond.sound (hover.advance hadv) hrun
        rw [hadv.visiting] at hrest
        exact ⟨hfirst.sound hover hstep, hrest⟩
    | false => cases hrun

theorem either (hfirst : Shows r first shown) (hsecond : Shows r second shown') :
    Shows r (first >>= fun answer => if answer then Pure.pure true else second)
      fun pairs => shown pairs ∨ shown' pairs := by
  constructor
  · intro c answer c' hrun
    rw [run_stateBind] at hrun
    rcases hstep : first.run c with ⟨yes, c1⟩
    rw [hstep] at hrun
    have hadv := hfirst.advances hstep
    cases yes with
    | true =>
        cases hrun
        exact hadv
    | false => exact hadv.trans (hsecond.advances hrun)
  · intro c c' hover hrun
    rw [run_stateBind] at hrun
    rcases hstep : first.run c with ⟨yes, c1⟩
    rw [hstep] at hrun
    have hadv := hfirst.advances hstep
    cases yes with
    | true => exact Or.inl (hfirst.sound hover hstep)
    | false =>
        have hrest := hsecond.sound (hover.advance hadv) hrun
        rw [hadv.visiting] at hrest
        exact Or.inr hrest

section Lists

variable {α : Type} {list : List α} {check : α -> CompareM Bool} {shownOf : α -> Pairs -> Prop}

theorem allM (h : forall a, a ∈ list -> Shows r (check a) (shownOf a)) :
    Shows r (list.allM check) fun pairs => forall a, a ∈ list -> shownOf a pairs := by
  induction list with
  | nil =>
      apply Shows.pure
      intro _ pairs a ha
      cases ha
  | cons a rest ih =>
      rw [List.allM_cons]
      have hfirst := h a List.mem_cons_self
      have hrest := ih fun b hb => h b (List.mem_cons_of_mem a hb)
      apply (hfirst.both hrest).imp
      intro pairs hall
      exact List.forall_mem_cons.mpr hall

theorem anyM (h : forall a, a ∈ list -> Shows r (check a) (shownOf a)) :
    Shows r (list.anyM check) fun pairs => exists a, a ∈ list ∧ shownOf a pairs := by
  induction list with
  | nil =>
      apply Shows.pure
      intro hfalse
      cases hfalse
  | cons a rest ih =>
      rw [List.anyM_cons]
      have hfirst := h a List.mem_cons_self
      have hrest := ih fun b hb => h b (List.mem_cons_of_mem a hb)
      apply (hfirst.either hrest).imp
      intro pairs hcases
      rcases hcases with hshown | ⟨b, hb, hshown⟩
      · exact ⟨a, List.mem_cons_self, hshown⟩
      · exact ⟨b, List.mem_cons_of_mem a hb, hshown⟩

end Lists

end Shows

/-!
# Lists of comparisons

The recursions over lists are checks of all members or of some member.
-/

section Lists

variable (below : Shape -> Shape -> CompareM Bool)

theorem memberBelowAll_eq_allM (source : FieldType) (targets : List FieldType) :
    memberBelowAll below source targets = targets.allM (memberBelow below source) := by
  induction targets with
  | nil => rfl
  | cons t rest ih => rw [memberBelowAll, ih, List.allM_cons]

theorem memberBelowSome_eq_anyM (source : FieldType) (targets : List FieldType) :
    memberBelowSome below source targets = targets.anyM (memberBelow below source) := by
  induction targets with
  | nil => rfl
  | cons t rest ih => rw [memberBelowSome, ih, List.anyM_cons]

theorem typesBelow_eq_allM (target : FieldType) (sources : List FieldType) :
    typesBelow below target sources = sources.allM (typeBelow below target) := by
  induction sources with
  | nil => rfl
  | cons s rest ih => rw [typesBelow, ih, List.allM_cons]

theorem branchBelowSome_eq_anyM (source : Shape) (targets : List Shape) :
    branchBelowSome below source targets = targets.anyM (branchBelow below source) := by
  induction targets with
  | nil => rfl
  | cons t rest ih => rw [branchBelowSome, ih, List.anyM_cons]

theorem shapesBelow_eq_allM (target : Shape) (sources : List Shape) :
    shapesBelow below target sources = sources.allM (shapeBelow below target) := by
  induction sources with
  | nil => rfl
  | cons s rest ih => rw [shapesBelow, ih, List.allM_cons]

/-- Compare one field of an object. -/
def fieldBelow (source : Table FieldType) (key : String) (target : FieldType) : CompareM Bool :=
  match source.get? key with
  | some t => typeBelow below target t
  | none => pure target.admitsUndefined

theorem fieldsBelow_eq_allM (source : Table FieldType) (targets : List (String × FieldType)) :
    fieldsBelow below source targets =
      targets.allM fun e => fieldBelow below source e.1 e.2 := by
  induction targets with
  | nil => rfl
  | cons e rest ih =>
      rw [fieldsBelow, ih, List.allM_cons, fieldBelow]
      cases source.get? e.1 <;> rfl

end Lists

/-!
# Shapes that are found

An operation on the registry finds the shape of the declarations or fails, and a
comparison of what two of them find has one case for each outcome.
-/

/-- A registry operation that finds shapes of a kind and changes nothing else. -/
structure Finds (r : Registry) (action : RegistryM Shape) (found : Shape -> Prop) : Prop where
  walked : forall {r1 result r2}, action.run r1 = (result, r2) -> Walked [] r1 r2
  found : forall {r1 s r2}, r.SameDeclarations r1 -> r1.Faithful ->
    action.run r1 = (.ok s, r2) -> found s

theorem finds_resolve (r : Registry) (id : ShapeId) :
    Finds r (resolve id) (r.Flattens id) := by
  constructor
  · intro r1 result r2 hrun
    exact (resolve_walked hrun).1
  · intro r1 s r2 hsame hfaithful hrun
    exact hsame.flattens_iff.mp (flattens_of_resolve hfaithful hrun)

theorem finds_resolveType (r : Registry) (t : FieldType) :
    Finds r (resolveType t) (r.TypeFlattens t) := by
  constructor
  · intro r1 result r2 hrun
    exact (resolveType_walked hrun).1
  · intro r1 s r2 hsame hfaithful hrun
    exact hsame.typeFlattens_iff.mp (typeFlattens_of_resolveType hfaithful hrun)

/-- Compare what two registry operations find. -/
def betweenShapes (source target : RegistryM Shape) (compare : Shape -> Shape -> CompareM Bool) :
    CompareM Bool := do
  let s <- onRegistry source
  let t <- onRegistry target
  match s, t with
  | some s, some t => compare s t
  | _, _ => pure false

section Between

variable {r : Registry} {source target : RegistryM Shape}
  {compare : Shape -> Shape -> CompareM Bool}

theorem run_onRegistry {α : Type} {action : RegistryM α} {c : Comparison}
    {result : Except Failure α} {r1 : Registry} (h : action.run c.registry = (result, r1)) :
    (onRegistry action).run c = (result.toOption, { c with registry := r1 }) := by
  have hrun : (onRegistry action).run c =
      ((action.run c.registry).1.toOption, { c with registry := (action.run c.registry).2 }) :=
    rfl
  rw [hrun, h]

theorem run_betweenShapes_eq (c : Comparison) :
    (betweenShapes source target compare).run c =
      match (source.run c.registry).1.toOption,
        (target.run (source.run c.registry).2).1.toOption with
      | some s, some t =>
          (compare s t).run { c with registry := (target.run (source.run c.registry).2).2 }
      | _, _ => (false, { c with registry := (target.run (source.run c.registry).2).2 }) := by
  rcases hsource : source.run c.registry with ⟨first, r1⟩
  rcases htarget : target.run r1 with ⟨second, r2⟩
  have htarget' : target.run ({ c with registry := r1 } : Comparison).registry = (second, r2) :=
    htarget
  unfold betweenShapes
  rw [run_stateBind, run_onRegistry hsource, run_stateBind, run_onRegistry htarget']
  cases first with
  | error failure => rfl
  | ok s => cases second <;> rfl

theorem run_betweenShapes {c : Comparison} {s t : Shape} {r1 r2 : Registry}
    (hs : source.run c.registry = (.ok s, r1)) (ht : target.run r1 = (.ok t, r2)) :
    (betweenShapes source target compare).run c =
      (compare s t).run { c with registry := r2 } := by
  rw [run_betweenShapes_eq]
  simp only [hs, ht]
  rfl

theorem betweenShapes_cases {c c' : Comparison} {answer : Bool}
    (h : (betweenShapes source target compare).run c = (answer, c')) :
    exists first second r1 r2, source.run c.registry = (first, r1) ∧
      target.run r1 = (second, r2) ∧
      ((exists s t, first = .ok s ∧ second = .ok t ∧
          (compare s t).run { c with registry := r2 } = (answer, c')) ∨
        answer = false ∧ c' = { c with registry := r2 }) := by
  rcases hsource : source.run c.registry with ⟨first, r1⟩
  rcases htarget : target.run r1 with ⟨second, r2⟩
  refine ⟨first, second, r1, r2, rfl, htarget, ?_⟩
  rw [run_betweenShapes_eq] at h
  simp only [hsource, htarget] at h
  cases first with
  | error failure =>
      cases h
      exact Or.inr ⟨rfl, rfl⟩
  | ok s =>
      cases second with
      | error failure =>
          cases h
          exact Or.inr ⟨rfl, rfl⟩
      | ok t => exact Or.inl ⟨s, t, rfl, rfl, h⟩

theorem shows_betweenShapes {isSource isTarget : Shape -> Prop}
    {shown : Shape -> Shape -> Pairs -> Prop} (hsource : Finds r source isSource)
    (htarget : Finds r target isTarget)
    (hcompare : forall s t, Shows r (compare s t) (shown s t)) :
    Shows r (betweenShapes source target compare)
      fun pairs => exists s t, isSource s ∧ isTarget t ∧ shown s t pairs := by
  constructor
  · intro c answer c' hrun
    rcases betweenShapes_cases hrun with ⟨first, second, r1, r2, hfirst, hsecond, hend⟩
    have hwalk := (hsource.walked hfirst).trans (htarget.walked hsecond)
    have hadv : Advances c { c with registry := r2 } := .walked hwalk
    rcases hend with ⟨s, t, _, _, hlast⟩ | ⟨_, rfl⟩
    · exact hadv.trans ((hcompare s t).advances hlast)
    · exact hadv
  · intro c c' hover hrun
    rcases betweenShapes_cases hrun with ⟨first, second, r1, r2, hfirst, hsecond, hend⟩
    have hwalk1 := hsource.walked hfirst
    have hwalk2 := htarget.walked hsecond
    have hsame1 := hover.same.trans hwalk1.sameDeclarations
    have hfaithful1 := hwalk1.faithful hover.faithful
    rcases hend with ⟨s, t, rfl, rfl, hlast⟩ | ⟨hfalse, _⟩
    · have hadv : Advances c { c with registry := r2 } := .walked (hwalk1.trans hwalk2)
      refine ⟨s, t, hsource.found hover.same hover.faithful hfirst,
        htarget.found hsame1 hfaithful1 hsecond, ?_⟩
      exact (hcompare s t).sound (c := { c with registry := r2 }) (hover.advance hadv) hlast
    · cases hfalse

end Between

/-!
# The two ways to come to shapes

A pair of references is refused, met again, or compared with the pair on the
trail.  Types are expanded to their shapes without leaving a trace of the pair.
-/

section Rules

variable {r : Registry} {below : Shape -> Shape -> CompareM Bool}
  {shown : Shape -> Shape -> Pairs -> Prop}

theorem run_referencesBelow {source target : ShapeId} (hne : source ≠ target)
    (c : Comparison) :
    (referencesBelow below source target).run c =
      match c.trail.enter (source, target) with
      | (.entered, trail) =>
          let out := (betweenShapes (resolve source) (resolve target) below).run { c with trail }
          (out.1, { out.2 with trail := out.2.trail.leave (source, target) })
      | (.cycle, trail) => (true, { c with trail })
      | (_, trail) => (false, { c with trail }) := by
  unfold referencesBelow
  rw [if_neg hne, run_stateGet]
  rcases c.trail.enter (source, target) with ⟨entry, trail⟩
  cases entry with
  | entered =>
      rcases hs : (onRegistry (resolve source)).run { c with trail } with ⟨s, c1⟩
      rcases ht : (onRegistry (resolve target)).run c1 with ⟨t, c2⟩
      simp only [betweenShapes, run_stateSet, run_stateBind, hs, ht]
      cases s <;> cases t <;> rfl
  | cycle => rfl
  | tooDeep => rfl
  | tooManySteps => rfl

theorem referencesBelow_cases {source target : ShapeId} (hne : source ≠ target)
    {c c' : Comparison} {answer : Bool}
    (h : (referencesBelow below source target).run c = (answer, c')) :
    (exists entry trail, c.trail.enter (source, target) = (entry, trail) ∧ entry ≠ .entered ∧
        answer = entry.isCycle ∧ c' = { c with trail }) ∨
      exists trail c1, c.trail.enter (source, target) = (.entered, trail) ∧
        (betweenShapes (resolve source) (resolve target) below).run { c with trail } =
          (answer, c1) ∧
        c' = { c1 with trail := c1.trail.leave (source, target) } := by
  rw [run_referencesBelow hne] at h
  rcases henter : c.trail.enter (source, target) with ⟨entry, trail⟩
  rw [henter] at h
  cases entry with
  | entered =>
      rcases hout : (betweenShapes (resolve source) (resolve target) below).run
        { c with trail } with ⟨yes, c1⟩
      simp only [hout] at h
      cases h
      exact Or.inr ⟨trail, c1, rfl, hout, rfl⟩
  | cycle =>
      cases h
      exact Or.inl ⟨.cycle, trail, rfl, by simp, rfl, rfl⟩
  | tooDeep =>
      cases h
      exact Or.inl ⟨.tooDeep, trail, rfl, by simp, rfl, rfl⟩
  | tooManySteps =>
      cases h
      exact Or.inl ⟨.tooManySteps, trail, rfl, by simp, rfl, rfl⟩

theorem shows_referencesBelow (hbelow : forall s t, Shows r (below s t) (shown s t))
    (source target : ShapeId) :
    Shows r (referencesBelow below source target)
      fun pairs => source = target ∨ (source, target) ∈ pairs ∨
        exists s t, r.Flattens source s ∧ r.Flattens target t ∧
          shown s t ((source, target) :: pairs) := by
  have hinside := shows_betweenShapes (finds_resolve r source) (finds_resolve r target) hbelow
  by_cases heq : source = target
  · have hrun : referencesBelow below source target = Pure.pure true := by
      unfold referencesBelow
      rw [if_pos heq]
    rw [hrun]
    exact Shows.pure fun _ _ => Or.inl heq
  · constructor
    · intro c answer c' hrun
      rcases referencesBelow_cases heq hrun with ⟨entry, trail, henter, hrefused, _, rfl⟩ |
        ⟨trail, c1, henter, hout, rfl⟩
      · exact .refused henter hrefused
      · exact .left henter (hinside.advances hout)
    · intro c c' hover hrun
      rcases referencesBelow_cases heq hrun with ⟨entry, trail, henter, _, hcycle, _⟩ |
        ⟨trail, c1, henter, hout, _⟩
      · have hentry : entry = .cycle := of_decide_eq_true hcycle.symm
        exact Or.inr (Or.inl (Trail.mem_of_enter_cycle (hentry ▸ henter)))
      · have hover1 : Over r { c with trail } := ⟨hover.same, hover.faithful⟩
        have hshown := hinside.sound hover1 hout
        rcases Trail.enter_entered henter with ⟨_, _, _, _, hvisiting, _⟩
        simp only [hvisiting] at hshown
        exact Or.inr (Or.inr hshown)

/-- A comparison that counts as an expansion. -/
def counted (compare : CompareM Bool) : CompareM Bool := do
  modify fun c => { c with expansions := c.expansions + 1 }
  let answer <- compare
  modify fun c => { c with expansions := c.expansions - 1 }
  return answer

theorem run_counted (compare : CompareM Bool) (c : Comparison) :
    (counted compare).run c =
      let out := compare.run { c with expansions := c.expansions + 1 }
      (out.1, { out.2 with expansions := out.2.expansions - 1 }) := rfl

theorem shows_counted {compare : CompareM Bool} {shown : Pairs -> Prop}
    (h : Shows r compare shown) : Shows r (counted compare) shown := by
  constructor
  · intro c answer c' hanswer
    rw [run_counted] at hanswer
    rcases hout : compare.run { c with expansions := c.expansions + 1 } with ⟨yes, c1⟩
    simp only [hout] at hanswer
    cases hanswer
    have hadv := h.advances hout
    refine ⟨hadv.limits, hadv.visiting, hadv.depth, hadv.steps, ?_, hadv.registry⟩
    show c1.expansions - 1 = c.expansions
    rw [hadv.expansions, Nat.add_sub_cancel]
  · intro c c' hover hanswer
    rw [run_counted] at hanswer
    rcases hout : compare.run { c with expansions := c.expansions + 1 } with ⟨yes, c1⟩
    simp only [hout] at hanswer
    cases hanswer
    exact h.sound (c := { c with expansions := c.expansions + 1 })
      ⟨hover.same, hover.faithful⟩ hout

theorem run_expandedBelow (source target : FieldType) (c : Comparison) :
    (expandedBelow below source target).run c =
      if Limits.comparison.maxDepth ≤ c.expansions then (false, c)
      else (betweenShapes (resolveType source) (resolveType target)
        fun s t => counted (below s t)).run c := by
  unfold expandedBelow
  rw [run_stateGet]
  split <;> rfl

theorem shows_expandedBelow (hbelow : forall s t, Shows r (below s t) (shown s t))
    (source target : FieldType) :
    Shows r (expandedBelow below source target)
      fun pairs => exists s t, r.TypeFlattens source s ∧ r.TypeFlattens target t ∧
        shown s t pairs := by
  have hinside := shows_betweenShapes (finds_resolveType r source) (finds_resolveType r target)
    fun s t => shows_counted (hbelow s t)
  constructor
  · intro c answer c' hanswer
    rw [run_expandedBelow] at hanswer
    split at hanswer
    · cases hanswer
      exact .refl c
    · exact hinside.advances hanswer
  · intro c c' hover hanswer
    rw [run_expandedBelow] at hanswer
    split at hanswer
    · cases hanswer
    · exact hinside.sound hover hanswer

end Rules

end CompareM
end Registry
end Shapes
