import Shapes.Proofs.Subtype.Completeness
import Shapes.Proofs.Subtype.Following

/-!
# Comparisons that are used again

A comparison may be asked one question after another.  Between two questions nothing is
under way, so what is left of an earlier question is the number of attempts it took, and
the shapes that it had the registry keep.

A fresh comparison has taken fewer attempts.  As long as the older one has attempts left,
both of them let in the same pairs; once it has none, it refuses every pair of different
references.  Kept shapes make no difference where every type that flattens resolves, as
in a registry that is not larger than a resolution may be deep.
-/

namespace Shapes
namespace Registry
namespace CompareM

/-!
# Questions

A question opens and closes its frames, so nothing is under way afterwards but
for the attempts that were counted.
-/

/-- What a comparison may be asked. -/
inductive Question where
  | types (source target : FieldType)
  | shapes (source target : Shape)
  | equivalence (a b : FieldType)

def Question.ask : Question -> CompareM Bool
  | types source target => isBelow source target
  | shapes source target => isShapeBelow source target
  | equivalence a b => areEquivalent a b

/-- A comparison after it has been asked one question after another. -/
def asked (past : List Question) (c : Comparison) : Comparison :=
  past.foldl (fun c q => (q.ask.run c).2) c

/-- A comparison with nothing under way. -/
structure Idle (c : Comparison) : Prop where
  visiting : c.trail.visiting = []
  depth : c.trail.depth = 0
  expansions : c.expansions = 0

theorem Question.advances (q : Question) (c : Comparison) : Advances c (q.ask.run c).2 := by
  cases q with
  | types source target => exact (shows_isBelow c.registry source target).advances rfl
  | shapes source target => exact (shows_isShapeBelow c.registry source target).advances rfl
  | equivalence a b => exact (shows_areEquivalent c.registry a b).advances rfl

theorem advances_asked (past : List Question) (c : Comparison) : Advances c (asked past c) := by
  induction past generalizing c with
  | nil => exact .refl c
  | cons q rest ih => exact (q.advances c).trans (ih _)

theorem Idle.advance {c c' : Comparison} (h : Idle c) (hadv : Advances c c') : Idle c' :=
  ⟨hadv.visiting.trans h.visiting, hadv.depth.trans h.depth, hadv.expansions.trans h.expansions⟩

theorem idle_start (r : Registry) : Idle (start r) :=
  ⟨rfl, rfl, rfl⟩

/-!
# An old comparison and a younger one

Both are at the same point with the same pairs on their trails; the older one
has taken more attempts.  They part when its attempts are spent, and then it
answers no.
-/

/-- A comparison that has no attempts left. -/
def Spent (c : Comparison) : Prop :=
  Limits.comparison.maxSteps < c.trail.steps

/-- An old and a younger comparison at the same point of the same question. -/
structure Abreast (r : Registry) (c d : Comparison) : Prop where
  limits : c.trail.limits = Limits.comparison
  limits' : d.trail.limits = c.trail.limits
  visiting : d.trail.visiting = c.trail.visiting
  depth : d.trail.depth = c.trail.depth
  expansions : d.expansions = c.expansions
  walked : Walked [] r c.registry
  walked' : Walked [] r d.registry
  steps : d.trail.steps ≤ c.trail.steps ∨ Spent c

theorem spent_of_advances {c c' : Comparison} (h : Spent c) (hadv : Advances c c') : Spent c' := by
  apply Nat.lt_of_not_le
  intro hfew
  exact Nat.not_le_of_lt h (hadv.steps _ (by decide) hfew)

namespace Abreast

variable {r : Registry} {c d : Comparison}

theorem behind (h : Abreast r c d) (hspent : Spent c) {c' : Comparison} (hadv : Advances c c') :
    Abreast r c' d ∧ Spent c' := by
  have hspent' := spent_of_advances hspent hadv
  exact ⟨⟨hadv.limits.trans h.limits, h.limits'.trans hadv.limits.symm,
    h.visiting.trans hadv.visiting.symm, h.depth.trans hadv.depth.symm,
    h.expansions.trans hadv.expansions.symm, h.walked.trans hadv.registry, h.walked',
    Or.inr hspent'⟩, hspent'⟩

theorem ahead (h : Abreast r c d) (hspent : Spent c) {d' : Comparison} (hadv : Advances d d') :
    Abreast r c d' :=
  ⟨h.limits, hadv.limits.trans h.limits', hadv.visiting.trans h.visiting,
    hadv.depth.trans h.depth, hadv.expansions.trans h.expansions, h.walked,
    h.walked'.trans hadv.registry, Or.inr hspent⟩

theorem follows {first second : CompareM Bool} (hfirst : Frames r first)
    (hsecond : Frames r second)
    (h : forall {c d}, Abreast r c d ->
      Abreast r (first.run c).2 (second.run d).2 ∧
        ((first.run c).1 = (second.run d).1 ∨ (first.run c).1 = false ∧ Spent (first.run c).2)) :
    Follows (Abreast r) Spent first second :=
  ⟨h, fun hspent hside => hside.behind hspent (hfirst.advances rfl),
    fun hspent hside => hside.ahead hspent (hsecond.advances rfl)⟩

theorem enter (h : Abreast r c d) {pair : ShapeId × ShapeId} {entry : Entry}
    {trail : Trail (ShapeId × ShapeId)} (henter : c.trail.enter pair = (entry, trail)) :
    (entry = .tooManySteps ∧ Spent { c with trail }) ∨
      exists trail', d.trail.enter pair = (entry, trail') ∧
        Abreast r { c with trail } { d with trail := trail' } := by
  rcases Trail.enter_cases henter with ⟨_, hsteps, hcases⟩
  by_cases hentry : entry = .tooManySteps
  · rcases hcases with ⟨_, hmany, _⟩ | ⟨hother, _⟩ | ⟨hother, _⟩ | ⟨hother, _⟩
    · rw [h.limits] at hmany
      exact Or.inl ⟨hentry, hmany⟩
    · cases hentry.symm.trans hother
    · cases hentry.symm.trans hother
    · cases hentry.symm.trans hother
  · -- The attempt was within the limit, so the older comparison was not spent before.
    have hfew := Trail.steps_le_of_enter henter hentry
    rw [h.limits, hsteps] at hfew
    have hceiling : Limits.comparison.maxSteps < Trail.stepCeiling := by decide
    have hbehind : d.trail.steps ≤ c.trail.steps := by
      apply h.steps.resolve_right
      intro hspent
      have hmany : Limits.comparison.maxSteps < c.trail.steps := hspent
      omega
    have hside : Trail.Beside c.trail d.trail := ⟨h.limits', h.visiting, h.depth, hbehind⟩
    rcases hside.enter henter hentry with ⟨trail', henter', hnext⟩
    refine Or.inr ⟨trail', henter', ?_⟩
    exact ⟨(Trail.enter_cases henter).1.trans h.limits, hnext.limits, hnext.visiting, hnext.depth,
      h.expansions, h.walked, h.walked', Or.inl hnext.steps⟩

theorem refused (h : Abreast r c d) {pair : ShapeId × ShapeId}
    {trail : Trail (ShapeId × ShapeId)} (henter : c.trail.enter pair = (.tooManySteps, trail))
    (hspent : Spent { c with trail }) : Abreast r { c with trail } d := by
  have hadv : Advances c { c with trail } := .refused henter (by simp)
  exact ⟨hadv.limits.trans h.limits, h.limits'.trans hadv.limits.symm,
    h.visiting.trans hadv.visiting.symm, h.depth.trans hadv.depth.symm, h.expansions, h.walked,
    h.walked', Or.inr hspent⟩

theorem leave (h : Abreast r c d) (pair : ShapeId × ShapeId) :
    Abreast r { c with trail := c.trail.leave pair } { d with trail := d.trail.leave pair } := by
  have hsame := Trail.leave_visiting_depth h.visiting h.depth pair
  refine ⟨?_, ?_, hsame.1, hsame.2, h.expansions, h.walked, h.walked', ?_⟩
  · exact (Trail.leave_limits _ _).trans h.limits
  · exact (Trail.leave_limits _ _).trans (h.limits'.trans (Trail.leave_limits _ _).symm)
  · simpa only [Spent, Trail.leave_steps] using h.steps

end Abreast

/-!
# Shapes that are found by both

Where every type that flattens resolves, what is found depends on the
declarations only.
-/

/-- A registry operation that finds what there is to find, whatever has been resolved before. -/
def Certain (r : Registry) (action : RegistryM Shape) (found : Shape -> Prop) : Prop :=
  forall s r1, found s -> Walked [] r r1 -> exists r2, action.run r1 = (.ok s, r2)

section Between

variable {r : Registry} (hr : r.Faithful)

include hr

theorem Finds.alike {action : RegistryM Shape} {found : Shape -> Prop}
    (hfinds : Finds r action found) (hcertain : Certain r action found) {r1 r2 : Registry}
    (hwalk1 : Walked [] r r1) (hwalk2 : Walked [] r r2) :
    (action.run r1).1.toOption = (action.run r2).1.toOption := by
  have hfound : forall {r1 r2 : Registry}, Walked [] r r1 -> Walked [] r r2 ->
      forall s, (action.run r1).1 = .ok s -> (action.run r2).1 = .ok s := by
    intro r1 r2 hwalk1 hwalk2 s hs
    rcases hrun : action.run r1 with ⟨result, after⟩
    rw [hrun] at hs
    cases hs
    have hfound := hfinds.found hwalk1.sameDeclarations (hwalk1.faithful hr) hrun
    rcases hcertain s r2 hfound hwalk2 with ⟨after', hrun'⟩
    rw [hrun']
  cases hfirst : (action.run r1).1 with
  | ok s => rw [hfound hwalk1 hwalk2 s hfirst]
  | error failure =>
      cases hsecond : (action.run r2).1 with
      | ok s =>
          rw [hfound hwalk2 hwalk1 s hsecond] at hfirst
          cases hfirst
      | error failure' => rfl

variable {source target : RegistryM Shape} {isSource isTarget : Shape -> Prop}
  {compare : Shape -> Shape -> CompareM Bool}

theorem follows_betweenShapes (hsource : Finds r source isSource)
    (hsource' : Certain r source isSource) (htarget : Finds r target isTarget)
    (htarget' : Certain r target isTarget) (hframes : forall s t, Frames r (compare s t))
    (hcompare : forall s t, Follows (Abreast r) Spent (compare s t) (compare s t)) :
    Follows (Abreast r) Spent (betweenShapes source target compare)
      (betweenShapes source target compare) := by
  have hframe : Frames r (betweenShapes source target compare) :=
    (shows_betweenShapes hsource htarget hframes).imp fun _ _ => trivial
  apply Abreast.follows hframe hframe
  intro c d h
  have hwalk1 : Walked [] r (source.run c.registry).2 := h.walked.trans (hsource.walked rfl)
  have hwalk1' : Walked [] r (source.run d.registry).2 := h.walked'.trans (hsource.walked rfl)
  have hwalk2 := hwalk1.trans (htarget.walked rfl)
  have hwalk2' := hwalk1'.trans (htarget.walked rfl)
  have hsources := hsource.alike hr hsource' h.walked h.walked'
  have htargets := htarget.alike hr htarget' hwalk1 hwalk1'
  have hafter : Abreast r { c with registry := (target.run (source.run c.registry).2).2 }
      { d with registry := (target.run (source.run d.registry).2).2 } :=
    ⟨h.limits, h.limits', h.visiting, h.depth, h.expansions, hwalk2, hwalk2', h.steps⟩
  rw [run_betweenShapes_eq, run_betweenShapes_eq, hsources, htargets]
  split
  · exact (hcompare _ _).together hafter
  · exact ⟨hafter, Or.inl rfl⟩

end Between

/-!
# The same question to both

Each way to leave the terms at hand is followed, and with them the whole
comparison.
-/

theorem follows_counted {r : Registry} {compare : CompareM Bool}
    (hframe : Frames r compare) (h : Follows (Abreast r) Spent compare compare) :
    Follows (Abreast r) Spent (counted compare) (counted compare) := by
  have hcounted := shows_counted hframe
  apply Abreast.follows hcounted hcounted
  intro c d hside
  rw [run_counted, run_counted]
  have hinside : Abreast r { c with expansions := c.expansions + 1 }
      { d with expansions := d.expansions + 1 } :=
    ⟨hside.limits, hside.limits', hside.visiting, hside.depth,
      congrArg (· + 1) hside.expansions, hside.walked, hside.walked', hside.steps⟩
  rcases h.together hinside with ⟨hout, hanswers⟩
  exact ⟨⟨hout.limits, hout.limits', hout.visiting, hout.depth,
    congrArg (· - 1) hout.expansions, hout.walked, hout.walked', hout.steps⟩, hanswers⟩

section Questions

variable {r : Registry} (hr : r.Faithful) (hresolves : forall t, r.Resolves t)

include hresolves

theorem certain_resolve (id : ShapeId) : Certain r (resolve id) (r.Flattens id) :=
  fun _ _ hs hwalk => (hresolves (.reference id)).reference hs hwalk

theorem certain_resolveType (t : FieldType) : Certain r (resolveType t) (r.TypeFlattens t) :=
  fun s r1 hs hwalk => hresolves t r1 s hwalk hs

include hr

variable {below : Shape -> Shape -> CompareM Bool}
  (hframes : forall s t, Frames r (below s t))
  (hbelow : forall s t, Follows (Abreast r) Spent (below s t) (below s t))

include hframes hbelow

theorem follows_referencesBelow (source target : ShapeId) :
    Follows (Abreast r) Spent (referencesBelow below source target)
      (referencesBelow below source target) := by
  have hinside := follows_betweenShapes hr (finds_resolve r source)
    (certain_resolve hresolves source) (finds_resolve r target)
    (certain_resolve hresolves target) hframes hbelow
  have hframe : Frames r (referencesBelow below source target) :=
    (shows_referencesBelow hframes source target).imp fun _ _ => trivial
  apply Abreast.follows hframe hframe
  intro c d h
  by_cases heq : source = target
  · have hrun : referencesBelow below source target = pure true := by
      unfold referencesBelow
      rw [if_pos heq]
    rw [hrun]
    exact ⟨h, Or.inl rfl⟩
  · rcases henter : c.trail.enter (source, target) with ⟨entry, trail⟩
    rcases h.enter henter with ⟨rfl, hspent⟩ | ⟨trail', henter', hside⟩
    · -- The older comparison has no attempts left, and the younger one goes on alone.
      have hadv : Advances d ((referencesBelow below source target).run d).2 :=
        hframe.advances rfl
      have hrefused := h.refused henter hspent
      rw [run_referencesBelow heq c, henter]
      exact ⟨hrefused.ahead hspent hadv, Or.inr ⟨rfl, hspent⟩⟩
    · rw [run_referencesBelow heq, run_referencesBelow heq, henter, henter']
      cases entry with
      | entered =>
          rcases hinside.together hside with ⟨hout, hanswers⟩
          refine ⟨hout.leave _, ?_⟩
          simpa only [Spent, Trail.leave_steps] using hanswers
      | cycle => exact ⟨hside, Or.inl rfl⟩
      | tooDeep => exact ⟨hside, Or.inl rfl⟩
      | tooManySteps => exact ⟨hside, Or.inl rfl⟩

theorem follows_expandedBelow (source target : FieldType) :
    Follows (Abreast r) Spent (expandedBelow below source target)
      (expandedBelow below source target) := by
  have hinside := follows_betweenShapes hr (finds_resolveType r source)
    (certain_resolveType hresolves source) (finds_resolveType r target)
    (certain_resolveType hresolves target) (fun s t => shows_counted (hframes s t))
    fun s t => follows_counted (hframes s t) (hbelow s t)
  have hframe : Frames r (expandedBelow below source target) :=
    (shows_expandedBelow hframes source target).imp fun _ _ => trivial
  apply Abreast.follows hframe hframe
  intro c d h
  rw [run_expandedBelow, run_expandedBelow, h.expansions]
  split
  · exact ⟨h, Or.inl rfl⟩
  · exact hinside.together h

omit hframes hbelow in
theorem follows_compareShapes (frames : Nat) (source target : Shape) :
    Follows (Abreast r) Spent (compareShapes frames source target)
      (compareShapes frames source target) := by
  induction frames generalizing source target with
  | zero => exact follows_pure false
  | succ frames ih =>
      have hframes : forall s t, Frames r (compareShapes frames s t) :=
        shows_compareShapes_of_sound (sound_true r) frames
      exact follows_shapeBelow ⟨follows_referencesBelow hr hresolves hframes ih,
        follows_expandedBelow hr hresolves hframes ih⟩ target source

omit hframes hbelow in
theorem follows_isBelow (source target : FieldType) :
    Follows (Abreast r) Spent (isBelow source target) (isBelow source target) := by
  have hframes : forall s t, Frames r (compareShapes maxFrames s t) :=
    shows_compareShapes_of_sound (sound_true r) maxFrames
  have hbelow := follows_compareShapes hr hresolves maxFrames
  exact follows_typeBelow ⟨follows_referencesBelow hr hresolves hframes hbelow,
    follows_expandedBelow hr hresolves hframes hbelow⟩ target source

omit hframes hbelow in
theorem Question.follows (q : Question) : Follows (Abreast r) Spent q.ask q.ask := by
  cases q with
  | types source target => exact follows_isBelow hr hresolves source target
  | shapes source target => exact follows_compareShapes hr hresolves _ source target
  | equivalence a b =>
      exact (follows_isBelow hr hresolves a b).both (follows_isBelow hr hresolves b a)

end Questions

theorem abreast_start {r r' : Registry} {c : Comparison} (hadv : Advances (start r) c)
    (hwalk : Walked [] r r') : Abreast r c (start r') :=
  ⟨hadv.limits, hadv.limits.symm, hadv.visiting.symm, hadv.depth.symm, hadv.expansions.symm,
    hadv.registry, hwalk, Or.inl (Nat.zero_le _)⟩

/-!
# Twins

A single question takes a single attempt here, so a comparison over twins shows
what it means to have no attempts left.
-/

/-- Two shapes with the same field, both of them resolved. -/
def twins : Registry :=
  let r := ((declare "Left" .mergeable [("at", .keyword .number)]).run (empty .common)).2
  let r := ((declare "Right" .mergeable [("at", .keyword .number)]).run r).2
  let r := ((resolve ⟨1⟩).run r).2
  ((resolve ⟨2⟩).run r).2

theorem twins_reachable : twins.Reachable := by
  have hleft : Relation.ReflTransGen Step (empty .common) _ :=
    .single (.declare "Left" .mergeable [("at", .keyword .number)])
  have hright := hleft.tail (.declare "Right" .mergeable [("at", .keyword .number)])
  exact ⟨.common, (hright.tail (.resolve ⟨1⟩)).tail (.resolve ⟨2⟩)⟩

def twinShape (name : String) : Shape :=
  .object (some name) ⟨[("at", .keyword .number)], by simp⟩

theorem twins_kept : twins.kept ⟨1⟩ (twinShape "Left") ∧ twins.kept ⟨2⟩ (twinShape "Right") :=
  ⟨by with_unfolding_all rfl, by with_unfolding_all rfl⟩

def twinQuestion : Question :=
  .types (.reference ⟨1⟩) (.reference ⟨2⟩)

/-- A comparison over the twins that has taken a number of attempts. -/
def usedOnTwins (steps : Nat) : Comparison :=
  ⟨twins, ⟨Limits.comparison, [], 0, steps⟩, 0⟩

theorem run_twinQuestion (steps : Nat) (hsteps : steps < Trail.stepCeiling) :
    twinQuestion.ask.run (usedOnTwins steps) =
      (decide (steps < Limits.comparison.maxSteps), usedOnTwins (steps + 1)) := by
  have hask : twinQuestion.ask = referencesBelow (compareShapes maxFrames) ⟨1⟩ ⟨2⟩ := rfl
  have hshapes : forall c : Comparison, (compareShapes maxFrames (twinShape "Left")
      (twinShape "Right")).run c = (true, c) := fun _ => rfl
  have hbetween : forall trail : Trail (ShapeId × ShapeId),
      (betweenShapes (resolve ⟨1⟩) (resolve ⟨2⟩) (compareShapes maxFrames)).run
        ⟨twins, trail, 0⟩ = (true, ⟨twins, trail, 0⟩) := by
    intro trail
    rw [run_betweenShapes (resolve_of_kept twins_kept.1) (resolve_of_kept twins_kept.2), hshapes]
  have hcount : min (steps + 1) Trail.stepCeiling = steps + 1 := Nat.min_eq_left hsteps
  rw [hask, run_referencesBelow (by decide)]
  by_cases hfew : steps < Limits.comparison.maxSteps
  · have henter : (usedOnTwins steps).trail.enter (⟨1⟩, ⟨2⟩) =
        (.entered, ⟨Limits.comparison, [(⟨1⟩, ⟨2⟩)], 1, steps + 1⟩) := by
      have hlimit : ¬ Limits.comparison.maxSteps < steps + 1 := Nat.not_lt.mpr hfew
      have hroom : ¬ Limits.comparison.maxDepth ≤ 0 := by decide
      simp only [Trail.enter, usedOnTwins, hcount, hlimit, hroom, if_false]
      rfl
    rw [henter]
    simp only [usedOnTwins, hbetween, hfew, decide_true]
    rfl
  · have henter : (usedOnTwins steps).trail.enter (⟨1⟩, ⟨2⟩) =
        (.tooManySteps, ⟨Limits.comparison, [], 0, steps + 1⟩) := by
      have hlimit : Limits.comparison.maxSteps < steps + 1 := by omega
      simp [Trail.enter, usedOnTwins, hcount, hlimit]
    rw [henter]
    simp only [hfew, decide_false]
    rfl

theorem asked_twinQuestion (times : Nat) (htimes : times ≤ Trail.stepCeiling) :
    asked (List.replicate times twinQuestion) (start twins) = usedOnTwins times := by
  induction times with
  | zero => rfl
  | succ times ih =>
      rw [List.replicate_succ', asked, List.foldl_append, List.foldl_cons, List.foldl_nil]
      rw [show List.foldl _ _ _ = usedOnTwins times from ih (Nat.le_of_succ_le htimes)]
      rw [run_twinQuestion times htimes]

/-- A comparison over a small registry can be used again: between two questions it has
nothing under way, and as long as it has attempts left it answers as a fresh one does.
After that it may answer no where a fresh one answers yes, but not the other way round. -/
theorem reuse_only_costs_attempts :
    (forall r : Registry, r.Reachable -> r.size ≤ 256 ->
      forall (past : List Question) (q : Question),
        Idle (asked past (start r)) ∧
          forall now, now = r ∨ now = (asked past (start r)).registry ->
            ((q.ask.run (asked past (start r))).2.trail.steps ≤ 100000 ->
              (q.ask.run (asked past (start r))).1 = (q.ask.run (start now)).1) ∧
            ((q.ask.run (asked past (start r))).1 = true -> (q.ask.run (start now)).1 = true)) ∧
      exists (r : Registry) (past : List Question) (q : Question), r.Reachable ∧ r.size ≤ 256 ∧
        (q.ask.run (start r)).1 = true ∧ (q.ask.run (asked past (start r))).1 = false := by
  constructor
  · intro r hreach hsmall past q
    have hr := hreach.faithful
    have hadv := advances_asked past (start r)
    refine ⟨(idle_start r).advance hadv, fun now hnow => ?_⟩
    have hwalk : Walked [] r now := by
      cases hnow with
      | inl hnow => rw [hnow]; exact .refl _ _
      | inr hnow => rw [hnow]; exact hadv.registry
    have hanswers := ((Question.follows hr (resolves_of_small hr hsmall) q).together
      (abreast_start hadv hwalk)).2
    constructor
    · intro hfew
      apply hanswers.resolve_right
      intro hspent
      exact Nat.not_lt.mpr hfew hspent.2
    · intro hyes
      cases hanswers with
      | inl hsame => exact hsame.symm.trans hyes
      | inr hno => cases hno.1.symm.trans hyes
  · refine ⟨twins, List.replicate 100000 twinQuestion, twinQuestion, twins_reachable, ?_, ?_, ?_⟩
    · decide +kernel
    · exact congrArg Prod.fst (run_twinQuestion 0 (by decide))
    · rw [asked_twinQuestion 100000 (by decide), run_twinQuestion 100000 (by decide)]
      rfl

/-- Questions about links, asked both ways round. -/
theorem reuse_only_costs_attempts_on_links :
    links.Reachable ∧ links.size ≤ 256 ∧
      ((isBelow (.reference ⟨1⟩) (.reference ⟨2⟩)).run
        (asked [.types (.reference ⟨2⟩) (.reference ⟨1⟩)] (start links))).1 =
      ((isBelow (.reference ⟨1⟩) (.reference ⟨2⟩)).run (start links)).1 := by
  have hsmall : links.size ≤ 256 := by decide +kernel
  have hreuse := reuse_only_costs_attempts.1 links links_reachable hsmall
    [.types (.reference ⟨2⟩) (.reference ⟨1⟩)] (.types (.reference ⟨1⟩) (.reference ⟨2⟩))
  have hfew := (hreuse.2 links (Or.inl rfl)).1 (by decide +kernel)
  exact ⟨links_reachable, hsmall, hfew⟩

end CompareM
end Registry
end Shapes
