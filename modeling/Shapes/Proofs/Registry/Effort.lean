import Shapes.Proofs.Registry.Exactness
import Shapes.Proofs.Registry.Passage

/-!
# The effort of a resolution

Shapes may be shared and repeated as often as one likes; still a resolution makes
at most one attempt to enter a shape for each that is registered, and one more
when it fails.  So with fewer shapes than steps are allowed, the steps never run
out, and a resolution that goes too deep has found a path that is too long.

The counter of the trail has a ceiling.  It is never reached, since the walk ends
with the first step too many; so the counter tells the number of attempts.
-/

namespace Shapes
namespace Registry

/-- How many attempts to enter a shape the resolution of a type makes. -/
def typeAttempts (r : Registry) (t : FieldType) : Nat :=
  ((WalkM.shapeOf (WalkM.visit Limits.resolution.maxDepth) t).run
    ⟨r, Trail.start Limits.resolution⟩).2.trail.steps

/-!
# The counter

The counter grows by one with every attempt, and no attempt follows the first
one that is too many.
-/

namespace WalkM

/-- A walk that has kept to its steps so far. -/
def Metered (w : Walk) : Prop :=
  w.trail.limits = Limits.resolution ∧ w.trail.steps ≤ Limits.resolution.maxSteps

/-- A walk that has taken one step too many, at most. -/
def Overrun (w : Walk) : Prop :=
  w.trail.steps ≤ Limits.resolution.maxSteps + 1

theorem Metered.overrun (w : Walk) (h : Metered w) : Overrun w :=
  Nat.le_succ_of_le h.2

theorem visitBy_metered {settle : ShapeId -> WalkM Shape} {route : Route} {id : ShapeId}
    (hsettle : Passes Metered Overrun (settle id)) :
    Passes Metered Overrun (visitBy settle route id) := by
  intro w result w' hw h
  rcases visitBy_cases h with ⟨s, _, rfl, rfl⟩ | ⟨_, entry, trail, henter, _, rfl, rfl⟩ |
    ⟨_, trail, w1, henter, hrun, rfl⟩
  · exact hw
  · rcases Trail.enter_cases henter with ⟨_, hsteps, _⟩
    have hbefore := hw.2
    show trail.steps ≤ Limits.resolution.maxSteps + 1
    omega
  · have hentered : Metered { w with trail } := by
      refine ⟨(Trail.enter_entered henter).1.trans hw.1, ?_⟩
      rw [← hw.1]
      exact Trail.steps_le_of_enter henter (by simp)
    have hpassed := hsettle hentered hrun
    cases result with
    | ok s =>
        have hmetered : Metered w1 := hpassed
        exact ⟨(Trail.leave_limits _ _).trans hmetered.1, by simpa using hmetered.2⟩
    | error failure =>
        have hoverrun : Overrun w1 := hpassed
        show (w1.trail.leave id).steps ≤ Limits.resolution.maxSteps + 1
        rw [Trail.leave_steps]
        exact hoverrun

theorem visit_metered (levels : Nat) (route : Route) (id : ShapeId) :
    Passes Metered Overrun (visit levels route id) := by
  induction levels generalizing route id with
  | zero =>
      apply visitBy_metered
      intro w result w' hw h
      cases h
      exact hw.overrun
  | succ levels ih =>
      apply visitBy_metered
      apply settle_passes Metered.overrun
      · exact fun _ _ _ hw _ _ => hw
      · exact fun _ _ _ hw _ _ => hw
      · exact fun _ _ _ route b _ _ _ _ => ih route b

theorem overrun_of_passes {α : Type} {walk : WalkM α} (h : Passes Metered Overrun walk)
    (r : Registry) : Overrun (walk.run ⟨r, Trail.start Limits.resolution⟩).2 := by
  have hstart : Metered ⟨r, Trail.start Limits.resolution⟩ := ⟨rfl, Nat.zero_le _⟩
  rcases hrun : walk.run ⟨r, Trail.start Limits.resolution⟩ with ⟨result, w⟩
  have hpassed := h hstart hrun
  cases result with
  | ok a => exact Metered.overrun w hpassed
  | error failure => exact hpassed

end WalkM

/-!
# Attempts

Every attempt enters a definition that no earlier one has kept, but for the one
that fails, so there are no more of them than definitions.
-/

section Attempts

variable {r : Registry}

theorem Walk.steps_le_of_accounted {α : Type} {roots : List ShapeId} {blocked : Prop} {w : Walk}
    {result : Except Failure α}
    (h : WalkM.Accounted r roots blocked ⟨r, Trail.start Limits.resolution⟩ w result) :
    w.trail.steps ≤ r.size + 1 := by
  have hidle : _ ≤ r.size := Walk.idle_le_size ⟨r, Trail.start Limits.resolution⟩
  have hspent : Walk.Spent ⟨r, Trail.start Limits.resolution⟩ w := by
    cases result with
    | ok a => exact Walk.spent_of_paid h
    | error failure => exact h.1
  have hsteps : w.trail.steps ≤ 0 + _ + 1 := hspent
  omega

theorem attempts_le (hr : r.Faithful) (id : ShapeId) : r.attempts id ≤ r.size + 1 :=
  Walk.steps_le_of_accounted ((WalkM.visit_exact Limits.resolution.maxDepth).accounted
    (course_start hr [id]) rfl List.mem_cons_self rfl)

theorem typeAttempts_le (hr : r.Faithful) (t : FieldType) : r.typeAttempts t ≤ r.size + 1 :=
  Walk.steps_le_of_accounted
    (WalkM.shapeOf_accounted (WalkM.visit_exact Limits.resolution.maxDepth)
      (course_start hr t.references) rfl (fun _ hb => hb) rfl)

theorem exceeds_of_resolveType (hr : r.Faithful) {t : FieldType} {name : String}
    (h : ((resolveType t).run r).1 = .error (.resolutionTooDeep name)) :
    (exists b path, b ∈ t.references ∧ r.FreshPath b path ∧
        Limits.resolution.maxDepth < path.length) ∨
      Limits.resolution.maxSteps < r.typeAttempts t := by
  rcases hrun : (WalkM.shapeOf (WalkM.visit Limits.resolution.maxDepth) t).run
    ⟨r, Trail.start Limits.resolution⟩ with ⟨answer, w⟩
  have hattempts : r.typeAttempts t = w.trail.steps := by
    rw [typeAttempts, hrun]
  rw [run_resolveType, hrun] at h
  simp only at h
  subst h
  have haccount := WalkM.shapeOf_accounted (WalkM.visit_exact Limits.resolution.maxDepth)
    (course_start hr t.references) rfl (fun _ hb => hb) hrun
  rw [hattempts]
  rcases haccount.2 with hfault | ⟨hmild, _⟩
  · exact hfault.exceeds_from
  · cases hmild

end Attempts

/--
A resolution makes at most one attempt more than there are shapes, however they are
shared.  It never makes more than one attempt beyond the limit, so the counter is exact.
With fewer shapes than steps are allowed, only a long path exceeds the limits.
-/
theorem resolution_effort_is_linear {r : Registry} (hr : r.Reachable) :
    (forall id, r.attempts id ≤ r.size + 1 ∧ r.attempts id ≤ 100001) ∧
      (forall t, r.typeAttempts t ≤ r.size + 1 ∧ r.typeAttempts t ≤ 100001) ∧
      (r.size < 100000 ->
        (forall id name, ((resolve id).run r).1 = .error (.resolutionTooDeep name) ->
          exists path, r.FreshPath id path ∧ 256 < path.length) ∧
        forall t name, ((resolveType t).run r).1 = .error (.resolutionTooDeep name) ->
          exists b path, b ∈ t.references ∧ r.FreshPath b path ∧ 256 < path.length) := by
  have hfaithful := hr.faithful
  have hattempts := attempts_le hfaithful
  have htypeAttempts := typeAttempts_le hfaithful
  refine ⟨fun id => ⟨hattempts id, ?_⟩, fun t => ⟨htypeAttempts t, ?_⟩, ?_⟩
  · exact WalkM.overrun_of_passes (WalkM.visit_metered Limits.resolution.maxDepth .root id) r
  · apply WalkM.overrun_of_passes
    apply WalkM.shapeOf_passes WalkM.Metered.overrun
    intro b _
    exact WalkM.visit_metered Limits.resolution.maxDepth .reference b
  · intro hsmall
    have hallowed : r.size < Limits.resolution.maxSteps := hsmall
    constructor
    · intro id name hname
      rcases resolve_cases hfaithful id with ⟨s, hok, _⟩ | ⟨failure, hfailed, hfault, _⟩
      · rw [hok] at hname
        cases hname
      · rw [hfailed] at hname
        rcases blameRoot_tooDeep (Except.error.inj hname) with ⟨_, inner, rfl⟩
        rcases hfault.exceeds with hlong | hmany
        · exact hlong
        · have hfew := hattempts id
          omega
    · intro t name hname
      rcases exceeds_of_resolveType hfaithful hname with hlong | hmany
      · exact hlong
      · have hfew := htypeAttempts t
        omega

def diamond : Registry :=
  let r := ((declare "Top" .mergeable [("x", .keyword .number)]).run (empty .common)).2
  let r := ((extend "Left" ["Top"] []).run r).2
  let r := ((extend "Right" ["Top"] []).run r).2
  ((extend "Bottom" ["Left", "Right", "Top"] []).run r).2

theorem diamond_reachable : diamond.Reachable := by
  have htop : Relation.ReflTransGen Step (empty .common) _ :=
    .single (.declare "Top" .mergeable [("x", .keyword .number)])
  have hleft := htop.tail (.extend "Left" ["Top"] [])
  have hright := hleft.tail (.extend "Right" ["Top"] [])
  exact ⟨.common, hright.tail (.extend "Bottom" ["Left", "Right", "Top"] [])⟩

def facets : FieldType :=
  .union [.reference ⟨4⟩, .intersection [.reference ⟨2⟩, .reference ⟨3⟩], .reference ⟨4⟩]

theorem resolution_effort_is_linear_diamond :
    diamond.attempts ⟨4⟩ ≤ 5 ∧ diamond.typeAttempts facets ≤ 5 ∧
      diamond.attempts ⟨4⟩ = 4 ∧ diamond.typeAttempts facets = 4 := by
  have hsize : diamond.size = 4 := by decide +kernel
  rcases resolution_effort_is_linear diamond_reachable with ⟨hattempts, htypeAttempts, _⟩
  rw [hsize] at hattempts htypeAttempts
  exact ⟨(hattempts ⟨4⟩).1, (htypeAttempts facets).1, by decide +kernel, by decide +kernel⟩

end Registry
end Shapes
