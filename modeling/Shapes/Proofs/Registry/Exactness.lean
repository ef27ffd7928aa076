import Shapes.Proofs.Registry.Names
import Shapes.Proofs.Registry.Refusal

/-!
# What the answer of a resolution means

A resolution ends with a shape or with a fault below the name it started from.
The shape is the flattening, which exists only where there is no cycle.  A cycle
that is reported is one, and limits that are reported were exceeded.  Conversely
a flattening that exists is found as long as the limits are kept, and they are
kept when no path is long and the registry is not large.
-/

namespace Shapes
namespace Registry

/-- How many attempts to enter a shape the resolution of a name makes. -/
def attempts (r : Registry) (id : ShapeId) : Nat :=
  ((WalkM.visit Limits.resolution.maxDepth .root id).run
    ⟨r, Trail.start Limits.resolution⟩).2.trail.steps

section Resolution

variable {r : Registry} {id : ShapeId}

theorem course_start (hr : r.Faithful) (roots : List ShapeId) :
    Course r roots ⟨r, Trail.start Limits.resolution⟩ := by
  refine ⟨(Walked.refl [] r).sameDeclarations, fun _ hnone => hnone, hr, rfl, rfl, .nil, ?_⟩
  intro b hb
  cases hb

/-- A resolution ends with the flattening or with a fault. -/
theorem resolve_cases (hr : r.Faithful) (id : ShapeId) :
    (exists s, ((resolve id).run r).1 = .ok s ∧ r.Flattens id s) ∨
      exists failure,
        ((resolve id).run r).1 = .error (blameRoot (r.displayName id) failure) ∧
          r.Fault [id] (r.attempts id) failure ∧ r.attempts id ≤ r.size + 1 := by
  rcases hrun : (WalkM.visit Limits.resolution.maxDepth .root id).run
    ⟨r, Trail.start Limits.resolution⟩ with ⟨answer, w⟩
  have hresolve : (resolve id).run r =
      (answer.mapError (blameRoot (r.displayName id)), w.registry) := by
    rw [run_resolve, hrun]
  have hattempts : r.attempts id = w.trail.steps := by
    rw [attempts, hrun]
  cases answer with
  | ok s => exact Or.inl ⟨s, by rw [hresolve]; rfl, flattens_of_resolve hr hresolve⟩
  | error failure =>
      have haccount := (WalkM.visit_exact Limits.resolution.maxDepth).accounted
        (course_start hr [id]) rfl List.mem_cons_self hrun
      rcases haccount with ⟨hspent, hfault | ⟨_, hfalse⟩⟩
      · refine Or.inr ⟨failure, by rw [hresolve]; rfl, hattempts ▸ hfault, ?_⟩
        have hidle := Walk.idle_le_size ⟨r, Trail.start Limits.resolution⟩
        have hsteps : w.trail.steps ≤
            0 + Walk.idle ⟨r, Trail.start Limits.resolution⟩ + 1 := hspent
        rw [hattempts]
        simp only at hidle
        omega
      · cases hfalse

theorem reachedFrom_singleton {b : ShapeId} (h : r.ReachedFrom [id] b) : r.Reaches id b := by
  rcases h with ⟨root, hroot, hreach⟩
  cases List.mem_singleton.mp hroot
  exact hreach

theorem not_onCycle_of_reaches {b : ShapeId} {s : Shape} (h : r.Flattens id s)
    (hb : r.Reaches id b) : ¬ r.OnCycle b := by
  rcases exists_flattens_of_reaches h hb with ⟨t, ht⟩
  exact not_onCycle_of_flattens ht

theorem Fault.onCycle {steps : Nat} {failure : Failure} {name : String}
    (h : r.Fault [id] steps failure)
    (hname : failure = .cyclicExtension name ∨ failure = .cyclicReference name) :
    exists b, r.arena.name? b = some name ∧ r.Reaches id b ∧ r.OnCycle b := by
  cases h with
  | cycle hreached hcycle hfound hfailure =>
      rcases hname with rfl | rfl
      · rcases hfailure with hsame | hsame
        · cases hsame
          exact ⟨_, hfound, reachedFrom_singleton hreached, hcycle⟩
        · cases hsame
      · rcases hfailure with hsame | hsame
        · cases hsame
        · cases hsame
          exact ⟨_, hfound, reachedFrom_singleton hreached, hcycle⟩
  | tooDeep => rcases hname with hname | hname <;> cases hname
  | tooManySteps => rcases hname with hname | hname <;> cases hname
  | stuck _ _ hmild => rcases hname with rfl | rfl <;> cases hmild

theorem Fault.exceeds_from {roots : List ShapeId} {steps : Nat} {name : String}
    (h : r.Fault roots steps (.resolutionTooDeep name)) :
    (exists root path, root ∈ roots ∧ r.FreshPath root path ∧
        Limits.resolution.maxDepth < path.length) ∨
      Limits.resolution.maxSteps < steps := by
  cases h with
  | cycle _ _ _ hfailure => rcases hfailure with hfailure | hfailure <;> cases hfailure
  | tooDeep hroot hpath hlong => exact Or.inl ⟨_, _, hroot, hpath, hlong⟩
  | tooManySteps hmany => exact Or.inr hmany
  | stuck _ _ hmild => cases hmild

theorem Fault.exceeds {steps : Nat} {name : String}
    (h : r.Fault [id] steps (.resolutionTooDeep name)) :
    (exists path, r.FreshPath id path ∧ Limits.resolution.maxDepth < path.length) ∨
      Limits.resolution.maxSteps < steps := by
  rcases h.exceeds_from with ⟨root, path, hroot, hpath, hlong⟩ | hmany
  · cases List.mem_singleton.mp hroot
    exact Or.inl ⟨path, hpath, hlong⟩
  · exact Or.inr hmany

theorem Fault.exceeds_of_found {roots : List ShapeId} {steps : Nat} {failure : Failure}
    (h : r.Fault roots steps failure)
    (hfound : forall root, root ∈ roots -> exists s, r.Flattens root s) :
    (exists root path, root ∈ roots ∧ r.FreshPath root path ∧
        Limits.resolution.maxDepth < path.length) ∨
      Limits.resolution.maxSteps < steps := by
  cases h with
  | cycle hreached hcycle _ _ =>
      rcases hreached with ⟨root, hroot, hreach⟩
      rcases hfound root hroot with ⟨s, hs⟩
      exact absurd hcycle (not_onCycle_of_reaches hs hreach)
  | tooDeep hroot hpath hlong => exact Or.inl ⟨_, _, hroot, hpath, hlong⟩
  | tooManySteps hmany => exact Or.inr hmany
  | stuck hreached hstuck _ =>
      rcases hreached with ⟨root, hroot, hreach⟩
      rcases hfound root hroot with ⟨s, hs⟩
      rcases exists_flattens_of_reaches hs hreach with ⟨t, ht⟩
      exact absurd ht (hstuck t)

theorem Fault.exceeds_of_flattens {steps : Nat} {failure : Failure} {s : Shape}
    (h : r.Fault [id] steps failure) (hs : r.Flattens id s) :
    (exists path, r.FreshPath id path ∧ Limits.resolution.maxDepth < path.length) ∨
      Limits.resolution.maxSteps < steps := by
  have hfound : forall root, root ∈ [id] -> exists s, r.Flattens root s := by
    intro root hroot
    cases List.mem_singleton.mp hroot
    exact ⟨s, hs⟩
  rcases h.exceeds_of_found hfound with ⟨root, path, hroot, hpath, hlong⟩ | hmany
  · cases List.mem_singleton.mp hroot
    exact Or.inl ⟨path, hpath, hlong⟩
  · exact Or.inr hmany

end Resolution

theorem blameRoot_cyclic {root name : String} {failure : Failure}
    (h : blameRoot root failure = .cyclicExtension name ∨
      blameRoot root failure = .cyclicReference name) :
    failure = .cyclicExtension name ∨ failure = .cyclicReference name := by
  cases failure <;> simp_all [blameRoot]

theorem blameRoot_tooDeep {root name : String} {failure : Failure}
    (h : blameRoot root failure = .resolutionTooDeep name) :
    name = root ∧ exists inner, failure = .resolutionTooDeep inner := by
  cases failure <;> simp_all [blameRoot]

/--
A resolution is exact.  A shape is the flattening, and no cycle is in reach.  A
cycle that is reported is in reach.  Limits that are reported are exceeded from
the name itself on, by the length of a path or by the number of attempts.  And
a flattening is found where paths are short and shapes are few.
-/
theorem resolution_is_exact {r : Registry} (hr : r.Reachable) (id : ShapeId) :
    (forall s, ((resolve id).run r).1 = .ok s ->
        r.Flattens id s ∧ forall b, r.Reaches id b -> ¬ r.OnCycle b) ∧
      (forall name,
        ((resolve id).run r).1 = .error (.cyclicExtension name) ∨
            ((resolve id).run r).1 = .error (.cyclicReference name) ->
          exists b, r.lookup? name = some b ∧ r.Reaches id b ∧ r.OnCycle b) ∧
      (forall name, ((resolve id).run r).1 = .error (.resolutionTooDeep name) ->
        name = r.displayName id ∧
          ((exists path, r.FreshPath id path ∧ 256 < path.length) ∨
            100000 < r.attempts id)) ∧
      ((forall path, r.FreshPath id path -> path.length ≤ 256) -> r.size < 100000 ->
        forall s, r.Flattens id s -> ((resolve id).run r).1 = .ok s) := by
  rcases resolve_cases hr.faithful id with ⟨s, hok, hs⟩ | ⟨failure, hfailed, hfault, hfew⟩
  · rw [hok]
    refine ⟨?_, ?_, ?_, ?_⟩
    · intro t ht
      cases ht
      exact ⟨hs, fun b hb => not_onCycle_of_reaches hs hb⟩
    · intro name hname
      rcases hname with hname | hname <;> cases hname
    · intro name hname
      cases hname
    · intro _ _ t ht
      rw [flattens_unique ht hs]
  · rw [hfailed]
    refine ⟨?_, ?_, ?_, ?_⟩
    · intro t ht
      cases ht
    · intro name hname
      simp only [Except.error.injEq] at hname
      rcases hfault.onCycle (blameRoot_cyclic hname) with ⟨b, hb, hreach, hcycle⟩
      rcases Option.map_eq_some_iff.mp hb with ⟨d, hd, rfl⟩
      exact ⟨b, hr.coherent.name hd, hreach, hcycle⟩
    · intro name hname
      simp only [Except.error.injEq] at hname
      rcases blameRoot_tooDeep hname with ⟨hroot, inner, rfl⟩
      exact ⟨hroot, hfault.exceeds⟩
    · intro hshort hsmall t ht
      rcases hfault.exceeds_of_flattens ht with ⟨path, hpath, hlong⟩ | hmany
      · exact absurd (hshort path hpath) (Nat.not_le_of_lt hlong)
      · -- One attempt more than there are shapes is still within the limit.
        have hmany' : 100000 < r.attempts id := hmany
        omega

def ring : Registry :=
  let r := ((extend "Even" ["Odd"] []).run (empty .common)).2
  let r := ((extend "Odd" ["Even"] []).run r).2
  ((declareBody "Parity" (.reference ⟨2⟩)).run r).2

theorem ring_reachable : ring.Reachable := by
  have heven : Relation.ReflTransGen Step (empty .common) _ :=
    .single (.extend "Even" ["Odd"] [])
  have hodd := heven.tail (.extend "Odd" ["Even"] [])
  exact ⟨.common, hodd.tail (.declareBody "Parity" (.reference ⟨2⟩))⟩

theorem resolution_is_exact_ring :
    ((resolve ⟨3⟩).run ring).1 = .error (.cyclicExtension "Odd") ∧
      exists b, ring.lookup? "Odd" = some b ∧ ring.Reaches ⟨3⟩ b ∧ ring.OnCycle b := by
  have hrun : ((resolve ⟨3⟩).run ring).1 = .error (.cyclicExtension "Odd") := by
    have hcode : (match ((resolve ⟨3⟩).run ring).1 with
        | .error failure => decide (failure = .cyclicExtension "Odd")
        | .ok _ => false) = true := by
      decide +kernel
    cases hresult : ((resolve ⟨3⟩).run ring).1 with
    | error failure =>
        rw [hresult] at hcode
        rw [of_decide_eq_true hcode]
    | ok s =>
        rw [hresult] at hcode
        cases hcode
  exact ⟨hrun, (resolution_is_exact ring_reachable ⟨3⟩).2.1 "Odd" (Or.inl hrun)⟩

end Registry
end Shapes
