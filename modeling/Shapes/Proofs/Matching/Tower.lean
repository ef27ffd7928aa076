import Shapes.Proofs.Matching.Depth
import Shapes.Proofs.Registry.Ladder

/-!
# On top of a ladder

A tower is a ladder with three shapes on top.  Their fields are the two upper rungs: one
shape has the lower of them, one has both with the upper rung first, and the third extends
these two, so that it has the lower rung first.

The upper rung of a high tower is too far up to be resolved by itself.  A value with a
number in both fields therefore belongs to the third shape, for the lower rung is resolved
first there, and not to the second one.
-/

namespace Shapes
namespace Registry

/-- A ladder, two shapes for its upper rungs and a child that extends them both. -/
def tower (n : Nat) : Registry :=
  let r := ((declare "Low" .mergeable [("low", .reference ⟨n⟩)]).run (ladder (n + 1))).2
  let r := ((declare "Both" .mergeable
    [("high", .reference ⟨n + 1⟩), ("low", .reference ⟨n⟩)]).run r).2
  ((extend "Child" ["Low", "Both"] []).run r).2

namespace Tower

variable (n : Nat)

theorem reachable : (tower n).Reachable := by
  have hlow := (ladder_steps (n + 1)).tail (.declare "Low" .mergeable [("low", .reference ⟨n⟩)])
  have hboth := hlow.tail (.declare "Both" .mergeable
    [("high", .reference ⟨n + 1⟩), ("low", .reference ⟨n⟩)])
  exact ⟨.common, hboth.tail (.extend "Child" ["Low", "Both"] [])⟩

/-!
# Definitions

The tower is a list of definitions registered in order, so its upper shapes are
found at the identifiers after the rungs.
-/

def lowFields : Table FieldType :=
  ⟨[("low", .reference ⟨n⟩)], by simp⟩

def highFields : Table FieldType :=
  ⟨[("high", .reference ⟨n + 1⟩)], by simp⟩

def bothFields : Table FieldType :=
  ⟨[("high", .reference ⟨n + 1⟩), ("low", .reference ⟨n⟩)], by simp⟩

def childFields : Table FieldType :=
  ⟨[("low", .reference ⟨n⟩), ("high", .reference ⟨n + 1⟩)], by simp⟩

def low : Definition :=
  .declared "Low" .mergeable (lowFields n) [] none

def both : Definition :=
  .declared "Both" .mergeable (bothFields n) [] none

def child : Definition :=
  .declared "Child" .mergeable .empty ["Low", "Both"] none

theorem eq_ofDefinitions :
    tower n = ofDefinitions ((List.range (n + 1)).map rung ++ [low n, both n, child]) := by
  have hrung : forall name : String, name.toList.head? ≠ some 'I' ->
      forall d, d ∈ (List.range (n + 1)).map rung -> d.name ≠ name := by
    intro name hname d hd
    rcases List.mem_map.mp hd with ⟨k, _, rfl⟩
    exact rungName_ne hname k
  rw [tower, ladder_eq]
  generalize (List.range (n + 1)).map rung = rungs at hrung
  have hlow : ((declare "Low" .mergeable (lowFields n).entries).run (ofDefinitions rungs)).2 =
      ofDefinitions (rungs ++ [low n]) :=
    contribute_ofDefinitions (hrung "Low" (by simp)) (by with_unfolding_all rfl)
  have hboth : ((declare "Both" .mergeable (bothFields n).entries).run
      (ofDefinitions (rungs ++ [low n]))).2 = ofDefinitions (rungs ++ [low n] ++ [both n]) := by
    apply contribute_ofDefinitions _ (by with_unfolding_all rfl)
    rw [List.forall_mem_append]
    exact ⟨hrung "Both" (by simp), by simp [low, Definition.declared]⟩
  have hchild : ((extend "Child" ["Low", "Both"] []).run
      (ofDefinitions (rungs ++ [low n] ++ [both n]))).2 =
      ofDefinitions (rungs ++ [low n] ++ [both n] ++ [child]) := by
    apply contribute_ofDefinitions _ (by with_unfolding_all rfl)
    rw [List.forall_mem_append, List.forall_mem_append]
    exact ⟨⟨hrung "Child" (by simp), by simp [low, Definition.declared]⟩,
      by simp [both, Definition.declared]⟩
  rw [← hboth, ← hlow, List.append_assoc, List.append_assoc] at hchild
  exact hchild

theorem hasLadder : (tower n).HasLadder (n + 1) := by
  intro k hk
  rw [eq_ofDefinitions, get?_ofDefinitions, List.getElem?_append_left (by simpa using hk)]
  simp [hk]

theorem get?_low : (tower n).arena.get? ⟨n + 2⟩ = some (low n) := by
  rw [eq_ofDefinitions, get?_ofDefinitions]
  simp

theorem get?_both : (tower n).arena.get? ⟨n + 3⟩ = some (both n) := by
  rw [eq_ofDefinitions, get?_ofDefinitions]
  simp

theorem get?_child : (tower n).arena.get? ⟨n + 4⟩ = some child := by
  rw [eq_ofDefinitions, get?_ofDefinitions]
  simp

theorem size : (tower n).size = n + 4 := by
  rw [eq_ofDefinitions]
  simp [size_ofDefinitions]

theorem lookup?_low : (tower n).lookup? "Low" = some ⟨n + 2⟩ :=
  (reachable n).coherent.name (get?_low n)

theorem lookup?_both : (tower n).lookup? "Both" = some ⟨n + 3⟩ :=
  (reachable n).coherent.name (get?_both n)

/-!
# Shapes

None of the three shapes has a long path below it, since fields are not looked
at when a shape is flattened.
-/

def bothShape : Shape :=
  .object (some "Both") (bothFields n)

def childShape : Shape :=
  .object (some "Child") (childFields n)

theorem flattenWithin_low :
    (tower n).flattenWithin 1 ⟨n + 2⟩ = some (.object (some "Low") (lowFields n)) :=
  flattenWithin_succ_eq_some_iff.mpr ⟨low n, get?_low n, by with_unfolding_all rfl⟩

theorem flattenWithin_both : (tower n).flattenWithin 1 ⟨n + 3⟩ = some (bothShape n) :=
  flattenWithin_succ_eq_some_iff.mpr ⟨both n, get?_both n, by with_unfolding_all rfl⟩

theorem flattenWithin_child : (tower n).flattenWithin 2 ⟨n + 4⟩ = some (childShape n) := by
  apply flattenWithin_succ_eq_some_iff.mpr
  refine ⟨child, get?_child n, ?_⟩
  have hlow : Definition.parentFrom (tower n).lookup? ((tower n).flattenWithin 1) "Low" =
      some (lowFields n) := by
    rw [Definition.parentFrom, lookup?_low, Option.bind_some, flattenWithin_low]
    rfl
  have hboth : Definition.parentFrom (tower n).lookup? ((tower n).flattenWithin 1) "Both" =
      some (bothFields n) := by
    rw [Definition.parentFrom, lookup?_both, Option.bind_some, flattenWithin_both]
    rfl
  have hparents : child.parents.mapM
      (Definition.parentFrom (tower n).lookup? ((tower n).flattenWithin 1)) =
      some [lowFields n, bothFields n] := by
    simp [child, Definition.declared, hlow, hboth]
  rw [Definition.flattened, show child.kind = some .mergeable from rfl]
  exact Option.map_eq_some_iff.mpr ⟨_, hparents, by with_unfolding_all rfl⟩

theorem not_depends_low (b : ShapeId) : ¬ (tower n).Depends ⟨n + 2⟩ b :=
  not_depends_of_needs_eq_nil (get?_low n) rfl b

theorem not_depends_both (b : ShapeId) : ¬ (tower n).Depends ⟨n + 3⟩ b :=
  not_depends_of_needs_eq_nil (get?_both n) rfl b

theorem not_depends_parent (b c : ShapeId) (hb : (tower n).Depends ⟨n + 4⟩ b) :
    ¬ (tower n).Depends b c := by
  rcases hb with ⟨d, hd, hb⟩
  cases (get?_child n).symm.trans hd
  have hcases : b = ⟨n + 2⟩ ∨ b = ⟨n + 3⟩ := by
    simpa [Definition.needs, child, Definition.declared, lookup?_low, lookup?_both] using hb
  cases hcases with
  | inl hlow =>
      rw [hlow]
      exact not_depends_low n c
  | inr hboth =>
      rw [hboth]
      exact not_depends_both n c

theorem resolve_of_shallow (hsmall : n + 4 < Limits.resolution.maxSteps) {id : ShapeId}
    {s : Shape} (hs : (tower n).Flattens id s)
    (hshallow : forall b c, (tower n).Depends id b -> ¬ (tower n).Depends b c) :
    ((resolve id).run (tower n)).1 = .ok s := by
  apply resolve_of_flattens (reachable n).faithful _ (by rwa [size]) hs
  intro path hpath
  have htwo : path.length ≤ 1 + 1 := by
    apply hpath.length_le_succ
    intro b rest hb hrest
    apply hrest.length_le_succ
    intro c more hc _
    exact absurd hc (hshallow b c hb)
  exact Nat.le_trans htwo (by decide)

theorem resolve_child (hsmall : n + 4 < Limits.resolution.maxSteps) :
    ((resolve ⟨n + 4⟩).run (tower n)).1 = .ok (childShape n) :=
  resolve_of_shallow n hsmall ⟨2, flattenWithin_child n⟩ (not_depends_parent n)

def one : Json :=
  .num (.integer 1)

def ones : Json :=
  .obj [("high", one), ("low", one)]

theorem run_rung {r r1 : Registry} {id : ShapeId}
    (h : (resolve id).run r = (.ok (.keyword .number), r1)) :
    (typeMatches maxValueDepth (.reference id) one).run r = (true, r1) :=
  run_typeMatches_reference h

theorem last_rejects (hhigh : Limits.resolution.maxDepth ≤ n) (levels : Nat) :
    ((typeMatches (levels + 1) (.reference ⟨n + 1⟩) one).run (tower n)).1 = false :=
  typeMatches_reference_failed (resolve_rung_ne_ok (hasLadder n) hhigh)

theorem child_accepts {k : Nat} (hlow : k < Limits.resolution.maxDepth) :
    ((matchesShape (childShape (k + 1)) ones).run (tower (k + 1))).1 = true := by
  have hfaithful := (reachable (k + 1)).faithful
  have hsmall : (tower (k + 1)).size < Limits.resolution.maxSteps := by
    rw [size]
    exact Nat.lt_of_lt_of_le (Nat.add_lt_add_right hlow 5) (by decide)
  have hrungs := (hasLadder (k + 1)).resolve_then_next hfaithful hsmall (Nat.lt_succ_self _) hlow
  rcases hrungs with ⟨r1, r2, hlower, hupper⟩
  rw [matchesShape, childShape, ones,
    run_shapeMatches_object (highFields (k + 1)) rfl rfl (run_rung hlower),
    run_shapeMatches_object .empty rfl rfl (run_rung hupper)]
  rfl

end Tower

end Registry
end Shapes
