import Mathlib.Data.List.Induction
import Shapes.Proofs.Registry.Names
import Shapes.Proofs.Registry.Resolving

/-!
# Ladders

The first rung of a ladder is a number, and every other one is another name for the rung
below it.  A resolution from a rung goes down to the first one, so it succeeds from the
lowest rungs of a ladder that nothing is kept of, and exceeds its depth from all others.

What is resolved is kept, and so every rung resolves once the one below it has been.
-/

namespace Shapes
namespace Registry

/-!
# Building ladders

Definitions are registered one after another, each under a name of its own, so
the rungs are found in the order in which they were declared.
-/

/-- A registry with definitions in the order of their identifiers. -/
def ofDefinitions (definitions : List Definition) : Registry :=
  definitions.foldl (fun r d => (r.register d).2) (empty .common)

theorem ofDefinitions_append (definitions : List Definition) (d : Definition) :
    ofDefinitions (definitions ++ [d]) = ((ofDefinitions definitions).register d).2 := by
  rw [ofDefinitions, List.foldl_append]
  rfl

theorem size_ofDefinitions (definitions : List Definition) :
    (ofDefinitions definitions).size = definitions.length := by
  induction definitions using List.reverseRecOn with
  | nil => rfl
  | append_singleton before d ih =>
      rw [ofDefinitions_append, List.length_append, ← ih]
      rfl

theorem numbered_ofDefinitions (definitions : List Definition) :
    (ofDefinitions definitions).arena.Numbered := by
  induction definitions using List.reverseRecOn with
  | nil => exact Arena.numbered_empty
  | append_singleton before d ih =>
      rw [ofDefinitions_append]
      exact ih.register d

theorem get?_ofDefinitions (definitions : List Definition) (k : Nat) :
    (ofDefinitions definitions).arena.get? ⟨k + 1⟩ = definitions[k]? := by
  induction definitions using List.reverseRecOn with
  | nil => rfl
  | append_singleton before d ih =>
      have hnext : (ofDefinitions before).arena.next = ⟨before.length + 1⟩ := by
        rw [(numbered_ofDefinitions before).next, ← size_ofDefinitions]
        rfl
      rw [ofDefinitions_append]
      by_cases hk : k = before.length
      · rw [hk, ← hnext, List.getElem?_concat_length]
        exact Arena.get?_register_new _ d
      · have hne : (⟨k + 1⟩ : ShapeId) ≠ (ofDefinitions before).arena.next := by
          rw [hnext]
          intro heq
          cases heq
          exact hk rfl
        rw [register, Arena.get?_register_of_ne d hne, ih]
        by_cases hlt : k < before.length
        · rw [List.getElem?_append_left hlt]
        · rw [List.getElem?_eq_none (by omega), List.getElem?_eq_none]
          rw [List.length_append, List.length_singleton]
          omega

theorem lookup?_ofDefinitions_eq_none {definitions : List Definition} {name : String}
    (hnew : forall d, d ∈ definitions -> d.name ≠ name) :
    (ofDefinitions definitions).lookup? name = none := by
  induction definitions using List.reverseRecOn with
  | nil => rfl
  | append_singleton before d ih =>
      have hd : d.name ≠ name := hnew d (List.mem_append_right _ List.mem_cons_self)
      rw [ofDefinitions_append, lookup?_register, if_neg (Ne.symm hd)]
      exact ih fun e he => hnew e (List.mem_append_left _ he)

theorem contribute_ofDefinitions {definitions : List Definition} {name : String}
    {c : Contribution} {d : Definition} (hnew : forall d, d ∈ definitions -> d.name ≠ name)
    (hd : Definition.ofContribution name c = .ok d) :
    ((contribute name c).run (ofDefinitions definitions)).2 =
      ofDefinitions (definitions ++ [d]) := by
  rw [run_contribute, lookup?_ofDefinitions_eq_none hnew, hd, ofDefinitions_append]

/-- The names of rungs are tallies. -/
def rungName (k : Nat) : String :=
  String.ofList (List.replicate (k + 1) 'I')

def rungBody : Nat -> FieldType
  | 0 => .keyword .number
  | k + 1 => .reference ⟨k + 1⟩

def rung (k : Nat) : Definition :=
  .declared (rungName k) .single .empty [] (some (rungBody k))

/-- A ladder with a number of rungs, declared from the first one on. -/
def ladder : Nat -> Registry
  | 0 => empty .common
  | n + 1 => ((declareBody (rungName n) (rungBody n)).run (ladder n)).2

theorem rungName_injective {j k : Nat} (h : rungName j = rungName k) : j = k := by
  have hlength := congrArg (fun name => name.toList.length) h
  simpa [rungName] using hlength

theorem rungName_ne {name : String} (h : name.toList.head? ≠ some 'I') (k : Nat) :
    rungName k ≠ name := by
  intro hname
  apply h
  rw [← hname]
  simp [rungName, List.replicate_succ]

theorem ladder_eq (n : Nat) : ladder n = ofDefinitions ((List.range n).map rung) := by
  induction n with
  | zero => rfl
  | succ n ih =>
      rw [ladder, ih, List.range_succ, List.map_append]
      apply contribute_ofDefinitions _ rfl
      intro d hd
      rcases List.mem_map.mp hd with ⟨k, hk, rfl⟩
      intro hname
      exact Nat.ne_of_lt (List.mem_range.mp hk) (rungName_injective hname)

theorem ladder_steps (n : Nat) : Relation.ReflTransGen Step (empty .common) (ladder n) := by
  induction n with
  | zero => exact .refl
  | succ n ih => exact ih.tail (.declareBody (rungName n) (rungBody n))

theorem ladder_reachable (n : Nat) : (ladder n).Reachable :=
  ⟨.common, ladder_steps n⟩

theorem size_ladder (n : Nat) : (ladder n).size = n := by
  rw [ladder_eq, size_ofDefinitions]
  simp

/-- A registry begins with a ladder of which nothing is kept. -/
def HasLadder (r : Registry) (n : Nat) : Prop :=
  forall k, k < n -> r.arena.get? ⟨k + 1⟩ = some (rung k)

theorem hasLadder_ladder (n : Nat) : (ladder n).HasLadder n := by
  intro k hk
  rw [ladder_eq, get?_ofDefinitions]
  simp [hk]

theorem HasLadder.cached? {r : Registry} {n k : Nat} (h : r.HasLadder n) (hk : k < n) :
    r.arena.cached? ⟨k + 1⟩ = none :=
  cached?_of_get? (h k hk)

theorem HasLadder.below {r : Registry} {n : Nat} (h : r.HasLadder (n + 1)) (d : Definition) :
    (r.setDefinition ⟨n + 1⟩ d).HasLadder n := by
  intro k hk
  have hne : (⟨k + 1⟩ : ShapeId) ≠ ⟨n + 1⟩ := by
    intro heq
    cases heq
    exact Nat.lt_irrefl _ hk
  rw [setDefinition, Arena.get?_set_of_ne d hne]
  exact h k (Nat.lt_succ_of_lt hk)

/-!
# Rungs that are too high

A visit with fewer levels than there are rungs below does not come to an end.
-/

theorem WalkM.visit_rung_ne_ok {levels k : Nat} (hk : levels ≤ k) {route : Route} {w w' : Walk}
    {s : Shape} (h : w.registry.HasLadder (k + 1)) :
    (visit levels route ⟨k + 1⟩).run w ≠ (.ok s, w') := by
  induction levels generalizing k route w w' s with
  | zero =>
      intro hrun
      rcases visitBy_cases hrun with ⟨s', hs', _⟩ | ⟨_, _, _, _, _, hfailed, _⟩ |
        ⟨_, _, _, _, hexhausted, _⟩
      · rw [h.cached? (Nat.lt_succ_self k)] at hs'
        cases hs'
      · cases hfailed
      · cases hexhausted
  | succ levels ih =>
      intro hrun
      cases k with
      | zero => cases hk
      | succ k =>
          rcases visitBy_cases hrun with ⟨s', hs', _⟩ | ⟨_, _, _, _, _, hfailed, _⟩ |
            ⟨_, trail, w1, henter, hsettle, _⟩
          · rw [h.cached? (Nat.lt_succ_self _)] at hs'
            cases hs'
          · cases hfailed
          · have hid : (⟨k + 1 + 1⟩ : ShapeId) ∈ trail.visiting := by
              rw [(Trail.enter_entered henter).2.2.2.2.1]
              exact List.mem_cons_self
            rcases settle_cases (visit_steady levels) hid hsettle with ⟨_, ⟨_, hfailed⟩, _⟩ |
              ⟨d, kind, w2, hd, hkind, hflatten, _, _⟩
            · cases hfailed
            · cases (h (k + 1) (Nat.lt_succ_self _)).symm.trans hd
              cases hkind
              cases run_bind_cases hflatten with
              | inl hbody =>
                  rcases hbody with ⟨s', w3, hvisit, _⟩
                  exact ih (Nat.le_of_succ_le_succ hk) (h.below _) hvisit
              | inr hfailed =>
                  rcases hfailed with ⟨failure, _, herror⟩
                  cases herror

theorem resolve_rung_ne_ok {r : Registry} {k : Nat} (h : r.HasLadder (k + 1))
    (hk : Limits.resolution.maxDepth ≤ k) (s : Shape) :
    ((resolve ⟨k + 1⟩).run r).1 ≠ .ok s := by
  intro hok
  rw [run_resolve] at hok
  rcases hrun : (WalkM.visit Limits.resolution.maxDepth .root ⟨k + 1⟩).run
    ⟨r, Trail.start Limits.resolution⟩ with ⟨answer, w⟩
  rw [hrun] at hok
  cases answer with
  | error failure => cases hok
  | ok t => exact WalkM.visit_rung_ne_ok hk h hrun

/-!
# Rungs that resolve

A way down has no more rungs than there are below, and it ends at the first rung
or at one that is kept.
-/

section Rungs

variable {r : Registry} {n : Nat} (h : r.HasLadder n)

include h

theorem HasLadder.flattens {k : Nat} (hk : k < n) : r.Flattens ⟨k + 1⟩ (.keyword .number) := by
  suffices hwithin : r.flattenWithin (k + 1) ⟨k + 1⟩ = some (.keyword .number) from
    ⟨k + 1, hwithin⟩
  induction k with
  | zero => exact flattenWithin_succ_eq_some_iff.mpr ⟨rung 0, h 0 hk, rfl⟩
  | succ k ih =>
      have hbelow := ih (Nat.lt_of_succ_lt hk)
      apply flattenWithin_succ_eq_some_iff.mpr
      refine ⟨rung (k + 1), h (k + 1) hk, ?_⟩
      show ((r.flattenWithin (k + 1) ⟨k + 1⟩).map fun s => s.rename (rungName (k + 1))) = _
      rw [hbelow]
      rfl

theorem HasLadder.depends {k : Nat} (hk : k < n) {b : ShapeId} (hb : r.Depends ⟨k + 1⟩ b) :
    exists j, k = j + 1 ∧ b = ⟨j + 1⟩ := by
  rcases hb with ⟨d, hd, hb⟩
  rw [h k hk] at hd
  cases hd
  cases k with
  | zero => cases hb
  | succ j => exact ⟨j, rfl, List.mem_singleton.mp hb⟩

theorem HasLadder.length_le {k : Nat} (hk : k < n) {path : List ShapeId}
    (hpath : r.FreshPath ⟨k + 1⟩ path) : path.length ≤ k + 1 := by
  induction k generalizing path with
  | zero =>
      apply hpath.length_le_succ
      intro b rest hb _
      rcases h.depends hk hb with ⟨j, hj, _⟩
      cases hj
  | succ k ih =>
      apply hpath.length_le_succ
      intro b rest hb hrest
      rcases h.depends hk hb with ⟨j, hj, rfl⟩
      cases hj
      exact ih (Nat.lt_of_succ_lt hk) hrest

theorem HasLadder.resolve (hr : r.Faithful) (hsmall : r.size < Limits.resolution.maxSteps)
    {k : Nat} (hk : k < n) (hlow : k < Limits.resolution.maxDepth) :
    ((resolve ⟨k + 1⟩).run r).1 = .ok (.keyword .number) := by
  apply resolve_of_flattens hr _ hsmall (h.flattens hk)
  intro path hpath
  exact Nat.le_trans (h.length_le hk hpath) hlow

theorem HasLadder.resolve_next (hr : r.Faithful) (hsmall : r.size < Limits.resolution.maxSteps)
    {k : Nat} (hk : k + 1 < n) {r1 : Registry} (hwalk : Walked [] r r1) {s : Shape}
    (hs : r1.arena.cached? ⟨k + 1⟩ = some s) :
    ((Registry.resolve ⟨k + 2⟩).run r1).1 = .ok (.keyword .number) := by
  have hflattens := hwalk.sameDeclarations.flattens_iff.mpr (h.flattens hk)
  have hsize : r1.size < Limits.resolution.maxSteps := by
    rw [hwalk.size]
    exact hsmall
  apply resolve_of_flattens (hwalk.faithful hr) _ hsize hflattens
  intro path hpath
  have hone : path.length ≤ 0 + 1 := by
    apply hpath.length_le_succ
    intro b rest hb hrest
    rcases h.depends hk (hwalk.sameDeclarations.depends_iff.mp hb) with ⟨j, hj, rfl⟩
    cases hj
    have hfresh := hrest.fresh ⟨k + 1⟩ (List.mem_of_mem_head? hrest.head)
    rw [hs] at hfresh
    cases hfresh
  exact Nat.le_trans hone (by decide)

theorem HasLadder.resolve_then_next (hr : r.Faithful)
    (hsmall : r.size < Limits.resolution.maxSteps) {k : Nat} (hk : k + 1 < n)
    (hlow : k < Limits.resolution.maxDepth) :
    exists r1 r2, (Registry.resolve ⟨k + 1⟩).run r = (.ok (.keyword .number), r1) ∧
      (Registry.resolve ⟨k + 2⟩).run r1 = (.ok (.keyword .number), r2) := by
  have hfirst := h.resolve hr hsmall (Nat.lt_of_succ_lt hk) hlow
  rcases hrun : (Registry.resolve ⟨k + 1⟩).run r with ⟨answer, r1⟩
  rw [hrun] at hfirst
  cases hfirst
  have hwalked := resolve_walked hrun
  have hnext := h.resolve_next hr hsmall hk hwalked.1 hwalked.2
  exact ⟨r1, _, rfl, Prod.ext hnext rfl⟩

end Rungs

end Registry
end Shapes
