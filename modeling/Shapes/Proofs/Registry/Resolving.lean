import Shapes.Proofs.Registry.Exactness

/-!
# What can be resolved

A type that flattens may still fail to resolve, since a resolution has its limits.
They are kept where no path of dependencies is long and shapes are few, and there
a type resolves to what it flattens to, whatever has been resolved before.
-/

namespace Shapes
namespace Registry

/-- A type that flattens also resolves, whatever has been resolved before. -/
def Resolves (r : Registry) (t : FieldType) : Prop :=
  forall r1 s, Walked [] r r1 -> r.TypeFlattens t s ->
    exists r2, (resolveType t).run r1 = (.ok s, r2)

section Resolves

variable {r r1 : Registry}

theorem FreshPath.of_walked (hwalk : Walked [] r r1) {id : ShapeId} {path : List ShapeId}
    (h : r1.FreshPath id path) : r.FreshPath id path := by
  refine ⟨h.head, ?_, h.nodup, ?_⟩
  · apply h.chain.imp
    intro a b hab
    exact hwalk.sameDeclarations.depends_iff.mp hab
  · intro b hb
    exact hwalk.cached?_eq_none (h.fresh b hb)

theorem FreshPath.length_le_succ {id : ShapeId} {path : List ShapeId} {n : Nat}
    (h : r.FreshPath id path)
    (hnext : forall b rest, r.Depends id b -> r.FreshPath b rest -> rest.length ≤ n) :
    path.length ≤ n + 1 := by
  cases path with
  | nil => exact Nat.zero_le _
  | cons a rest =>
      have hhead : a = id := Option.some.inj h.head
      cases rest with
      | nil => exact Nat.succ_le_succ (Nat.zero_le n)
      | cons b others =>
          have hchain := List.isChain_cons_cons.mp h.chain
          have htail : r.FreshPath b (b :: others) :=
            ⟨rfl, hchain.2, (List.nodup_cons.mp h.nodup).2,
              fun c hc => h.fresh c (List.mem_cons_of_mem a hc)⟩
          exact Nat.succ_le_succ (hnext b _ (hhead ▸ hchain.1) htail)

theorem FreshPath.exists_flattens {id : ShapeId} {path : List ShapeId} (h : r.FreshPath id path)
    {s : Shape} (hs : r.Flattens id s) : forall b, b ∈ path -> exists t, r.Flattens b t := by
  have hhead := h.head
  have hchain := h.chain
  clear h
  induction path generalizing id s with
  | nil => cases hhead
  | cons a rest ih =>
      cases hhead
      intro b hb
      cases List.mem_cons.mp hb with
      | inl heq => exact ⟨s, heq ▸ hs⟩
      | inr htail =>
          cases rest with
          | nil => cases htail
          | cons next others =>
              rw [List.isChain_cons_cons] at hchain
              rcases exists_flattens_of_reaches hs (.single hchain.1) with ⟨t, ht⟩
              exact ih ht rfl hchain.2 b htail

theorem FreshPath.length_le {id : ShapeId} {path : List ShapeId} (h : r.FreshPath id path)
    {s : Shape} (hs : r.Flattens id s) : path.length ≤ r.size := by
  apply length_le_size h.nodup
  intro b hb
  rcases h.exists_flattens hs b hb with ⟨t, levels, ht⟩
  cases levels with
  | zero => cases ht
  | succ levels =>
      rcases flattenWithin_succ_eq_some_iff.mp ht with ⟨d, hd, _⟩
      exact ⟨d, hd⟩

theorem resolve_of_flattens (hr : r.Faithful) {id : ShapeId}
    (hshort : forall path, r.FreshPath id path -> path.length ≤ Limits.resolution.maxDepth)
    (hsmall : r.size < Limits.resolution.maxSteps) {s : Shape} (hs : r.Flattens id s) :
    ((resolve id).run r).1 = .ok s := by
  rcases resolve_cases hr id with ⟨t, hok, ht⟩ | ⟨failure, _, hfault, hfew⟩
  · rw [hok, flattens_unique ht hs]
  · rcases hfault.exceeds_of_flattens hs with ⟨path, hpath, hlong⟩ | hmany
    · exact absurd (hshort path hpath) (Nat.not_le_of_lt hlong)
    · omega

theorem resolves_of_short (hr : r.Faithful)
    (hshort : forall id path s, r.Flattens id s -> r.FreshPath id path ->
      path.length ≤ Limits.resolution.maxDepth)
    (hsmall : r.size < Limits.resolution.maxSteps) (t : FieldType) : r.Resolves t := by
  intro r1 s hwalk hs
  have hr1 := hwalk.faithful hr
  have hs1 : r1.TypeFlattens t s := hwalk.sameDeclarations.typeFlattens_iff.mpr hs
  rcases hrun : (WalkM.shapeOf (WalkM.visit Limits.resolution.maxDepth) t).run
    ⟨r1, Trail.start Limits.resolution⟩ with ⟨answer, w⟩
  have hresolve : (resolveType t).run r1 = (answer, w.registry) := by
    rw [run_resolveType, hrun]
  cases answer with
  | ok found =>
      rw [typeFlattens_unique hs1 (typeFlattens_of_resolveType hr1 hresolve)]
      exact ⟨w.registry, hresolve⟩
  | error failure =>
      have haccount := WalkM.shapeOf_accounted (WalkM.visit_exact Limits.resolution.maxDepth)
        (course_start hr1 t.references) rfl (fun _ hb => hb) hrun
      rcases haccount with ⟨hspent, hfault | ⟨_, hstuck⟩⟩
      · have hfound : forall b, b ∈ t.references -> exists u, r1.Flattens b u := by
          intro b hb
          rcases hs1 with ⟨levels, hlevels⟩
          rcases FieldType.references_found hlevels b hb with ⟨u, hu⟩
          exact ⟨u, levels, hu⟩
        rcases hfault.exceeds_of_found hfound with ⟨root, path, hroot, hpath, hlong⟩ | hmany
        · rcases hfound root hroot with ⟨u, hu⟩
          have hflat := hwalk.sameDeclarations.flattens_iff.mp hu
          have hle := hshort root path u hflat (hpath.of_walked hwalk)
          omega
        · have hidle := Walk.idle_le_size ⟨r1, Trail.start Limits.resolution⟩
          have hsize := hwalk.size
          have hsteps : w.trail.steps ≤
              0 + Walk.idle ⟨r1, Trail.start Limits.resolution⟩ + 1 := hspent
          simp only at hidle
          omega
      · exact absurd hs1 (hstuck s)

theorem resolves_of_small (hr : r.Faithful) (hsmall : r.size ≤ Limits.resolution.maxDepth)
    (t : FieldType) : r.Resolves t := by
  apply resolves_of_short hr
  · intro id path s hs hpath
    exact Nat.le_trans (hpath.length_le hs) hsmall
  · exact Nat.lt_of_le_of_lt hsmall (by decide)

theorem resolve_of_resolveType {id : ShapeId} {s : Shape} {r2 : Registry}
    (h : (resolveType (.reference id)).run r1 = (.ok s, r2)) :
    (resolve id).run r1 = (.ok s, r2) := by
  have hroot : forall levels route w s w', (WalkM.visit levels route id).run w = (.ok s, w') ->
      (WalkM.visit levels .root id).run w = (.ok s, w') := by
    intro levels route w s w' hrun
    -- The way to a shape only matters for the failure when it is refused.
    have hby : forall settle, (WalkM.visitBy settle route id).run w = (.ok s, w') ->
        (WalkM.visitBy settle .root id).run w = (.ok s, w') := by
      intro settle hrun
      rw [WalkM.run_visitBy, WalkM.run_inside] at hrun ⊢
      split at hrun
      · exact hrun
      · split at hrun
        · exact hrun
        · cases hrun
    cases levels with
    | zero => exact hby _ hrun
    | succ levels => exact hby _ hrun
  rw [run_resolveType] at h
  rcases hrun : (WalkM.shapeOf (WalkM.visit Limits.resolution.maxDepth) (.reference id)).run
    ⟨r1, Trail.start Limits.resolution⟩ with ⟨answer, w⟩
  rw [hrun] at h
  cases h
  rw [run_resolve, hroot _ _ _ _ _ hrun]
  rfl

theorem Resolves.reference {id : ShapeId} (h : r.Resolves (.reference id)) {s : Shape}
    (hs : r.Flattens id s) (hwalk : Walked [] r r1) :
    exists r2, (resolve id).run r1 = (.ok s, r2) := by
  rcases h r1 s hwalk hs with ⟨r2, hrun⟩
  exact ⟨r2, resolve_of_resolveType hrun⟩

end Resolves

end Registry
end Shapes
