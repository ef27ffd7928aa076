import Shapes.Proofs.Registry.Faithful

/-!
# Progress of a registry

Whatever looks at a registry may flatten definitions and keep their shapes, and
that is all it does: no declaration changes and no kept shape is lost.
`Registry.Walked` says so of two registries; some of the definitions in it are
named as not touched at all.
-/

namespace Shapes

/-!
# Definitions

A walk keeps a shape that was not kept, changes the stage, or leaves a
definition alone.
-/

/-- What a walk may do to a definition. -/
inductive Definition.Walked : Definition -> Definition -> Prop where
  | same (d : Definition) : Walked d d
  | kept {d : Definition} (s : Shape) : d.resolved = none ->
      Walked d { d with resolved := some s, stage := .resolved }
  /-- Only a definition that was left marked can be met with the mark. -/
  | released {d : Definition} : d.resolved = none -> d.stage = .resolving ->
      Walked d { d with stage := .unresolved }

namespace Definition.Walked

variable {d d' d'' : Definition}

theorem trans (h : Walked d d') (h' : Walked d' d'') : Walked d d'' := by
  cases h with
  | same => exact h'
  | kept s hnone =>
      cases h' with
      | same => exact kept s hnone
      | kept _ hsome => cases hsome
      | released hsome => cases hsome
  | released hnone hstage =>
      cases h' with
      | same => exact released hnone hstage
      | kept s _ => exact kept s hnone
      | released _ hunresolved => cases hunresolved

theorem sameDeclaration (h : Walked d d') : d.SameDeclaration d' := by
  cases h <;> exact ⟨rfl, rfl, rfl, rfl, rfl⟩

theorem eq_of_resolved {s : Shape} (h : Walked d d') (hs : d.resolved = some s) : d' = d := by
  cases h with
  | same => rfl
  | kept _ hnone =>
      rw [hs] at hnone
      cases hnone
  | released hnone _ =>
      rw [hs] at hnone
      cases hnone

end Definition.Walked

/-!
# Marks

While a definition is being flattened it bears a mark, which its shape or the
end of the visit takes off.
-/

/-- A definition with the mark that its resolution is under way. -/
def Definition.marked (d : Definition) : Definition :=
  if d.stage = .unresolved then { d with stage := .resolving } else d

/-- A definition without that mark. -/
def Definition.unmarked (d : Definition) : Definition :=
  if d.stage = .resolving then { d with stage := .unresolved } else d

namespace Definition

variable {d : Definition}

@[simp] theorem marked_resolved (d : Definition) : d.marked.resolved = d.resolved := by
  unfold marked
  split <;> rfl

theorem sameDeclaration_marked (d : Definition) : d.SameDeclaration d.marked := by
  unfold marked
  split <;> exact ⟨rfl, rfl, rfl, rfl, rfl⟩

theorem walked_keep_marked (h : d.resolved = none) (s : Shape) :
    d.Walked { d.marked with resolved := some s, stage := .resolved } := by
  unfold marked
  split <;> exact Walked.kept s h

theorem walked_unmarked_marked (h : d.resolved = none) : d.Walked d.marked.unmarked := by
  unfold marked unmarked
  by_cases hunresolved : d.stage = .unresolved
  · rw [if_pos hunresolved, if_pos rfl]
    have hsame : { d with stage := Stage.unresolved } = d := by
      rw [← hunresolved]
    rw [hsame]
    exact Walked.same d
  · rw [if_neg hunresolved]
    by_cases hresolving : d.stage = .resolving
    · rw [if_pos hresolving]
      exact Walked.released h hresolving
    · rw [if_neg hresolving]
      exact Walked.same d

end Definition

/-!
# Registries

Two registries are related definition by definition, and the definitions that
are named are the same in both.
-/

namespace Registry

section Mark

variable {r : Registry} {id : ShapeId} {d : Definition}

theorem cached?_mark (hd : r.arena.get? id = some d) (other : ShapeId) :
    (r.setDefinition id d.marked).arena.cached? other = r.arena.cached? other := by
  by_cases hother : other = id
  · subst hother
    rw [cached?_of_get? hd, cached?_of_get? (Arena.get?_set_self d.marked hd),
      Definition.marked_resolved]
  · exact Faithful.cached?_setDefinition_of_ne hother

theorem Faithful.mark (h : r.Faithful) (hd : r.arena.get? id = some d)
    (hnone : d.resolved = none) : (r.setDefinition id d.marked).Faithful := by
  unfold Definition.marked
  split
  · apply h.restage hd
    intro s hs
    rw [hnone] at hs
    cases hs
  · rw [setDefinition, Arena.set_of_get?_eq_some hd]
    exact h

theorem Faithful.unmark (h : r.Faithful) (hd : r.arena.get? id = some d)
    (hnone : d.resolved = none) : (r.setDefinition id d.unmarked).Faithful := by
  unfold Definition.unmarked
  split
  · apply h.restage hd
    intro s hs
    rw [hnone] at hs
    cases hs
  · rw [setDefinition, Arena.set_of_get?_eq_some hd]
    exact h

end Mark

/-- What a walk may do to a registry while some definitions stay as they are. -/
structure Walked (fixed : List ShapeId) (r r' : Registry) : Prop where
  policy : r'.policy = r.policy
  index : r'.index = r.index
  definitions : forall id,
    Option.Rel Definition.Walked (r.arena.get? id) (r'.arena.get? id)
  unchanged : forall id, id ∈ fixed -> r'.arena.get? id = r.arena.get? id
  faithful : r.Faithful -> r'.Faithful

namespace Walked

variable {fixed : List ShapeId} {r r' r'' : Registry}

theorem refl (fixed : List ShapeId) (r : Registry) : Walked fixed r r := by
  refine ⟨rfl, rfl, ?_, fun _ _ => rfl, id⟩
  intro id
  cases r.arena.get? id with
  | none => exact Option.Rel.none
  | some d => exact Option.Rel.some (.same d)

theorem trans (h : Walked fixed r r') (h' : Walked fixed r' r'') : Walked fixed r r'' := by
  refine ⟨h'.policy.trans h.policy, h'.index.trans h.index, ?_, ?_, h'.faithful ∘ h.faithful⟩
  · intro id
    have hfirst := h.definitions id
    have hsecond := h'.definitions id
    generalize r.arena.get? id = before at hfirst
    generalize r'.arena.get? id = between at hfirst hsecond
    generalize r''.arena.get? id = after at hsecond
    cases hfirst with
    | none => exact hsecond
    | some hd =>
        cases hsecond with
        | some hd' => exact Option.Rel.some (hd.trans hd')
  · intro id hid
    rw [h'.unchanged id hid, h.unchanged id hid]

theorem of_get?_eq_some (h : Walked fixed r r') {id : ShapeId} {d : Definition}
    (hd : r.arena.get? id = some d) :
    exists d', r'.arena.get? id = some d' ∧ d.Walked d' := by
  have hid := h.definitions id
  rw [hd] at hid
  generalize r'.arena.get? id = after at hid
  cases hid with
  | some hwalked => exact ⟨_, rfl, hwalked⟩

theorem size (h : Walked fixed r r') : r'.size = r.size :=
  size_of_index h.index

theorem sameDeclarations (h : Walked fixed r r') : r.SameDeclarations r' := by
  refine ⟨h.index, ?_⟩
  intro id
  have hid := h.definitions id
  generalize r.arena.get? id = before at hid
  generalize r'.arena.get? id = after at hid
  cases hid with
  | none => exact Option.Rel.none
  | some hwalked => exact Option.Rel.some hwalked.sameDeclaration

theorem cached? (h : Walked fixed r r') {id : ShapeId} {s : Shape}
    (hs : r.arena.cached? id = some s) : r'.arena.cached? id = some s := by
  rcases cached?_eq_some_iff.mp hs with ⟨d, hd, hres⟩
  rcases h.of_get?_eq_some hd with ⟨d', hd', hwalked⟩
  rw [hwalked.eq_of_resolved hres] at hd'
  exact cached?_eq_some_iff.mpr ⟨d, hd', hres⟩

theorem cached?_eq_none (h : Walked fixed r r') {id : ShapeId}
    (hnone : r'.arena.cached? id = none) : r.arena.cached? id = none := by
  cases hs : r.arena.cached? id with
  | none => rfl
  | some s =>
      rw [h.cached? hs] at hnone
      cases hnone

theorem around {r1 r2 : Registry} {id : ShapeId} {d d1 d2 : Definition}
    (hd : r.arena.get? id = some d) (hfixed : id ∉ fixed)
    (hwalk : Walked (id :: fixed) (r.setDefinition id d1) r1) (hwalked : d.Walked d2)
    (hend : r2 = r1.setDefinition id d2) (hfaithful : r.Faithful -> r2.Faithful) :
    Walked fixed r r2 := by
  have hd1 : r1.arena.get? id = some d1 := by
    rw [hwalk.unchanged id List.mem_cons_self]
    exact Arena.get?_set_self d1 hd
  have hother : forall other, other ≠ id ->
      (r.setDefinition id d1).arena.get? other = r.arena.get? other ∧
        r2.arena.get? other = r1.arena.get? other := by
    intro other hne
    rw [hend]
    exact ⟨Arena.get?_set_of_ne d1 hne, Arena.get?_set_of_ne d2 hne⟩
  refine ⟨?_, ?_, ?_, ?_, hfaithful⟩
  · rw [hend]
    exact hwalk.policy
  · rw [hend]
    calc (r1.setDefinition id d2).index = r1.index := index_setDefinition r1 id d2
      _ = (r.setDefinition id d1).index := hwalk.index
      _ = r.index := index_setDefinition r id d1
  · intro other
    by_cases hne : other = id
    · subst hne
      rw [hd, hend, Registry.setDefinition, Arena.get?_set_self d2 hd1]
      exact Option.Rel.some hwalked
    · have hstep := hwalk.definitions other
      rw [(hother other hne).1] at hstep
      rw [(hother other hne).2]
      exact hstep
  · intro other hmem
    have hne : other ≠ id := by
      intro heq
      subst heq
      exact hfixed hmem
    rw [(hother other hne).2, hwalk.unchanged other (List.mem_cons_of_mem id hmem),
      (hother other hne).1]

end Walked
end Registry

end Shapes
