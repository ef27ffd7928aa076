import Shapes.Proofs.Registry.Flattening

/-!
# Kept shapes

A registry is faithful when every shape it keeps is the one that its
declarations flatten to, everything the flattening looks at is kept too, and
definitions with a kept shape are closed to declarations.  The last two are what
makes the first one last: a declaration cannot reach what a kept shape was
computed from.  Its identifiers are numbered, so that a new definition does not
take the place of one with a kept shape.

This module has the writes that keep a registry faithful: a new definition, a
definition that changes before its shape is kept, a stage that changes, and a
shape that is kept.
-/

namespace Shapes
namespace Registry

structure Faithful (r : Registry) : Prop where
  numbered : r.arena.Numbered
  flattens : forall {id s}, r.arena.cached? id = some s -> r.Flattens id s
  closed : forall {a b s}, r.arena.cached? a = some s -> r.Depends a b ->
    exists t, r.arena.cached? b = some t
  settled : forall {id d s}, r.arena.get? id = some d -> d.resolved = some s ->
    d.stage = .resolved ∨ d.stage = .frozen

theorem cached?_eq_some_iff {r : Registry} {id : ShapeId} {s : Shape} :
    r.arena.cached? id = some s <->
      exists d, r.arena.get? id = some d ∧ d.resolved = some s := by
  simp only [Arena.cached?, Option.bind_eq_some_iff]

theorem cached?_of_get? {r : Registry} {id : ShapeId} {d : Definition}
    (h : r.arena.get? id = some d) : r.arena.cached? id = d.resolved := by
  simp only [Arena.cached?, h, Option.bind_some]

theorem Faithful.of_nothing_kept {r : Registry} (hr : r.arena.Numbered)
    (h : forall id, r.arena.cached? id = none) : r.Faithful := by
  refine ⟨hr, ?_, ?_, ?_⟩
  · intro id s hs
    rw [h id] at hs
    cases hs
  · intro a b s hs
    rw [h a] at hs
    cases hs
  · intro id d s hd hs
    rw [← cached?_of_get? hd, h id] at hs
    cases hs

theorem faithful_empty (policy : KeyPolicy) : (empty policy).Faithful := by
  apply Faithful.of_nothing_kept Arena.numbered_empty
  intro id
  rfl

namespace Faithful

variable {r r' : Registry}

theorem cached_of_reaches (h : r.Faithful) {a b : ShapeId} {s : Shape}
    (ha : r.arena.cached? a = some s) (hab : r.Reaches a b) :
    exists t, r.arena.cached? b = some t := by
  induction hab with
  | refl => exact ⟨s, ha⟩
  | tail _ hbc ih =>
      rcases ih with ⟨t, ht⟩
      exact h.closed ht hbc

theorem kind_ne_none (h : r.Faithful) {id : ShapeId} {d : Definition} {s : Shape}
    (hd : r.arena.get? id = some d) (hs : d.resolved = some s) : d.kind ≠ none := by
  intro hnone
  rcases h.flattens (cached?_eq_some_iff.mpr ⟨d, hd, hs⟩) with ⟨levels, hlevels⟩
  rw [flattenWithin_eq_none_of_kind? (by rw [Arena.kind?, hd]; exact hnone)] at hlevels
  cases hlevels

/-!
# Writes away from kept shapes

A kept shape depends on definitions with a kept shape only, so any other
definition may be written.
-/

theorem of_kept_unchanged (h : r.Faithful) (hnumbered : r'.arena.Numbered)
    (hlookup : forall p id, r.lookup? p = some id -> r'.lookup? p = some id)
    (hsame : forall {id d s}, r.arena.get? id = some d -> d.resolved = some s ->
      r'.arena.get? id = some d)
    (hold : forall {id s}, r'.arena.cached? id = some s -> r.arena.cached? id = some s) :
    r'.Faithful := by
  have hkept : forall a d, (exists s, r.arena.cached? a = some s) ->
      r.arena.get? a = some d -> r'.arena.get? a = some d := by
    intro a d hs hd
    rcases hs with ⟨s, hs⟩
    rw [cached?_of_get? hd] at hs
    exact hsame hd hs
  refine ⟨hnumbered, ?_, ?_, ?_⟩
  · intro id s hs
    rcases h.flattens (hold hs) with ⟨levels, hlevels⟩
    refine ⟨levels, ?_⟩
    -- The kept shapes are closed under dependencies and none of them changed.
    apply flattenWithin_congr (fun a => exists t, r.arena.cached? a = some t) hlookup _ _
      ⟨s, hold hs⟩ hlevels
    · intro a b ha hab
      rcases ha with ⟨t, ht⟩
      exact h.closed ht hab
    · intro a d ha hd
      exact ⟨d, hkept a d ha hd, fun _ _ => rfl⟩
  · intro a b s hs hab
    rcases cached?_eq_some_iff.mp (hold hs) with ⟨d, hd, hres⟩
    have hneeds : b ∈ d.needs r.lookup? := by
      rcases hab with ⟨d', hd', hb⟩
      rw [hsame hd hres] at hd'
      cases hd'
      -- What a flattened definition needs was found before, so it is found again.
      rcases h.flattens (hold hs) with ⟨levels, hlevels⟩
      cases levels with
      | zero => cases hlevels
      | succ levels =>
          rcases flattenWithin_succ_eq_some_iff.mp hlevels with ⟨e, he, hflat⟩
          rw [hd] at he
          cases he
          rw [Definition.needs_eq_of_flattened hlookup hflat] at hb
          exact hb
    rcases h.closed (hold hs) ⟨d, hd, hneeds⟩ with ⟨t, ht⟩
    rcases cached?_eq_some_iff.mp ht with ⟨e, he, heres⟩
    exact ⟨t, cached?_eq_some_iff.mpr ⟨e, hsame he heres, heres⟩⟩
  · intro id d s hd hs
    rcases cached?_eq_some_iff.mp (hold (cached?_eq_some_iff.mpr ⟨d, hd, hs⟩)) with
      ⟨e, he, heres⟩
    rw [hsame he heres] at hd
    cases hd
    exact h.settled he heres

/-!
# Writes to the progress of a definition

A change of stage changes no declaration, and a shape that is kept is the one
that the definition flattens to.
-/

theorem cached?_setDefinition_of_ne {id other : ShapeId} {d : Definition}
    (hne : other ≠ id) :
    (r.setDefinition id d).arena.cached? other = r.arena.cached? other := by
  simp only [Arena.cached?, setDefinition, Arena.get?_set_of_ne d hne]

theorem cached?_setDefinition_self {id : ShapeId} {old : Definition} (d : Definition)
    (hold : r.arena.get? id = some old) :
    (r.setDefinition id d).arena.cached? id = d.resolved := by
  exact cached?_of_get? (Arena.get?_set_self d hold)

theorem cached?_restage {id : ShapeId} {d : Definition} (hd : r.arena.get? id = some d)
    (stage : Stage) (other : ShapeId) :
    (r.setDefinition id { d with stage }).arena.cached? other = r.arena.cached? other := by
  by_cases hother : other = id
  · subst hother
    rw [cached?_setDefinition_self _ hd, cached?_of_get? hd]
  · exact cached?_setDefinition_of_ne hother

theorem restage (h : r.Faithful) {id : ShapeId} {d : Definition} {stage : Stage}
    (hd : r.arena.get? id = some d)
    (hstage : forall s, d.resolved = some s -> stage = .resolved ∨ stage = .frozen) :
    (r.setDefinition id { d with stage }).Faithful := by
  have hsame : r.SameDeclarations (r.setDefinition id { d with stage }) :=
    SameDeclarations.setDefinition hd ⟨rfl, rfl, rfl, rfl, rfl⟩
  have hcached := cached?_restage hd stage
  refine ⟨h.numbered.set _ _, ?_, ?_, ?_⟩
  · intro other s hs
    rw [hcached] at hs
    exact hsame.flattens_iff.mpr (h.flattens hs)
  · intro a b s hs hab
    rw [hcached] at hs ⊢
    exact h.closed hs (hsame.depends_iff.mp hab)
  · intro other e s he hs
    by_cases hother : other = id
    · subst hother
      rw [setDefinition, Arena.get?_set_self _ hd] at he
      cases he
      exact hstage s hs
    · rw [setDefinition, Arena.get?_set_of_ne _ hother] at he
      exact h.settled he hs

theorem keep (h : r.Faithful) {id : ShapeId} {d : Definition} {s : Shape}
    (hd : r.arena.get? id = some d)
    (hflat : d.flattened r.lookup? r.arena.cached? = some s) :
    (r.setDefinition id { d with resolved := some s, stage := .resolved }).Faithful := by
  have hsame : r.SameDeclarations
      (r.setDefinition id { d with resolved := some s, stage := .resolved }) :=
    SameDeclarations.setDefinition hd ⟨rfl, rfl, rfl, rfl, rfl⟩
  have hself := cached?_setDefinition_self
    { d with resolved := some s, stage := .resolved } hd
  have hs : r.Flattens id s :=
    flattens_of_flattened hd (fun b _ u hu => h.flattens hu) hflat
  refine ⟨h.numbered.set _ _, ?_, ?_, ?_⟩
  · intro other t ht
    apply hsame.flattens_iff.mpr
    by_cases hother : other = id
    · subst hother
      rw [hself] at ht
      cases ht
      exact hs
    · rw [cached?_setDefinition_of_ne hother] at ht
      exact h.flattens ht
  · intro a b t ht hab
    have hdepends := hsame.depends_iff.mp hab
    have hbefore : exists u, r.arena.cached? b = some u := by
      by_cases ha : a = id
      · subst ha
        rcases hdepends with ⟨e, he, hb⟩
        rw [hd] at he
        cases he
        exact Definition.needs_found hflat b hb
      · rw [cached?_setDefinition_of_ne ha] at ht
        exact h.closed ht hdepends
    by_cases hb : b = id
    · subst hb
      exact ⟨s, hself⟩
    · rw [cached?_setDefinition_of_ne hb]
      exact hbefore
  · intro other e t he ht
    by_cases hother : other = id
    · subst hother
      rw [setDefinition, Arena.get?_set_self _ hd] at he
      cases he
      exact Or.inl rfl
    · rw [setDefinition, Arena.get?_set_of_ne _ hother] at he
      exact h.settled he ht

end Faithful
end Registry
end Shapes
