import Mathlib.Data.Prod.Basic
import Shapes.Proofs.Registry.Relabel
import Shapes.Proofs.Subtype.Shows

/-!
# Comparisons with other identifiers

A comparison looks at identifiers to tell whether two references are one and
whether a pair of them is on the trail.  So registries that answer in step, such as
those that differ in identifiers only, give the same answers.
-/

namespace Shapes
namespace Registry

/-- Two comparisons in step. -/
structure Comparison.InStep (f : ShapeId -> ShapeId) (related : Registry -> Registry -> Prop)
    (c c' : Comparison) : Prop where
  registry : related c.registry c'.registry
  trail : c'.trail = c.trail.map (Prod.map f f)
  expansions : c'.expansions = c.expansions

namespace CompareM

section Relabel

variable {f : ShapeId -> ShapeId} {related : Registry -> Registry -> Prop}

/-!
# Cases that need no look inside

Identity of types is the same under other identifiers.
-/

theorem plainlyBelow_relabel (hf : Function.Injective f) (source target : FieldType) :
    plainlyBelow (source.relabel f) (target.relabel f) = plainlyBelow source target := by
  unfold plainlyBelow
  rw [FieldType.same_relabel hf]
  cases source <;> cases target <;> simp

@[simp] theorem plainlyBelowShape_relabel (source target : Shape) :
    plainlyBelowShape (source.relabel f) (target.relabel f) = plainlyBelowShape source target := by
  unfold plainlyBelowShape
  cases source <;> cases target <;> simp

/-!
# Comparisons that leave the terms at hand

References resolve in step, and pairs on the trail are compared by identity
only.
-/

theorem onRegistry_mirrors {α β : Type} {change : α -> β} {action : RegistryM α}
    {action' : RegistryM β} (h : MirrorsT (related) change action action') :
    Mirrors (Comparison.InStep f related) (Option.map change) (onRegistry action)
      (onRegistry action') := by
  intro c c' hc
  rcases hrun : action.run c.registry with ⟨result, r1⟩
  rcases hrun' : action'.run c'.registry with ⟨result', r1'⟩
  rcases h _ _ hc.registry with ⟨hresult, hstate⟩
  simp only [hrun, hrun'] at hresult hstate
  rw [run_onRegistry hrun, run_onRegistry hrun', hresult]
  refine ⟨?_, hstate, hc.trail, hc.expansions⟩
  cases result <;> rfl

variable {below below' : Shape -> Shape -> CompareM Bool}
  (hbelow : forall s t, Mirrors (Comparison.InStep f related) id (below s t)
    (below' (s.relabel f) (t.relabel f)))

include hbelow

theorem betweenShapes_mirrors {source target source' target' : RegistryM Shape}
    (hsource : MirrorsT (related) (Shape.relabel f) source source')
    (htarget : MirrorsT (related) (Shape.relabel f) target target') :
    Mirrors (Comparison.InStep f related) id (betweenShapes source target below)
      (betweenShapes source' target' below') := by
  apply (onRegistry_mirrors hsource).bind
  intro s
  apply (onRegistry_mirrors htarget).bind
  intro t
  cases s with
  | none => exact Mirrors.pure false
  | some s =>
      cases t with
      | none => exact Mirrors.pure false
      | some t => exact hbelow s t

theorem counted_mirrors (s t : Shape) :
    Mirrors (Comparison.InStep f related) id (counted (below s t))
      (counted (below' (s.relabel f) (t.relabel f))) := by
  intro c c' h
  rw [run_counted, run_counted]
  have hinside : Comparison.InStep f related { c with expansions := c.expansions + 1 }
      { c' with expansions := c'.expansions + 1 } :=
    ⟨h.registry, h.trail, by rw [h.expansions]⟩
  rcases hbelow s t _ _ hinside with ⟨hresult, hstate⟩
  exact ⟨hresult, hstate.registry, hstate.trail, congrArg (· - 1) hstate.expansions⟩

variable (hstep : Registry.InStep f related)

include hstep

theorem referencesBelow_mirrors (source target : ShapeId) :
    Mirrors (Comparison.InStep f related) id (referencesBelow below source target)
      (referencesBelow below' (f source) (f target)) := by
  by_cases heq : source = target
  · subst heq
    unfold referencesBelow
    rw [if_pos rfl, if_pos rfl]
    exact Mirrors.pure true
  · intro c c' h
    rw [run_referencesBelow heq, run_referencesBelow (hstep.injective.ne heq), h.trail]
    have hpairs := hstep.injective.prodMap hstep.injective
    have henter := Trail.enter_map hpairs c.trail (source, target)
    rw [Prod.map_apply] at henter
    rw [henter]
    rcases c.trail.enter (source, target) with ⟨entry, trail⟩
    have hinside : Comparison.InStep f related { c with trail }
        { c' with trail := trail.map (Prod.map f f) } :=
      ⟨h.registry, rfl, h.expansions⟩
    cases entry with
    | entered =>
        have hbetween := betweenShapes_mirrors hbelow (hstep.resolve source)
          (hstep.resolve target)
        rcases hbetween _ _ hinside with ⟨hresult, hstate⟩
        refine ⟨hresult, hstate.registry, ?_, hstate.expansions⟩
        have hleave := Trail.leave_map hpairs
        simp only [hstate.trail, ← hleave, Prod.map_apply]
    | cycle | tooDeep | tooManySteps => exact ⟨rfl, hinside⟩

theorem expandedBelow_mirrors (source target : FieldType) :
    Mirrors (Comparison.InStep f related) id (expandedBelow below source target)
      (expandedBelow below' (source.relabel f) (target.relabel f)) := by
  intro c c' h
  rw [run_expandedBelow, run_expandedBelow, h.expansions]
  split
  · exact ⟨rfl, h⟩
  · exact betweenShapes_mirrors (counted_mirrors hbelow) (hstep.resolveType source)
      (hstep.resolveType target) c c' h

/-!
# Types

The rules for types are in step as soon as the comparisons of references and
expansions are.
-/

theorem simpleBelow_mirrors (source target : FieldType) :
    Mirrors (Comparison.InStep f related) id (simpleBelow below source target)
      (simpleBelow below' (source.relabel f) (target.relabel f)) := by
  have hexpanded := expandedBelow_mirrors hbelow hstep source target
  cases source with
  | reference a =>
      cases target with
      | reference b => exact referencesBelow_mirrors hbelow hstep a b
      | keyword | union | intersection | literal => exact hexpanded
  | intersection members => exact hexpanded
  | literal value =>
      cases target with
      | keyword word => exact Mirrors.pure _
      | reference => exact hexpanded
      | union | intersection | literal => exact Mirrors.pure false
  | keyword | union =>
      cases target with
      | reference => exact hexpanded
      | keyword | union | intersection | literal => exact Mirrors.pure false

theorem memberBelow_mirrors (source target : FieldType) :
    Mirrors (Comparison.InStep f related) id (memberBelow below source target)
      (memberBelow below' (source.relabel f) (target.relabel f)) := by
  induction target using FieldType.memberInduction with
  | intersection members ih =>
      rw [FieldType.relabel_intersection, memberBelow, memberBelow,
        ← FieldType.relabel_intersection, plainlyBelow_relabel hstep.injective,
        memberBelowAll_eq_allM, memberBelowAll_eq_allM]
      split
      · exact Mirrors.pure true
      · exact Mirrors.allM ih
  | union members ih =>
      rw [FieldType.relabel_union, memberBelow, memberBelow, ← FieldType.relabel_union,
        plainlyBelow_relabel hstep.injective, memberBelowSome_eq_anyM, memberBelowSome_eq_anyM]
      split
      · exact Mirrors.pure true
      · apply (Mirrors.anyM ih).bind
        intro answer
        cases answer with
        | true => exact Mirrors.pure true
        | false => exact expandedBelow_mirrors hbelow hstep source (.union members)
  | keyword | reference | literal =>
      rw [memberBelow, memberBelow, plainlyBelow_relabel hstep.injective]
      · split
        · exact Mirrors.pure true
        · exact simpleBelow_mirrors hbelow hstep source _
      all_goals simp

theorem typeBelow_mirrors (target source : FieldType) :
    Mirrors (Comparison.InStep f related) id (typeBelow below target source)
      (typeBelow below' (target.relabel f) (source.relabel f)) := by
  induction source using FieldType.memberInduction with
  | union members ih =>
      rw [FieldType.relabel_union, typeBelow, typeBelow, ← FieldType.relabel_union,
        plainlyBelow_relabel hstep.injective, typesBelow_eq_allM, typesBelow_eq_allM]
      split
      · exact Mirrors.pure true
      · exact Mirrors.allM ih
  | keyword | reference | intersection | literal =>
      rw [typeBelow, typeBelow]
      · exact memberBelow_mirrors hbelow hstep _ target
      all_goals simp

/-!
# Shapes

So are the rules for shapes, whose fields are compared as types.
-/

theorem fieldBelow_mirrors (source : Table FieldType) (key : String) (target : FieldType) :
    Mirrors (Comparison.InStep f related) id (fieldBelow below source key target)
      (fieldBelow below' (source.map (FieldType.relabel f)) key (target.relabel f)) := by
  unfold fieldBelow
  rw [Table.get?_map, FieldType.admitsUndefined_relabel]
  cases source.get? key with
  | none => exact Mirrors.pure _
  | some t => exact typeBelow_mirrors hbelow hstep target t

theorem leafBelow_mirrors (source target : Shape) :
    Mirrors (Comparison.InStep f related) id (leafBelow below source target)
      (leafBelow below' (source.relabel f) (target.relabel f)) := by
  cases source with
  | object name fields =>
      cases target with
      | object other others =>
          rw [Shape.relabel_object, Shape.relabel_object, leafBelow, leafBelow,
            fieldsBelow_eq_allM, fieldsBelow_eq_allM]
          apply Mirrors.allM
          intro e _
          exact fieldBelow_mirrors hbelow hstep fields e.1 e.2
      | union | keyword | literal => exact Mirrors.pure false
  | union name members => cases target <;> exact Mirrors.pure false
  | keyword word => cases target <;> exact Mirrors.pure _
  | literal value => cases target <;> exact Mirrors.pure _

theorem branchBelow_mirrors (source target : Shape) :
    Mirrors (Comparison.InStep f related) id (branchBelow below source target)
      (branchBelow below' (source.relabel f) (target.relabel f)) := by
  induction target using Shape.memberInduction with
  | union name members ih =>
      rw [Shape.relabel_union, branchBelow, branchBelow, ← Shape.relabel_union,
        plainlyBelowShape_relabel, branchBelowSome_eq_anyM, branchBelowSome_eq_anyM]
      split
      · exact Mirrors.pure true
      · exact Mirrors.anyM ih
  | object | keyword | literal =>
      rw [branchBelow, branchBelow, plainlyBelowShape_relabel]
      · split
        · exact Mirrors.pure true
        · exact leafBelow_mirrors hbelow hstep source _
      all_goals simp

theorem shapeBelow_mirrors (target source : Shape) :
    Mirrors (Comparison.InStep f related) id (shapeBelow below target source)
      (shapeBelow below' (target.relabel f) (source.relabel f)) := by
  induction source using Shape.memberInduction with
  | union name members ih =>
      rw [Shape.relabel_union, shapeBelow, shapeBelow, ← Shape.relabel_union,
        plainlyBelowShape_relabel, shapesBelow_eq_allM, shapesBelow_eq_allM]
      split
      · exact Mirrors.pure true
      · exact Mirrors.allM ih
  | object | keyword | literal =>
      rw [shapeBelow, shapeBelow]
      · exact branchBelow_mirrors hbelow hstep _ target
      all_goals simp

/-!
# Whole comparisons

By induction on the number of frames that may be open.
-/

omit hbelow in
theorem compareShapes_mirrors (frames : Nat) (source target : Shape) :
    Mirrors (Comparison.InStep f related) id (compareShapes frames source target)
      (compareShapes frames (source.relabel f) (target.relabel f)) := by
  induction frames generalizing source target with
  | zero => exact Mirrors.pure false
  | succ frames ih => exact shapeBelow_mirrors ih hstep target source

omit hbelow in
theorem isBelow_mirrors (source target : FieldType) :
    Mirrors (Comparison.InStep f related) id (isBelow source target)
      (isBelow (source.relabel f) (target.relabel f)) :=
  typeBelow_mirrors (compareShapes_mirrors hstep maxFrames) hstep target source

end Relabel

end CompareM

theorem isNameBelow_mirrors {f : ShapeId -> ShapeId} {related : Registry -> Registry -> Prop}
    (hstep : InStep f related) (source target : ShapeId) :
    Mirrors related id (isNameBelow source target) (isNameBelow (f source) (f target)) := by
  intro r r' h
  have hstart : Comparison.InStep f related (CompareM.start r) (CompareM.start r') :=
    ⟨h, rfl, rfl⟩
  rcases CompareM.isBelow_mirrors hstep (.reference source) (.reference target) _ _ hstart with
    ⟨hresult, hstate⟩
  exact ⟨hresult, hstate.registry⟩

end Registry
end Shapes
