import Shapes.Proofs.Subtype.Rules

/-!
# Two comparisons side by side

Two comparisons of the same terms start from related states and go through the same
rules.  `CompareM.Follows` says that they end in related states with the same answer,
unless the first one has spent what it had: then it answers no where the second may
still answer yes, and from there on each of them goes its own way.

The rules only combine answers by "all of them" and "one of them", so the first never
answers yes where the second answers no.  What has to be shown of a pair of
comparisons is what happens where they leave the terms at hand: at a pair of
references and at an expansion.
-/

namespace Shapes
namespace Registry
namespace CompareM

/-- The first of two comparisons answers as the second does until it is spent. -/
structure Follows (related : Comparison -> Comparison -> Prop) (spent : Comparison -> Prop)
    (first second : CompareM Bool) : Prop where
  together : forall {c d}, related c d ->
    related (first.run c).2 (second.run d).2 ∧
      ((first.run c).1 = (second.run d).1 ∨ (first.run c).1 = false ∧ spent (first.run c).2)
  /-- The first one may go on alone once it is spent. -/
  behind : forall {c d}, spent c -> related c d ->
    related (first.run c).2 d ∧ spent (first.run c).2
  /-- The second one may go on alone once the first is spent. -/
  ahead : forall {c d}, spent c -> related c d -> related c (second.run d).2

variable {related : Comparison -> Comparison -> Prop} {spent : Comparison -> Prop}

theorem follows_pure (answer : Bool) : Follows related spent (pure answer) (pure answer) :=
  ⟨fun h => ⟨h, Or.inl rfl⟩, fun hspent h => ⟨h, hspent⟩, fun _ h => h⟩

namespace Follows

variable {first first' second second' : CompareM Bool}

theorem ite (condition : Bool) (h : Follows related spent second second') :
    Follows related spent (if condition then pure true else second)
      (if condition then pure true else second') := by
  cases condition with
  | true => exact follows_pure true
  | false => exact h

theorem both (hfirst : Follows related spent first first')
    (hsecond : Follows related spent second second') :
    Follows related spent
      (first >>= fun answer => if answer then second else pure false)
      (first' >>= fun answer => if answer then second' else pure false) := by
  constructor
  · intro c d h
    rw [run_stateBind, run_stateBind]
    have hstep := hfirst.together h
    generalize first.run c = out at hstep ⊢
    generalize first'.run d = out' at hstep ⊢
    rcases out with ⟨a, c1⟩
    rcases out' with ⟨b, d1⟩
    rcases hstep with ⟨hrelated, hsame | ⟨hno, hspent⟩⟩
    · cases hsame
      cases a with
      | true => exact hsecond.together hrelated
      | false => exact ⟨hrelated, Or.inl rfl⟩
    · cases hno
      cases b with
      | true => exact ⟨hsecond.ahead hspent hrelated, Or.inr ⟨rfl, hspent⟩⟩
      | false => exact ⟨hrelated, Or.inl rfl⟩
  · intro c d hspent h
    rw [run_stateBind]
    have hstep := hfirst.behind hspent h
    cases (first.run c).1 with
    | true => exact hsecond.behind hstep.2 hstep.1
    | false => exact hstep
  · intro c d hspent h
    rw [run_stateBind]
    have hstep := hfirst.ahead hspent h
    cases (first'.run d).1 with
    | true => exact hsecond.ahead hspent hstep
    | false => exact hstep

theorem either (hfirst : Follows related spent first first')
    (hsecond : Follows related spent second second') :
    Follows related spent
      (first >>= fun answer => if answer then pure true else second)
      (first' >>= fun answer => if answer then pure true else second') := by
  constructor
  · intro c d h
    rw [run_stateBind, run_stateBind]
    have hstep := hfirst.together h
    generalize first.run c = out at hstep ⊢
    generalize first'.run d = out' at hstep ⊢
    rcases out with ⟨a, c1⟩
    rcases out' with ⟨b, d1⟩
    rcases hstep with ⟨hrelated, hsame | ⟨hno, hspent⟩⟩
    · cases hsame
      cases a with
      | true => exact ⟨hrelated, Or.inl rfl⟩
      | false => exact hsecond.together hrelated
    · cases hno
      cases b with
      | true =>
          -- The second one has its answer; the first looks for another one alone.
          have hrest := hsecond.behind hspent hrelated
          refine ⟨hrest.1, ?_⟩
          cases hanswer : (second.run c1).1 with
          | true => exact Or.inl hanswer
          | false => exact Or.inr ⟨hanswer, hrest.2⟩
      | false => exact hsecond.together hrelated
  · intro c d hspent h
    rw [run_stateBind]
    have hstep := hfirst.behind hspent h
    cases (first.run c).1 with
    | true => exact hstep
    | false => exact hsecond.behind hstep.2 hstep.1
  · intro c d hspent h
    rw [run_stateBind]
    have hstep := hfirst.ahead hspent h
    cases (first'.run d).1 with
    | true => exact hstep
    | false => exact hsecond.ahead hspent hstep

section Lists

variable {α : Type} {list : List α} {check check' : α -> CompareM Bool}
  (h : forall a, a ∈ list -> Follows related spent (check a) (check' a))

include h

theorem allM : Follows related spent (list.allM check) (list.allM check') := by
  induction list with
  | nil => exact follows_pure true
  | cons a rest ih =>
      rw [List.forall_mem_cons] at h
      rw [List.allM_cons, List.allM_cons]
      exact h.1.both (ih h.2)

theorem anyM : Follows related spent (list.anyM check) (list.anyM check') := by
  induction list with
  | nil => exact follows_pure false
  | cons a rest ih =>
      rw [List.forall_mem_cons] at h
      rw [List.anyM_cons, List.anyM_cons]
      exact h.1.either (ih h.2)

end Lists

end Follows

/-!
# Rules

Every rule combines what it asks for, so comparisons follow each other through a
rule once they do so wherever the rule leaves the terms at hand.
-/

/-- Comparisons that follow each other wherever they leave the terms at hand. -/
structure FollowsBeyond (related : Comparison -> Comparison -> Prop)
    (spent : Comparison -> Prop) (below below' : Shape -> Shape -> CompareM Bool) : Prop where
  references : forall source target,
    Follows related spent (referencesBelow below source target)
      (referencesBelow below' source target)
  expanded : forall source target,
    Follows related spent (expandedBelow below source target)
      (expandedBelow below' source target)

section Rules

variable {below below' : Shape -> Shape -> CompareM Bool}
  (hbeyond : FollowsBeyond related spent below below')

include hbeyond

theorem follows_simpleBelow (source target : FieldType) :
    Follows related spent (simpleBelow below source target)
      (simpleBelow below' source target) := by
  rcases simple_cases source target with ⟨value, word, rfl, rfl⟩ | ⟨a, b, rfl, rfl⟩ |
    ⟨hrun, _⟩ | ⟨hrun, _⟩
  · exact follows_pure _
  · exact hbeyond.references a b
  · rw [hrun, hrun]
    exact hbeyond.expanded source target
  · rw [hrun, hrun]
    exact follows_pure false

theorem follows_memberBelow (source target : FieldType) :
    Follows related spent (memberBelow below source target)
      (memberBelow below' source target) := by
  induction target using FieldType.memberInduction with
  | intersection members ih =>
      rw [memberBelow, memberBelow, memberBelowAll_eq_allM, memberBelowAll_eq_allM]
      exact .ite _ (.allM ih)
  | union members ih =>
      rw [memberBelow, memberBelow, memberBelowSome_eq_anyM, memberBelowSome_eq_anyM]
      exact .ite _ (.either (.anyM ih) (hbeyond.expanded source _))
  | keyword | reference | literal =>
      simp only [memberBelow]
      exact .ite _ (follows_simpleBelow hbeyond source _)

theorem follows_typeBelow (target source : FieldType) :
    Follows related spent (typeBelow below target source) (typeBelow below' target source) := by
  induction source using FieldType.memberInduction with
  | union members ih =>
      rw [typeBelow, typeBelow, typesBelow_eq_allM, typesBelow_eq_allM]
      exact .ite _ (.allM ih)
  | keyword | reference | intersection | literal =>
      simp only [typeBelow]
      exact follows_memberBelow hbeyond _ target

theorem follows_fieldBelow (source : Table FieldType) (key : String) (target : FieldType) :
    Follows related spent (fieldBelow below source key target)
      (fieldBelow below' source key target) := by
  unfold fieldBelow
  cases source.get? key with
  | some t => exact follows_typeBelow hbeyond target t
  | none => exact follows_pure _

theorem follows_leafBelow (source target : Shape) :
    Follows related spent (leafBelow below source target) (leafBelow below' source target) := by
  unfold leafBelow
  split
  · rw [fieldsBelow_eq_allM, fieldsBelow_eq_allM]
    exact .allM fun e _ => follows_fieldBelow hbeyond _ e.1 e.2
  · exact follows_pure _
  · exact follows_pure _
  · exact follows_pure _
  · exact follows_pure false

theorem follows_branchBelow (source target : Shape) :
    Follows related spent (branchBelow below source target)
      (branchBelow below' source target) := by
  induction target using Shape.memberInduction with
  | union name members ih =>
      rw [branchBelow, branchBelow, branchBelowSome_eq_anyM, branchBelowSome_eq_anyM]
      exact .ite _ (.anyM ih)
  | object | keyword | literal =>
      simp only [branchBelow]
      exact .ite _ (follows_leafBelow hbeyond source _)

theorem follows_shapeBelow (target source : Shape) :
    Follows related spent (shapeBelow below target source)
      (shapeBelow below' target source) := by
  induction source using Shape.memberInduction with
  | union name members ih =>
      rw [shapeBelow, shapeBelow, shapesBelow_eq_allM, shapesBelow_eq_allM]
      exact .ite _ (.allM ih)
  | object | keyword | literal =>
      simp only [shapeBelow]
      exact follows_branchBelow hbeyond _ target

end Rules

end CompareM
end Registry
end Shapes
