import Shapes.Proofs.Shape.Branches
import Shapes.Proofs.Subtype.Shows

/-!
# Shapes with the same branches

A shape is below another one when each of its branches is identical to a branch of
the other.  Identical types are never taken apart, so no reference is looked at, and
the answer does not depend on the registry or on what is left of the limits.

Identical shapes have the same branches, and a union has the branches of its members.
-/

namespace Shapes
namespace Registry
namespace CompareM

/-!
# Comparisons that always answer yes

One such comparison is enough among alternatives, whatever those before it come
to.
-/

/-- A comparison that answers yes in every state. -/
def Affirms (compare : CompareM Bool) : Prop :=
  forall c, (compare.run c).1 = true

theorem affirms_pure : Affirms (pure true) :=
  fun _ => rfl

theorem Affirms.ite {condition : Bool} {compare : CompareM Bool}
    (h : condition = false -> Affirms compare) :
    Affirms (if condition then pure true else compare) := by
  cases condition with
  | true => exact affirms_pure
  | false => exact h rfl

section Lists

variable {α : Type} {list : List α} {check : α -> CompareM Bool}

theorem affirms_allM (h : forall a, a ∈ list -> Affirms (check a)) :
    Affirms (list.allM check) := by
  induction list with
  | nil => exact affirms_pure
  | cons a rest ih =>
      rw [List.forall_mem_cons] at h
      intro c
      rw [List.allM_cons, run_stateBind, h.1 c]
      exact ih h.2 _

theorem affirms_anyM {a : α} (ha : a ∈ list) (h : Affirms (check a)) :
    Affirms (list.anyM check) := by
  induction list with
  | nil => cases ha
  | cons b rest ih =>
      intro c
      rw [List.anyM_cons, run_stateBind]
      cases hfirst : ((check b).run c).1 with
      | true => rfl
      | false =>
          cases List.mem_cons.mp ha with
          | inl hhead =>
              rw [← hhead, h c] at hfirst
              cases hfirst
          | inr htail => exact ih htail _

end Lists

/-!
# Identical types and branches

Identical terms are compared without a look inside.
-/

section Branches

variable (below : Shape -> Shape -> CompareM Bool)

theorem affirms_typeBelow {source target : FieldType} (h : source.same target = true) :
    Affirms (typeBelow below target source) := by
  have hplain : plainlyBelow source target = true := by
    simp [plainlyBelow, h]
  cases source with
  | union members =>
      rw [typeBelow, hplain]
      exact affirms_pure
  | keyword | reference | intersection | literal =>
      rw [typeBelow]
      · cases target <;> simp only [memberBelow, hplain] <;> exact affirms_pure
      · intro members hmembers
        cases hmembers

theorem affirms_fieldsBelow {source target : Table FieldType}
    (h : forall key u, (key, u) ∈ target.entries ->
      exists t, (key, t) ∈ source.entries ∧ t.same u = true) :
    Affirms (fieldsBelow below source target.entries) := by
  rw [fieldsBelow_eq_allM]
  apply affirms_allM
  intro e he
  rcases h e.1 e.2 he with ⟨t, ht, hsame⟩
  rw [fieldBelow, Table.get?_eq_some_iff_mem.mpr ht]
  exact affirms_typeBelow below hsame

theorem affirms_leafBelow {source target : Shape} (hsource : source.Single)
    (h : source.same target = true) : Affirms (leafBelow below source target) := by
  cases source with
  | union name members => exact absurd rfl (hsource name members)
  | object name fields =>
      cases target with
      | object other others =>
          exact affirms_fieldsBelow below (Shape.sameFields_cases h).2
      | union | keyword | literal => cases h
  | keyword word =>
      cases target with
      | keyword other =>
          rw [leafBelow, show decide (word = other) = true from h]
          exact affirms_pure
      | object | union | literal => cases h
  | literal value =>
      cases target with
      | literal other =>
          rw [leafBelow, show value.same other = true from h]
          exact affirms_pure
      | object | union | keyword => cases h

theorem affirms_branchBelow {source target : Shape} (hsource : source.Single) {y : Shape}
    (hy : y ∈ target.branches) (h : source.same y = true) :
    Affirms (branchBelow below source target) := by
  induction target using Shape.memberInduction with
  | union name members ih =>
      rcases Shape.mem_branches_union.mp hy with ⟨m, hm, hym⟩
      rw [branchBelow, branchBelowSome_eq_anyM]
      exact Affirms.ite fun _ => affirms_anyM hm (ih m hm hym)
  | object | keyword | literal =>
      rw [Shape.branches, List.mem_singleton] at hy
      · rw [hy] at h
        rw [branchBelow]
        · exact Affirms.ite fun _ => affirms_leafBelow below hsource h
        · intro name members hunion
          cases hunion
      · intro name members hunion
        cases hunion

theorem affirms_shapeBelow {source target : Shape}
    (h : forall x, x ∈ source.branches -> exists y, y ∈ target.branches ∧ x.same y = true) :
    Affirms (shapeBelow below target source) := by
  induction source using Shape.memberInduction with
  | union name members ih =>
      rw [shapeBelow, shapesBelow_eq_allM]
      apply Affirms.ite
      intro _
      apply affirms_allM
      intro m hm
      apply ih m hm
      intro x hx
      exact h x (Shape.mem_branches_union.mpr ⟨m, hm, hx⟩)
  | object | keyword | literal =>
      rcases h _ (List.mem_singleton_self _) with ⟨y, hy, hsame⟩
      rw [shapeBelow]
      · apply affirms_branchBelow below _ hy hsame
        intro name members hunion
        cases hunion
      · intro name members hunion
        cases hunion

end Branches

theorem affirms_isShapeBelow_of_same {s t : Shape} (h : s.same t = true) :
    Affirms (isShapeBelow s t) := by
  apply affirms_shapeBelow
  intro x hx
  rcases Shape.exists_same_branch (Shape.same_symm h) hx with ⟨y, hy, hsame⟩
  exact ⟨y, hy, Shape.same_symm hsame⟩

theorem affirms_isShapeBelow_of_unite {members : List Shape} {u : Shape}
    (h : Shape.unite members = .ok u) {m : Shape} (hm : m ∈ members) :
    Affirms (isShapeBelow m u) := by
  apply affirms_shapeBelow
  intro x hx
  exact Shape.exists_branch_unite h hm hx

/-!
# Identity and unions

Both laws come from branches: identical shapes have the same ones, and the
branches of a member are among those of the union.
-/

/--
Identical shapes are below each other, and the members of a union are below it, in
every state of a comparison: over any registry, with whatever is left of the limits.
-/
theorem identity_and_union_go_below (c : Comparison) :
    (forall s t, s.same t = true ->
        ((isShapeBelow s t).run c).1 = true ∧ ((isShapeBelow t s).run c).1 = true) ∧
      forall members u, Shape.unite members = .ok u ->
        forall m, m ∈ members -> ((isShapeBelow m u).run c).1 = true := by
  constructor
  · intro s t h
    exact ⟨affirms_isShapeBelow_of_same h c, affirms_isShapeBelow_of_same (Shape.same_symm h) c⟩
  · intro members u h m hm
    exact affirms_isShapeBelow_of_unite h hm c

def spent : Comparison :=
  { start (empty .common) with
    trail := { Trail.start Limits.comparison with steps := Limits.comparison.maxSteps } }

def place : Shape :=
  .object none ⟨[("at", .reference ⟨1⟩)], by simp⟩

def nested : Shape :=
  .union (some "Nested") [.union none [place, .keyword .null], .union none []]

def reordered : Shape :=
  .union none [.union none [], .union none [], .union none [.keyword .null, place, place]]

theorem identity_and_union_go_below_nested :
    nested.same reordered = true ∧
      ((isShapeBelow nested reordered).run spent).1 = true ∧
      ((isShapeBelow reordered nested).run spent).1 = true ∧
      (Shape.unite [nested, .keyword .string]).isOk = true ∧
      forall u, Shape.unite [nested, .keyword .string] = .ok u ->
        ((isShapeBelow nested u).run spent).1 = true := by
  have hsame : nested.same reordered = true := by
    decide +kernel
  have hspent := identity_and_union_go_below spent
  refine ⟨hsame, (hspent.1 _ _ hsame).1, (hspent.1 _ _ hsame).2, by decide +kernel, ?_⟩
  intro u hu
  exact hspent.2 _ u hu nested List.mem_cons_self

end CompareM
end Registry
end Shapes
