import Shapes.Proofs.FieldType.Identity
import Shapes.Proofs.Shape.Identity
import Shapes.Proofs.Subtype.Shows

/-!
# The rules of subtyping

What a comparison checks, said without limits and without the pairs that it
assumes.  A `Registry.Judgement` says that a type or a shape is below another one,
and `Registry.Rule` is what has to hold of other judgements for it, by the first
case that fits the two sides.  References are compared by the shapes that they
flatten to.

Recursive shapes lead from a judgement back to itself, so the judgements that hold
are those of the greatest set in which every judgement has its rule:
`Registry.Justified`.  `Registry.JustifiedFrom` is the same when some pairs of
references are taken for granted.

`CompareM.shows_isBelow_of_sound` says once what follows from an answer of a
comparison, for anything that the rules and the assumed pairs lead to.
-/

namespace Shapes
namespace Registry

open CompareM

/-- What a comparison may find out. -/
inductive Judgement where
  | types (source target : FieldType)
  | shapes (source target : Shape)

/-- A reference is below another one. -/
abbrev Judgement.references (source target : ShapeId) : Judgement :=
  .types (.reference source) (.reference target)

/-!
# Rules

A rule is monotone: the more judgements hold, the more rules do.  What the rules
say of references and expansions is said of the shapes that these stand for.
-/

section Rules

variable (r : Registry) (holds beyond : Judgement -> Prop)

/-- Both types expand to shapes, and the first one is below the second. -/
def Expanded (source target : FieldType) : Prop :=
  exists s t, r.TypeFlattens source s ∧ r.TypeFlattens target t ∧ beyond (.shapes s t)

/-- Two references are one, or stand for shapes of which the first is below the second. -/
def Referred (source target : ShapeId) : Prop :=
  source = target ∨
    exists s t, r.Flattens source s ∧ r.Flattens target t ∧ holds (.shapes s t)

/-- The rule for types of which neither is taken apart. -/
def SimpleRule (source target : FieldType) : Prop :=
  match source, target with
  | .literal value, .keyword word => value.widened = word
  | .reference s, .reference t => r.Referred holds s t
  | .reference _, _ | .intersection _, _ | _, .reference _ => r.Expanded beyond source target
  | _, _ => False

def TypeRule (source target : FieldType) : Prop :=
  plainlyBelow source target = true ∨
    match source, target with
    | .union members, _ => forall m, m ∈ members -> holds (.types m target)
    | _, .intersection members => forall m, m ∈ members -> holds (.types source m)
    | _, .union members =>
        (exists m, m ∈ members ∧ holds (.types source m)) ∨ r.Expanded beyond source target
    | _, _ => r.SimpleRule holds beyond source target

/-- A field is there with a type below, or may be missing. -/
def FieldRule (source : Table FieldType) (key : String) (target : FieldType) : Prop :=
  match source.get? key with
  | some t => holds (.types t target)
  | none => target.admitsUndefined = true

/-- The rule for shapes of which neither is taken apart. -/
def LeafRule (source target : Shape) : Prop :=
  match source, target with
  | .object _ source, .object _ target =>
      forall key t, (key, t) ∈ target.entries -> FieldRule holds source key t
  | .literal value, .keyword word => value.widened = word
  | .literal a, .literal b => a.same b = true
  | .keyword a, .keyword b => a = b
  | _, _ => False

def ShapeRule (source target : Shape) : Prop :=
  plainlyBelowShape source target = true ∨
    match source, target with
    | .union _ members, _ => forall m, m ∈ members -> holds (.shapes m target)
    | _, .union _ members => exists m, m ∈ members ∧ holds (.shapes source m)
    | _, _ => LeafRule holds source target

/--
What a judgement asks of others.  Shapes that types expand to are asked to be
among other judgements, which are the same ones for most purposes.
-/
def Rule : Judgement -> Prop
  | .types source target => r.TypeRule holds beyond source target
  | .shapes source target => ShapeRule holds source target

end Rules

section Mono

variable {r : Registry} {holds holds' beyond beyond' : Judgement -> Prop}
  (himp : forall j, holds j -> holds' j) (hbeyond : forall j, beyond j -> beyond' j)

include hbeyond in
theorem Expanded.imp {source target : FieldType} (h : r.Expanded beyond source target) :
    r.Expanded beyond' source target := by
  rcases h with ⟨s, t, hs, ht, hshapes⟩
  exact ⟨s, t, hs, ht, hbeyond _ hshapes⟩

include himp

theorem Referred.imp {source target : ShapeId} (h : r.Referred holds source target) :
    r.Referred holds' source target := by
  rcases h with heq | ⟨s, t, hs, ht, hholds⟩
  · exact Or.inl heq
  · exact Or.inr ⟨s, t, hs, ht, himp _ hholds⟩

include hbeyond in
theorem SimpleRule.imp {source target : FieldType} (h : r.SimpleRule holds beyond source target) :
    r.SimpleRule holds' beyond' source target := by
  unfold SimpleRule at h ⊢
  split at h
  · exact h
  · exact h.imp himp
  · exact h.imp hbeyond
  · exact h.imp hbeyond
  · exact h.imp hbeyond
  · cases h

include hbeyond in
theorem TypeRule.imp {source target : FieldType} (h : r.TypeRule holds beyond source target) :
    r.TypeRule holds' beyond' source target := by
  rcases h with hplain | h
  · exact Or.inl hplain
  · apply Or.inr
    split at h
    · intro m hm
      exact himp _ (h m hm)
    · intro m hm
      exact himp _ (h m hm)
    · rcases h with ⟨m, hm, hholds⟩ | hexpanded
      · exact Or.inl ⟨m, hm, himp _ hholds⟩
      · exact Or.inr (hexpanded.imp hbeyond)
    · exact h.imp himp hbeyond

theorem FieldRule.imp {source : Table FieldType} {key : String} {target : FieldType}
    (h : FieldRule holds source key target) : FieldRule holds' source key target := by
  unfold FieldRule at h ⊢
  split at h
  · exact himp _ h
  · exact h

theorem LeafRule.imp {source target : Shape} (h : LeafRule holds source target) :
    LeafRule holds' source target := by
  unfold LeafRule at h ⊢
  split at h
  · intro key t ht
    exact (h key t ht).imp himp
  · exact h
  · exact h
  · exact h
  · cases h

theorem ShapeRule.imp {source target : Shape} (h : ShapeRule holds source target) :
    ShapeRule holds' source target := by
  rcases h with hplain | h
  · exact Or.inl hplain
  · apply Or.inr
    split at h
    · intro m hm
      exact himp _ (h m hm)
    · rcases h with ⟨m, hm, hholds⟩
      exact ⟨m, hm, himp _ hholds⟩
    · exact h.imp himp

include hbeyond in
theorem Rule.imp {j : Judgement} (h : r.Rule holds beyond j) : r.Rule holds' beyond' j := by
  cases j with
  | types source target => exact TypeRule.imp himp hbeyond h
  | shapes source target => exact ShapeRule.imp himp h

end Mono

/-!
# Cases of the rules

The rule of a judgement is chosen by the first case that fits its two sides.
-/

theorem simple_cases (source target : FieldType) :
    (exists value word, source = .literal value ∧ target = .keyword word) ∨
      (exists a b, source = .reference a ∧ target = .reference b) ∨
      ((forall below, simpleBelow below source target = expandedBelow below source target) ∧
        forall r holds beyond,
          SimpleRule r holds beyond source target <-> Expanded r beyond source target) ∨
      ((forall below, simpleBelow below source target = pure false) ∧
        forall r holds beyond, ¬ SimpleRule r holds beyond source target) := by
  cases source <;> cases target <;> simp [simpleBelow, SimpleRule]

section Cases

variable {r : Registry} {holds beyond : Judgement -> Prop} {source : FieldType}
  (hsource : forall members, source ≠ .union members)

include hsource

theorem typeRule_intersection {members : List FieldType} :
    r.TypeRule holds beyond source (.intersection members) <->
      plainlyBelow source (.intersection members) = true ∨
        forall m, m ∈ members -> holds (.types source m) := by
  cases source with
  | union members => exact absurd rfl (hsource members)
  | keyword | reference | intersection | literal => exact Iff.rfl

theorem typeRule_union {members : List FieldType} :
    r.TypeRule holds beyond source (.union members) <->
      plainlyBelow source (.union members) = true ∨
        (exists m, m ∈ members ∧ holds (.types source m)) ∨
          r.Expanded beyond source (.union members) := by
  cases source with
  | union members => exact absurd rfl (hsource members)
  | keyword | reference | intersection | literal => exact Iff.rfl

theorem typeRule_simple {target : FieldType}
    (hunion : forall members, target ≠ .union members)
    (hintersection : forall members, target ≠ .intersection members) :
    r.TypeRule holds beyond source target <->
      plainlyBelow source target = true ∨ r.SimpleRule holds beyond source target := by
  cases source with
  | union members => exact absurd rfl (hsource members)
  | keyword | reference | intersection | literal =>
      cases target with
      | union members => exact absurd rfl (hunion members)
      | intersection members => exact absurd rfl (hintersection members)
      | keyword | reference | literal => exact Iff.rfl

end Cases

section ShapeCases

variable {holds : Judgement -> Prop} {source : Shape}
  (hsource : forall name members, source ≠ .union name members)

include hsource

theorem shapeRule_union {name : Option String} {members : List Shape} :
    ShapeRule holds source (.union name members) <->
      plainlyBelowShape source (.union name members) = true ∨
        exists m, m ∈ members ∧ holds (.shapes source m) := by
  cases source with
  | union name members => exact absurd rfl (hsource name members)
  | object | keyword | literal => exact Iff.rfl

theorem shapeRule_leaf {target : Shape}
    (hunion : forall name members, target ≠ .union name members) :
    ShapeRule holds source target <->
      plainlyBelowShape source target = true ∨ LeafRule holds source target := by
  cases source with
  | union name members => exact absurd rfl (hsource name members)
  | object | keyword | literal =>
      cases target with
      | union name members => exact absurd rfl (hunion name members)
      | object | keyword | literal => exact Iff.rfl

end ShapeCases

/-!
# Justified judgements

The greatest consistent set is the union of all of them.  A pair that is granted
can be discharged once its shapes are justified from it.
-/

/-- Every judgement that holds has its rule. -/
def Consistent (r : Registry) (holds : Judgement -> Prop) : Prop :=
  forall j, holds j -> r.Rule holds holds j

/-- A judgement of the greatest consistent set. -/
def Justified (r : Registry) (j : Judgement) : Prop :=
  exists holds, r.Consistent holds ∧ holds j

theorem Consistent.justified {r : Registry} {holds : Judgement -> Prop}
    (h : r.Consistent holds) {j : Judgement} (hj : holds j) : r.Justified j :=
  ⟨holds, h, hj⟩

/-- A judgement is one of a pair of references that is taken for granted. -/
def Granted (pairs : Pairs) (j : Judgement) : Prop :=
  exists source target, (source, target) ∈ pairs ∧ j = .references source target

/-- A judgement of the greatest set in which every judgement is granted or has its rule. -/
def JustifiedFrom (r : Registry) (j : Judgement) (pairs : Pairs) : Prop :=
  exists holds, (forall k, holds k -> r.Rule holds holds k ∨ Granted pairs k) ∧ holds j

/-- A judgement follows by its rule from those that are justified from granted pairs. -/
abbrev RuleFrom (r : Registry) (shown : Judgement -> Pairs -> Prop) (pairs : Pairs) :
    Judgement -> Prop :=
  r.Rule (fun k => shown k pairs) fun k => shown k pairs

namespace JustifiedFrom

variable {r : Registry} {j : Judgement} {pairs : Pairs}

theorem cases (h : r.JustifiedFrom j pairs) :
    r.RuleFrom r.JustifiedFrom pairs j ∨ Granted pairs j := by
  rcases h with ⟨holds, hall, hj⟩
  have himp : forall k, holds k -> r.JustifiedFrom k pairs := fun k hk => ⟨holds, hall, hk⟩
  rcases hall j hj with hrule | hgranted
  · exact Or.inl (hrule.imp himp himp)
  · exact Or.inr hgranted

theorem of_granted (h : Granted pairs j) : r.JustifiedFrom j pairs := by
  refine ⟨Granted pairs, ?_, h⟩
  intro k hk
  exact Or.inr hk

theorem of_rule (h : r.RuleFrom r.JustifiedFrom pairs j) : r.JustifiedFrom j pairs := by
  refine ⟨fun k => k = j ∨ r.JustifiedFrom k pairs, ?_, Or.inl rfl⟩
  intro k hk
  rcases hk with rfl | hk
  · exact Or.inl (h.imp (fun _ => Or.inr) fun _ => Or.inr)
  · exact hk.cases.imp_left fun hrule => hrule.imp (fun _ => Or.inr) fun _ => Or.inr

theorem of_entered {source target : ShapeId} {s t : Shape} (hs : r.Flattens source s)
    (ht : r.Flattens target t) (h : r.JustifiedFrom (.shapes s t) ((source, target) :: pairs)) :
    r.JustifiedFrom (.references source target) pairs := by
  let holds : Judgement -> Prop := fun k =>
    k = .references source target ∨ r.JustifiedFrom k ((source, target) :: pairs)
  have hpair : r.Rule holds holds (.references source target) :=
    Or.inr (Or.inr ⟨s, t, hs, ht, Or.inr h⟩)
  refine ⟨holds, ?_, Or.inl rfl⟩
  intro k hk
  rcases hk with rfl | hk
  · exact Or.inl hpair
  · rcases hk.cases with hrule | ⟨a, b, hab, rfl⟩
    · exact Or.inl (hrule.imp (fun _ => Or.inr) fun _ => Or.inr)
    · rcases List.mem_cons.mp hab with heq | hab
      · cases heq
        exact Or.inl hpair
      · exact Or.inr ⟨a, b, hab, rfl⟩

theorem justified (h : r.JustifiedFrom j []) : r.Justified j := by
  rcases h with ⟨holds, hall, hj⟩
  refine ⟨holds, ?_, hj⟩
  intro k hk
  rcases hall k hk with hrule | ⟨_, _, hmem, _⟩
  · exact hrule
  · cases hmem

end JustifiedFrom

/-!
# From answers to rules

What an answer shows is stated for anything that judgements lead to when they
have their rules or are granted; justification is one such thing.
-/

/-- Something that judgements show when they have their rules or are assumed. -/
structure Sound (r : Registry) (shown : Judgement -> Pairs -> Prop) : Prop where
  rule : forall {j pairs}, r.RuleFrom shown pairs j -> shown j pairs
  assumed : forall {source target pairs}, (source, target) ∈ pairs ->
    shown (.references source target) pairs
  entered : forall {source target s t pairs}, r.Flattens source s -> r.Flattens target t ->
    shown (.shapes s t) ((source, target) :: pairs) -> shown (.references source target) pairs

namespace Sound

variable {r : Registry} {shown : Judgement -> Pairs -> Prop} (hsound : r.Sound shown)
  {pairs : Pairs}

include hsound

theorem types {source target : FieldType}
    (h : r.TypeRule (fun k => shown k pairs) (fun k => shown k pairs) source target) :
    shown (.types source target) pairs :=
  hsound.rule h

theorem shapes {source target : Shape} (h : ShapeRule (fun k => shown k pairs) source target) :
    shown (.shapes source target) pairs :=
  hsound.rule h

theorem plain {source target : FieldType} (h : plainlyBelow source target = true)
    (pairs : Pairs) : shown (.types source target) pairs :=
  hsound.types (Or.inl h)

theorem plainShape {source target : Shape} (h : plainlyBelowShape source target = true)
    (pairs : Pairs) : shown (.shapes source target) pairs :=
  hsound.shapes (Or.inl h)

end Sound

theorem sound_justifiedFrom (r : Registry) : r.Sound r.JustifiedFrom := by
  refine ⟨.of_rule, ?_, .of_entered⟩
  intro source target pairs hmem
  exact .of_granted ⟨source, target, hmem, rfl⟩

namespace CompareM

variable {r : Registry} {shown : Judgement -> Pairs -> Prop} (hsound : r.Sound shown)
  {below : Shape -> Shape -> CompareM Bool}
  (hbelow : forall s t, Shows r (below s t) (shown (.shapes s t)))

include hsound hbelow

/-!
# Types

A comparison of types goes through the cases of its rule in order.
-/

omit hsound in
theorem shows_expanded_rule (source target : FieldType) :
    Shows r (expandedBelow below source target)
      fun pairs => r.Expanded (fun k => shown k pairs) source target :=
  shows_expandedBelow hbelow source target

theorem shows_simple_rule {source target : FieldType}
    (hrule : forall holds, r.SimpleRule holds holds source target ->
      r.TypeRule holds holds source target) :
    Shows r (simpleBelow below source target) (shown (.types source target)) := by
  have hsimple : forall {pairs},
      r.SimpleRule (fun k => shown k pairs) (fun k => shown k pairs) source target ->
        shown (.types source target) pairs := by
    intro pairs h
    exact hsound.types (hrule _ h)
  rcases simple_cases source target with ⟨value, word, rfl, rfl⟩ | ⟨a, b, rfl, rfl⟩ |
    ⟨hrun, hexpands⟩ | ⟨hrun, _⟩
  · apply Shows.pure
    intro hword pairs
    exact hsimple (show value.widened = word from of_decide_eq_true hword)
  · apply (shows_referencesBelow hbelow a b).imp
    intro pairs hcases
    rcases hcases with heq | hpair | ⟨s, t, hs, ht, hshown⟩
    · exact hsimple (Or.inl heq)
    · exact hsound.assumed hpair
    · exact hsound.entered hs ht hshown
  · rw [hrun]
    apply (shows_expanded_rule hbelow source target).imp
    intro pairs hexpanded
    exact hsimple ((hexpands r _ _).mpr hexpanded)
  · rw [hrun]
    apply Shows.pure
    intro hfalse
    cases hfalse

theorem shows_member_rule {source : FieldType} (hsource : forall members, source ≠ .union members)
    (target : FieldType) :
    Shows r (memberBelow below source target) (shown (.types source target)) := by
  induction target using FieldType.memberInduction with
  | intersection members ih =>
      rw [memberBelow]
      apply Shows.ite hsound.plain
      rw [memberBelowAll_eq_allM]
      apply (Shows.allM ih).imp
      intro pairs hall
      exact hsound.types ((typeRule_intersection hsource).mpr (Or.inr hall))
  | union members ih =>
      rw [memberBelow]
      apply Shows.ite hsound.plain
      rw [memberBelowSome_eq_anyM]
      apply ((Shows.anyM ih).either (shows_expanded_rule hbelow source (.union members))).imp
      intro pairs hcases
      exact hsound.types ((typeRule_union hsource).mpr (Or.inr hcases))
  | keyword | reference | literal =>
      rw [memberBelow]
      · apply Shows.ite hsound.plain
        apply shows_simple_rule hsound hbelow
        intro holds hsimple
        exact (typeRule_simple hsource (by simp) (by simp)).mpr (Or.inr hsimple)
      · intro members hmembers
        cases hmembers
      · intro members hmembers
        cases hmembers

theorem shows_type_rule (target source : FieldType) :
    Shows r (typeBelow below target source) (shown (.types source target)) := by
  induction source using FieldType.memberInduction with
  | union members ih =>
      rw [typeBelow]
      apply Shows.ite hsound.plain
      rw [typesBelow_eq_allM]
      apply (Shows.allM ih).imp
      intro pairs hall
      exact hsound.types (Or.inr hall)
  | keyword | reference | intersection | literal =>
      rw [typeBelow]
      · apply shows_member_rule hsound hbelow
        intro members hmembers
        cases hmembers
      · intro members hmembers
        cases hmembers

/-!
# Shapes

Shapes are compared by branches, and objects field by field.
-/

theorem shows_field_rule (source : Table FieldType) (key : String) (target : FieldType) :
    Shows r (fieldBelow below source key target)
      fun pairs => FieldRule (fun k => shown k pairs) source key target := by
  unfold fieldBelow FieldRule
  cases source.get? key with
  | some t => exact shows_type_rule hsound hbelow target t
  | none =>
      apply Shows.pure
      intro hadmits pairs
      exact hadmits

theorem shows_fields_rule (source target : Table FieldType) :
    Shows r (fieldsBelow below source target.entries) fun pairs =>
      forall key t, (key, t) ∈ target.entries ->
        FieldRule (fun k => shown k pairs) source key t := by
  rw [fieldsBelow_eq_allM]
  apply (Shows.allM fun e _ => shows_field_rule hsound hbelow source e.1 e.2).imp
  intro pairs hall key t ht
  exact hall (key, t) ht

theorem shows_leaf_rule (source target : Shape) :
    Shows r (leafBelow below source target)
      fun pairs => LeafRule (fun k => shown k pairs) source target := by
  unfold leafBelow
  split
  · exact shows_fields_rule hsound hbelow _ _
  · rename_i value word
    apply Shows.pure
    intro hword pairs
    exact (of_decide_eq_true hword : value.widened = word)
  · apply Shows.pure
    intro hsame pairs
    exact hsame
  · rename_i a b
    apply Shows.pure
    intro hword pairs
    exact (of_decide_eq_true hword : a = b)
  · apply Shows.pure
    intro hfalse
    cases hfalse

theorem shows_branch_rule {source : Shape}
    (hsource : forall name members, source ≠ .union name members) (target : Shape) :
    Shows r (branchBelow below source target) (shown (.shapes source target)) := by
  induction target using Shape.memberInduction with
  | union name members ih =>
      rw [branchBelow]
      apply Shows.ite hsound.plainShape
      rw [branchBelowSome_eq_anyM]
      apply (Shows.anyM ih).imp
      intro pairs hsome
      exact hsound.shapes ((shapeRule_union hsource).mpr (Or.inr hsome))
  | object | keyword | literal =>
      rw [branchBelow]
      · apply Shows.ite hsound.plainShape
        apply (shows_leaf_rule hsound hbelow _ _).imp
        intro pairs hleaf
        exact hsound.shapes ((shapeRule_leaf hsource (by simp)).mpr (Or.inr hleaf))
      · intro name members hunion
        cases hunion

theorem shows_shape_rule (target source : Shape) :
    Shows r (shapeBelow below target source) (shown (.shapes source target)) := by
  induction source using Shape.memberInduction with
  | union name members ih =>
      rw [shapeBelow]
      apply Shows.ite hsound.plainShape
      rw [shapesBelow_eq_allM]
      apply (Shows.allM ih).imp
      intro pairs hall
      exact hsound.shapes (Or.inr hall)
  | object | keyword | literal =>
      rw [shapeBelow]
      · apply shows_branch_rule hsound hbelow
        intro name members hunion
        cases hunion
      · intro name members hunion
        cases hunion

/-!
# Whole comparisons

By induction on the number of frames, a positive answer shows what the judgement
leads to.
-/

omit hbelow in
theorem shows_compareShapes_of_sound (frames : Nat) (source target : Shape) :
    Shows r (compareShapes frames source target) (shown (.shapes source target)) := by
  induction frames generalizing source target with
  | zero =>
      apply Shows.pure
      intro hfalse
      cases hfalse
  | succ frames ih => exact shows_shape_rule hsound ih target source

omit hbelow in
theorem shows_isBelow_of_sound (source target : FieldType) :
    Shows r (isBelow source target) (shown (.types source target)) :=
  shows_type_rule hsound (shows_compareShapes_of_sound hsound maxFrames) target source

end CompareM
end Registry
end Shapes
