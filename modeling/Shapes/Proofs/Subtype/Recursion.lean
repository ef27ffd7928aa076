import Shapes.Proofs.Subtype.Completeness
import Shapes.Proofs.Subtype.Following

/-!
# Comparisons without a bound

A comparison has so many frames to open: a pair of references goes on the trail, or two
types count as an expansion, and the shapes that they stand for are compared inside.
`Comparison.room` is how many more of them the limits let in, and a comparison with more
frames than that answers the same.

`CompareM.judgeBy` is one step of the recursion with no bound on its frames.  Comparisons
of types and of shapes take this step wherever they are asked, however many frames are
open.
-/

namespace Shapes
namespace Registry

/-- How many more frames a comparison may open. -/
def Comparison.room (c : Comparison) : Nat :=
  (c.trail.limits.maxDepth - c.trail.depth) + (Limits.comparison.maxDepth - c.expansions)

namespace CompareM

theorem Advances.room {c c' : Comparison} (h : Advances c c') : c'.room = c.room := by
  unfold Comparison.room
  rw [h.limits, h.depth, h.expansions]

/-!
# Frames

Opening a frame takes away from the room that is left, and no limit gives any of
it back.
-/

inductive Frame where
  | references (source target : ShapeId)
  | expansion (source target : FieldType)

def Frame.isExpansion : Frame -> Bool
  | references _ _ => false
  | expansion _ _ => true

/-- A frame is opened, and two shapes are found that are to be compared inside. -/
inductive Opens (c : Comparison) : Frame -> Comparison -> Shape -> Shape -> Prop where
  | references {source target : ShapeId} {trail : Trail (ShapeId × ShapeId)} {s t : Shape}
      {r1 r2 : Registry} (hne : source ≠ target)
      (henter : c.trail.enter (source, target) = (.entered, trail))
      (hs : (resolve source).run c.registry = (.ok s, r1))
      (ht : (resolve target).run r1 = (.ok t, r2)) :
      Opens c (.references source target) ⟨r2, trail, c.expansions⟩ s t
  | expansion {source target : FieldType} {s t : Shape} {r1 r2 : Registry}
      (hfew : c.expansions < Limits.comparison.maxDepth)
      (hs : (resolveType source).run c.registry = (.ok s, r1))
      (ht : (resolveType target).run r1 = (.ok t, r2)) :
      Opens c (.expansion source target) ⟨r2, c.trail, c.expansions + 1⟩ s t

theorem Opens.room {c c' : Comparison} {frame : Frame} {s t : Shape}
    (h : Opens c frame c' s t) : c'.room < c.room := by
  cases h with
  | references hne henter hs ht =>
      rcases Trail.enter_entered henter with ⟨hlimits, _, _, hdeep, _, hdepth⟩
      simp only [Comparison.room, hlimits, hdepth]
      omega
  | expansion hfew hs ht =>
      simp only [Comparison.room]
      omega

theorem Opens.limits {c c' : Comparison} {frame : Frame} {s t : Shape}
    (h : Opens c frame c' s t) : c'.trail.limits = c.trail.limits := by
  cases h with
  | references hne henter hs ht => exact (Trail.enter_entered henter).1
  | expansion hfew hs ht => rfl

section Agreement

variable {below below' : Shape -> Shape -> CompareM Bool} {c : Comparison}

theorem betweenShapes_congr {source target : RegistryM Shape}
    (h : forall s t r1 r2, source.run c.registry = (.ok s, r1) ->
      target.run r1 = (.ok t, r2) ->
      (below s t).run { c with registry := r2 } = (below' s t).run { c with registry := r2 }) :
    (betweenShapes source target below).run c = (betweenShapes source target below').run c := by
  rw [run_betweenShapes_eq, run_betweenShapes_eq]
  rcases hsource : source.run c.registry with ⟨first, r1⟩
  rcases htarget : target.run r1 with ⟨second, r2⟩
  cases first with
  | error failure => rfl
  | ok s =>
      cases second with
      | error failure => rfl
      | ok t => exact h s t r1 r2 hsource htarget

theorem referencesBelow_congr {source target : ShapeId}
    (h : forall {c' s t}, Opens c (.references source target) c' s t ->
      (below s t).run c' = (below' s t).run c') :
    (referencesBelow below source target).run c =
      (referencesBelow below' source target).run c := by
  by_cases hne : source = target
  · unfold referencesBelow
    rw [if_pos hne, if_pos hne]
  · rw [run_referencesBelow hne, run_referencesBelow hne]
    rcases henter : c.trail.enter (source, target) with ⟨entry, trail⟩
    cases entry with
    | entered =>
        have hinside : (betweenShapes (resolve source) (resolve target) below).run
            { c with trail } =
            (betweenShapes (resolve source) (resolve target) below').run { c with trail } :=
          betweenShapes_congr fun s t r1 r2 hs ht => h (.references hne henter hs ht)
        simp only [hinside]
    | cycle => rfl
    | tooDeep => rfl
    | tooManySteps => rfl

theorem expandedBelow_congr {source target : FieldType}
    (h : forall {c' s t}, Opens c (.expansion source target) c' s t ->
      (below s t).run c' = (below' s t).run c') :
    (expandedBelow below source target).run c =
      (expandedBelow below' source target).run c := by
  rw [run_expandedBelow, run_expandedBelow]
  split
  · rfl
  · rename_i hfew
    apply betweenShapes_congr
    intro s t r1 r2 hs ht
    rw [run_counted, run_counted]
    simp only [h (.expansion (Nat.lt_of_not_le hfew) hs ht)]

end Agreement

/-!
# Enough frames

Two comparisons with at least as many frames as there is room for open the same
frames and agree.
-/

theorem follows_of_agree {n : Nat} {first second : CompareM Bool}
    (hadv : forall c, Advances c (first.run c).2)
    (h : forall {c : Comparison}, c.room ≤ n -> first.run c = second.run c) :
    Follows (fun c d => c = d ∧ c.room ≤ n) (fun _ => False) first second := by
  refine ⟨?_, fun hspent _ => hspent.elim, fun hspent _ => hspent.elim⟩
  rintro c _ ⟨rfl, hroom⟩
  rw [← h hroom]
  refine ⟨⟨rfl, ?_⟩, Or.inl rfl⟩
  rw [(hadv c).room]
  exact hroom

theorem eq_of_follows {n : Nat} {first second : CompareM Bool} {c : Comparison}
    (h : Follows (fun c d => c = d ∧ c.room ≤ n) (fun _ => False) first second)
    (hroom : c.room ≤ n) : first.run c = second.run c := by
  have hends := h.together ⟨rfl, hroom⟩
  exact Prod.ext (hends.2.resolve_right fun hspent => hspent.2) hends.1.1

theorem followsBeyond_of_agree {n : Nat} {frames frames' : Nat}
    (h : forall s t {c : Comparison}, c.room < n ->
      (compareShapes frames s t).run c = (compareShapes frames' s t).run c) :
    FollowsBeyond (fun c d => c = d ∧ c.room ≤ n) (fun _ => False) (compareShapes frames)
      (compareShapes frames') := by
  have hadv : forall r s t, Frames r (compareShapes frames s t) :=
    fun r => shows_compareShapes_of_sound (sound_true r) frames
  constructor
  · intro source target
    apply follows_of_agree
    · intro c
      exact (shows_referencesBelow (hadv c.registry) source target).advances rfl
    · intro c hroom
      apply referencesBelow_congr
      intro c' s t hopens
      exact h s t (Nat.lt_of_lt_of_le hopens.room hroom)
  · intro source target
    apply follows_of_agree
    · intro c
      exact (shows_expandedBelow (hadv c.registry) source target).advances rfl
    · intro c hroom
      apply expandedBelow_congr
      intro c' s t hopens
      exact h s t (Nat.lt_of_lt_of_le hopens.room hroom)

theorem compareShapes_eq {n frames frames' : Nat} (hframes : n ≤ frames)
    (hframes' : n ≤ frames') (s t : Shape) {c : Comparison} (hroom : c.room < n) :
    (compareShapes frames s t).run c = (compareShapes frames' s t).run c := by
  induction n generalizing frames frames' s t c with
  | zero => cases hroom
  | succ n ih =>
      rcases Nat.exists_eq_add_of_le' hframes with ⟨more, rfl⟩
      rcases Nat.exists_eq_add_of_le' hframes' with ⟨more', rfl⟩
      have hbeyond : FollowsBeyond (fun c d => c = d ∧ c.room ≤ n) (fun _ => False)
          (compareShapes (more + n)) (compareShapes (more' + n)) :=
        followsBeyond_of_agree fun s t c hroom =>
          ih (Nat.le_add_left n more) (Nat.le_add_left n more') s t hroom
      exact eq_of_follows (follows_shapeBelow hbeyond t s) (Nat.le_of_lt_succ hroom)

/-!
# One step of the recursion

A judgement is found from the answers to smaller ones and to those that open a
frame, so the limit on frames can be left out.
-/

def judge : Judgement -> CompareM Bool
  | .types source target => isBelow source target
  | .shapes source target => isShapeBelow source target

def fieldBy (ask : Judgement -> CompareM Bool) (source : Table FieldType)
    (target : String × FieldType) : CompareM Bool :=
  match source.get? target.1 with
  | some t => ask (.types t target.2)
  | none => pure target.2.admitsUndefined

/-- Find out whether a judgement holds from the answers to other ones. -/
def judgeBy (ask : Judgement -> CompareM Bool) : Judgement -> CompareM Bool
  | .types source target =>
      if plainlyBelow source target then pure true
      else
        match source, target with
        | .union members, target => members.allM fun m => ask (.types m target)
        | source, .intersection members => members.allM fun m => ask (.types source m)
        | source, .union members => do
            if <- members.anyM fun m => ask (.types source m) then return true
            expandedBelow (fun s t => ask (.shapes s t)) source (.union members)
        | source, target => simpleBelow (fun s t => ask (.shapes s t)) source target
  | .shapes source target =>
      if plainlyBelowShape source target then pure true
      else
        match source, target with
        | .union _ members, target => members.allM fun m => ask (.shapes m target)
        | source, .union _ members => members.anyM fun m => ask (.shapes source m)
        | .object _ source, .object _ target => target.entries.allM (fieldBy ask source)
        | .literal value, .keyword word => pure (value.widened = word)
        | .literal a, .literal b => pure (a.same b)
        | .keyword a, .keyword b => pure (a = b)
        | _, _ => pure false

section Cases

variable {ask : Judgement -> CompareM Bool} {source : FieldType}
  (hsource : forall members, source ≠ .union members)

include hsource

theorem judgeBy_intersection {members : List FieldType} :
    judgeBy ask (.types source (.intersection members)) =
      if plainlyBelow source (.intersection members) then pure true
      else members.allM fun m => ask (.types source m) := by
  cases source with
  | union members => exact absurd rfl (hsource members)
  | keyword | reference | intersection | literal => rfl

theorem judgeBy_union {members : List FieldType} :
    judgeBy ask (.types source (.union members)) =
      if plainlyBelow source (.union members) then pure true
      else (members.anyM fun m => ask (.types source m)) >>= fun found =>
        if found then pure true
        else expandedBelow (fun s t => ask (.shapes s t)) source (.union members) := by
  cases source with
  | union members => exact absurd rfl (hsource members)
  | keyword | reference | intersection | literal => rfl

theorem judgeBy_simple {target : FieldType} (hunion : forall members, target ≠ .union members)
    (hintersection : forall members, target ≠ .intersection members) :
    judgeBy ask (.types source target) =
      if plainlyBelow source target then pure true
      else simpleBelow (fun s t => ask (.shapes s t)) source target := by
  cases source with
  | union members => exact absurd rfl (hsource members)
  | keyword | reference | intersection | literal =>
      cases target with
      | union members => exact absurd rfl (hunion members)
      | intersection members => exact absurd rfl (hintersection members)
      | keyword | reference | literal => rfl

end Cases

theorem judgeBy_shapeUnion {ask : Judgement -> CompareM Bool} {source : Shape}
    (hsource : forall name members, source ≠ .union name members) {name : Option String}
    {members : List Shape} :
    judgeBy ask (.shapes source (.union name members)) =
      if plainlyBelowShape source (.union name members) then pure true
      else members.anyM fun m => ask (.shapes source m) := by
  cases source with
  | union name members => exact absurd rfl (hsource name members)
  | object | keyword | literal => rfl

theorem room_le_of_limits {c : Comparison} (hlimits : c.trail.limits = Limits.comparison) :
    c.room ≤ maxFrames := by
  unfold Comparison.room maxFrames
  rw [hlimits]
  omega

theorem advances_judge (j : Judgement) (c : Comparison) : Advances c ((judge j).run c).2 := by
  cases j with
  | types source target => exact (shows_isBelow c.registry source target).advances rfl
  | shapes source target => exact (shows_isShapeBelow c.registry source target).advances rfl

theorem typeBelow_eq_memberBelow {below : Shape -> Shape -> CompareM Bool} {source : FieldType}
    (hsource : forall members, source ≠ .union members) (target : FieldType) :
    typeBelow below target source = memberBelow below source target := by
  rw [typeBelow]
  intro members hmembers
  exact hsource members hmembers

theorem shapeBelow_eq_branchBelow {below : Shape -> Shape -> CompareM Bool} {source : Shape}
    (hsource : forall name members, source ≠ .union name members) (target : Shape) :
    shapeBelow below target source = branchBelow below source target := by
  rw [shapeBelow]
  intro name members hmembers
  exact hsource name members hmembers

theorem judge_member_eq {c : Comparison} (hlimits : c.trail.limits = Limits.comparison)
    {source : FieldType} (hsource : forall members, source ≠ .union members)
    (target : FieldType) :
    (isBelow source target).run c = (judgeBy judge (.types source target)).run c := by
  have hroom := room_le_of_limits hlimits
  have hbeyond := followsBeyond_of_agree fun s t c hroom =>
    compareShapes_eq (Nat.le_refl maxFrames) (Nat.le_succ maxFrames) s t hroom
  have hmembers : (fun m => judge (.types source m)) =
      memberBelow (compareShapes maxFrames) source :=
    funext fun m => typeBelow_eq_memberBelow hsource m
  rw [isBelow, typeBelow_eq_memberBelow hsource]
  cases target with
  | intersection members =>
      rw [memberBelow, memberBelowAll_eq_allM, judgeBy_intersection hsource, hmembers]
  | union members =>
      rw [memberBelow, memberBelowSome_eq_anyM, judgeBy_union hsource, hmembers]
      have hmember : forall m, Follows (fun c d => c = d ∧ c.room ≤ maxFrames) (fun _ => False)
          (memberBelow (compareShapes maxFrames) source m)
          (memberBelow (compareShapes maxFrames) source m) := by
        intro m
        rw [← congrFun hmembers m]
        exact follows_of_agree (advances_judge _) fun _ => rfl
      exact eq_of_follows (.ite _ (.either (.anyM fun m _ => hmember m)
        (hbeyond.expanded source _))) hroom
  | keyword | reference | literal =>
      rw [judgeBy_simple hsource (by simp) (by simp)]
      simp only [memberBelow]
      exact eq_of_follows (.ite _ (follows_simpleBelow hbeyond source _)) hroom

theorem judge_branch_eq {source : Shape}
    (hsource : forall name members, source ≠ .union name members) (target : Shape) :
    isShapeBelow source target = judgeBy judge (.shapes source target) := by
  have hmembers : (fun m => judge (.shapes source m)) =
      branchBelow (compareShapes maxFrames) source :=
    funext fun m => shapeBelow_eq_branchBelow hsource m
  rw [isShapeBelow, compareShapes, shapeBelow_eq_branchBelow hsource]
  cases target with
  | union name members =>
      rw [branchBelow, branchBelowSome_eq_anyM, judgeBy_shapeUnion hsource, hmembers]
  | object | keyword | literal =>
      simp only [branchBelow]
      cases source with
      | union name members => exact absurd rfl (hsource name members)
      | object | keyword | literal =>
          simp only [leafBelow, fieldsBelow_eq_allM]
          rfl

theorem judge_eq_judgeBy (j : Judgement) {c : Comparison}
    (hlimits : c.trail.limits = Limits.comparison) :
    (judge j).run c = (judgeBy judge j).run c := by
  cases j with
  | types source target =>
      cases source with
      | union members =>
          have hunion : isBelow (.union members) target =
              judgeBy judge (.types (.union members) target) := by
            rw [isBelow, typeBelow, typesBelow_eq_allM]
            rfl
          exact congrArg (StateT.run · c) hunion
      | keyword | reference | intersection | literal =>
          exact judge_member_eq hlimits (by simp) target
  | shapes source target =>
      cases source with
      | union name members =>
          have hunion : isShapeBelow (.union name members) target =
              judgeBy judge (.shapes (.union name members) target) := by
            rw [isShapeBelow, compareShapes, shapeBelow, shapesBelow_eq_allM]
            rfl
          exact congrArg (StateT.run · c) hunion
      | object | keyword | literal =>
          exact congrArg (StateT.run · c) (judge_branch_eq (by simp) target)

end CompareM
end Registry
end Shapes
