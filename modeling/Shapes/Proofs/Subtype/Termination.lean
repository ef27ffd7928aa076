import Shapes.Proofs.Subtype.Recursion
import Shapes.Proofs.Subtype.Reuse

/-!
# Comparisons end

To compare two terms is to compare parts of them, or to open a frame and to compare the
shapes that are found.  These shapes need not be smaller than the terms at hand, and an
expansion may lead to intersections that occur in no declaration.

`CompareM.Asks` are the calls that one step of a comparison makes.  Parts are smaller, and
there is room for a limited number of frames, so the frames that are left and the sizes of
the terms go down together, in this order.  A step depends only on its calls, and so the
comparison is the only function that takes the step everywhere.
-/

namespace Shapes
namespace Registry
namespace CompareM

/-!
# Calls

A step makes certain calls and depends on nothing else.  Members of a list are
called one after another, up to the first that settles the matter.
-/

/-- A comparison at some point that is asked for a judgement. -/
structure Call where
  comparison : Comparison
  judgement : Judgement

/-- A member of a list that is come to if all before it have the same answer. -/
inductive Reaches {α : Type} (check : α -> CompareM Bool) (answer : Bool) :
    List α -> Comparison -> α -> Comparison -> Prop where
  | first (a : α) (rest : List α) (c : Comparison) : Reaches check answer (a :: rest) c a c
  | later {a b : α} {rest : List α} {c c1 c' : Comparison} (h : (check a).run c = (answer, c1))
      (hrest : Reaches check answer rest c1 b c') : Reaches check answer (a :: rest) c b c'

namespace Reaches

variable {α : Type} {check check' : α -> CompareM Bool} {answer : Bool} {list : List α}
  {a : α} {c c' : Comparison}

theorem mem (h : Reaches check answer list c a c') : a ∈ list := by
  induction h with
  | first => exact List.mem_cons_self
  | later _ _ ih => exact List.mem_cons_of_mem _ ih

theorem advances (hcheck : forall a c, Advances c ((check a).run c).2)
    (h : Reaches check answer list c a c') : Advances c c' := by
  induction h with
  | first a rest c => exact .refl c
  | @later a b rest c c1 c' hfirst hrest ih =>
      have hadv := hcheck a c
      rw [hfirst] at hadv
      exact hadv.trans ih

theorem allM_congr (h : forall {a c'}, Reaches check true list c a c' ->
      (check a).run c' = (check' a).run c') :
    (list.allM check).run c = (list.allM check').run c := by
  induction list generalizing c with
  | nil => rfl
  | cons a rest ih =>
      rw [List.allM_cons, List.allM_cons, run_stateBind, run_stateBind, ← h (.first a rest c)]
      rcases hfirst : (check a).run c with ⟨yes, c1⟩
      cases yes with
      | false => rfl
      | true => exact ih fun hreaches => h (.later hfirst hreaches)

theorem anyM_congr (h : forall {a c'}, Reaches check false list c a c' ->
      (check a).run c' = (check' a).run c') :
    (list.anyM check).run c = (list.anyM check').run c := by
  induction list generalizing c with
  | nil => rfl
  | cons a rest ih =>
      rw [List.anyM_cons, List.anyM_cons, run_stateBind, run_stateBind, ← h (.first a rest c)]
      rcases hfirst : (check a).run c with ⟨yes, c1⟩
      cases yes with
      | true => rfl
      | false => exact ih fun hreaches => h (.later hfirst hreaches)

end Reaches

/-- A call that another one makes, and the frame that is opened for it. -/
inductive Asks : Call -> Option Frame -> Call -> Prop where
  | source {c c' : Comparison} {members : List FieldType} {m target : FieldType}
      (hplain : plainlyBelow (.union members) target = false)
      (h : Reaches (fun m => judge (.types m target)) true members c m c') :
      Asks ⟨c, .types (.union members) target⟩ none ⟨c', .types m target⟩
  | eachTarget {c c' : Comparison} {source m : FieldType} {members : List FieldType}
      (hsource : forall members, source ≠ .union members)
      (hplain : plainlyBelow source (.intersection members) = false)
      (h : Reaches (fun m => judge (.types source m)) true members c m c') :
      Asks ⟨c, .types source (.intersection members)⟩ none ⟨c', .types source m⟩
  | someTarget {c c' : Comparison} {source m : FieldType} {members : List FieldType}
      (hsource : forall members, source ≠ .union members)
      (hplain : plainlyBelow source (.union members) = false)
      (h : Reaches (fun m => judge (.types source m)) false members c m c') :
      Asks ⟨c, .types source (.union members)⟩ none ⟨c', .types source m⟩
  | noTarget {c c1 c' : Comparison} {source : FieldType} {members : List FieldType} {s t : Shape}
      (hsource : forall members, source ≠ .union members)
      (hplain : plainlyBelow source (.union members) = false)
      (hnone : (members.anyM fun m => judge (.types source m)).run c = (false, c1))
      (h : Opens c1 (.expansion source (.union members)) c' s t) :
      Asks ⟨c, .types source (.union members)⟩ (some (.expansion source (.union members)))
        ⟨c', .shapes s t⟩
  | references {c c' : Comparison} {source target : ShapeId} {s t : Shape}
      (h : Opens c (.references source target) c' s t) :
      Asks ⟨c, .references source target⟩ (some (.references source target)) ⟨c', .shapes s t⟩
  | expansion {c c' : Comparison} {source target : FieldType} {s t : Shape}
      (hsource : forall members, source ≠ .union members)
      (hintersection : forall members, target ≠ .intersection members)
      (hunion : forall members, target ≠ .union members)
      (hplain : plainlyBelow source target = false)
      (hexpands : forall below, simpleBelow below source target = expandedBelow below source target)
      (h : Opens c (.expansion source target) c' s t) :
      Asks ⟨c, .types source target⟩ (some (.expansion source target)) ⟨c', .shapes s t⟩
  | sourceBranch {c c' : Comparison} {name : Option String} {members : List Shape}
      {m target : Shape} (hplain : plainlyBelowShape (.union name members) target = false)
      (h : Reaches (fun m => judge (.shapes m target)) true members c m c') :
      Asks ⟨c, .shapes (.union name members) target⟩ none ⟨c', .shapes m target⟩
  | targetBranch {c c' : Comparison} {source m : Shape} {name : Option String}
      {members : List Shape} (hsource : forall name members, source ≠ .union name members)
      (hplain : plainlyBelowShape source (.union name members) = false)
      (h : Reaches (fun m => judge (.shapes source m)) false members c m c') :
      Asks ⟨c, .shapes source (.union name members)⟩ none ⟨c', .shapes source m⟩
  | field {c c' : Comparison} {name name' : Option String} {source target : Table FieldType}
      {key : String} {t u : FieldType} (hkey : source.get? key = some t)
      (h : Reaches (fieldBy judge source) true target.entries c (key, u) c') :
      Asks ⟨c, .shapes (.object name source) (.object name' target)⟩ none ⟨c', .types t u⟩

section Congr

variable {f : Judgement -> CompareM Bool} {c : Comparison}

theorem ite_congr {condition : Bool} {first second : CompareM Bool}
    (h : condition = false -> first.run c = second.run c) :
    (if condition then pure true else first : CompareM Bool).run c =
      (if condition then pure true else second : CompareM Bool).run c := by
  cases condition with
  | true => rfl
  | false => exact h rfl

theorem simpleBelow_congr {source target : FieldType}
    (hsource : forall members, source ≠ .union members)
    (hintersection : forall members, target ≠ .intersection members)
    (hunion : forall members, target ≠ .union members)
    (hplain : plainlyBelow source target = false)
    (h : forall {frame c' j}, Asks ⟨c, .types source target⟩ frame ⟨c', j⟩ ->
      (judge j).run c' = (f j).run c') :
    (simpleBelow (fun s t => judge (.shapes s t)) source target).run c =
      (simpleBelow (fun s t => f (.shapes s t)) source target).run c := by
  rcases simple_cases source target with ⟨value, word, rfl, rfl⟩ | ⟨a, b, rfl, rfl⟩ |
    ⟨hexpands, _⟩ | ⟨hfalse, _⟩
  · rfl
  · exact referencesBelow_congr fun hopens => h (.references hopens)
  · rw [hexpands, hexpands]
    exact expandedBelow_congr fun hopens =>
      h (.expansion hsource hintersection hunion hplain hexpands hopens)
  · rw [hfalse, hfalse]

theorem judgeBy_member_congr {source target : FieldType}
    (hsource : forall members, source ≠ .union members)
    (h : forall {frame c' j}, Asks ⟨c, .types source target⟩ frame ⟨c', j⟩ ->
      (judge j).run c' = (f j).run c') :
    (judgeBy judge (.types source target)).run c = (judgeBy f (.types source target)).run c := by
  cases target with
  | intersection members =>
      rw [judgeBy_intersection hsource, judgeBy_intersection hsource]
      apply ite_congr
      intro hplain
      exact Reaches.allM_congr fun hreaches => h (.eachTarget hsource hplain hreaches)
  | union members =>
      rw [judgeBy_union hsource, judgeBy_union hsource]
      apply ite_congr
      intro hplain
      have hsome := Reaches.anyM_congr fun hreaches => h (.someTarget hsource hplain hreaches)
      rw [run_stateBind, run_stateBind, ← hsome]
      rcases hnone : (members.anyM fun m => judge (.types source m)).run c with ⟨found, c1⟩
      cases found with
      | true => rfl
      | false => exact expandedBelow_congr fun hopens => h (.noTarget hsource hplain hnone hopens)
  | keyword | reference | literal =>
      rw [judgeBy_simple hsource (by simp) (by simp), judgeBy_simple hsource (by simp) (by simp)]
      apply ite_congr
      intro hplain
      exact simpleBelow_congr hsource (by simp) (by simp) hplain h

theorem judgeBy_branch_congr {source target : Shape}
    (hsource : forall name members, source ≠ .union name members)
    (h : forall {frame c' j}, Asks ⟨c, .shapes source target⟩ frame ⟨c', j⟩ ->
      (judge j).run c' = (f j).run c') :
    (judgeBy judge (.shapes source target)).run c =
      (judgeBy f (.shapes source target)).run c := by
  cases target with
  | union name members =>
      rw [judgeBy_shapeUnion hsource, judgeBy_shapeUnion hsource]
      apply ite_congr
      intro hplain
      exact Reaches.anyM_congr fun hreaches => h (.targetBranch hsource hplain hreaches)
  | object name target =>
      cases source with
      | union name members => exact absurd rfl (hsource name members)
      | keyword | literal => rfl
      | object name source =>
          apply Reaches.allM_congr
          intro e c' hreaches
          unfold fieldBy
          cases hkey : source.get? e.1 with
          | some t => exact h (.field hkey hreaches)
          | none => rfl
  | keyword | literal =>
      cases source with
      | union name members => exact absurd rfl (hsource name members)
      | object | keyword | literal => rfl

theorem judgeBy_congr {j : Judgement}
    (h : forall {frame c' j'}, Asks ⟨c, j⟩ frame ⟨c', j'⟩ -> (judge j').run c' = (f j').run c') :
    (judgeBy judge j).run c = (judgeBy f j).run c := by
  cases j with
  | types source target =>
      cases source with
      | union members =>
          apply ite_congr
          intro hplain
          exact Reaches.allM_congr fun hreaches => h (.source hplain hreaches)
      | keyword | reference | intersection | literal =>
          exact judgeBy_member_congr (by simp) h
  | shapes source target =>
      cases source with
      | union name members =>
          apply ite_congr
          intro hplain
          exact Reaches.allM_congr fun hreaches => h (.sourceBranch hplain hreaches)
      | object | keyword | literal => exact judgeBy_branch_congr (by simp) h

end Congr

end CompareM

/-!
# Parts of terms

Between two frames the terms at hand are taken apart on one side or on both.
-/

/-- What a judgement is about. -/
inductive Term where
  | type (t : FieldType)
  | shape (s : Shape)

/-- A term that another one is made of. -/
inductive Term.PartOf : Term -> Term -> Prop where
  | unionMember {m : FieldType} {members : List FieldType} (h : m ∈ members) :
      PartOf (.type m) (.type (.union members))
  | intersectionMember {m : FieldType} {members : List FieldType} (h : m ∈ members) :
      PartOf (.type m) (.type (.intersection members))
  | branch {name : Option String} {m : Shape} {members : List Shape} (h : m ∈ members) :
      PartOf (.shape m) (.shape (.union name members))
  | field {name : Option String} {key : String} {t : FieldType} {fields : Table FieldType}
      (h : (key, t) ∈ fields.entries) : PartOf (.type t) (.shape (.object name fields))

theorem Term.PartOf.sizeOf_lt {part whole : Term} (h : part.PartOf whole) :
    sizeOf part < sizeOf whole := by
  cases h with
  | unionMember h | intersectionMember h | branch h =>
      have hmember := List.sizeOf_lt_of_mem h
      simp only [Term.type.sizeOf_spec, Term.shape.sizeOf_spec, FieldType.union.sizeOf_spec,
        FieldType.intersection.sizeOf_spec, Shape.union.sizeOf_spec]
      omega
  | @field name key t fields h =>
      have hentry := List.sizeOf_lt_of_mem h
      rcases fields with ⟨entries, distinct⟩
      simp only [Term.type.sizeOf_spec, Term.shape.sizeOf_spec, Prod.mk.sizeOf_spec,
        Shape.object.sizeOf_spec, Table.mk.sizeOf_spec] at hentry ⊢
      omega

namespace Judgement

def source : Judgement -> Term
  | types source _ => .type source
  | shapes source _ => .shape source

def target : Judgement -> Term
  | types _ target => .type target
  | shapes _ target => .shape target

/-- A judgement about a part of one side or of both, and about nothing else. -/
structure Smaller (k j : Judgement) : Prop where
  source : k.source = j.source ∨ k.source.PartOf j.source
  target : k.target = j.target ∨ k.target.PartOf j.target
  either : k.source.PartOf j.source ∨ k.target.PartOf j.target

theorem Smaller.sizeOf_lt {k j : Judgement} (h : k.Smaller j) :
    sizeOf k.source + sizeOf k.target < sizeOf j.source + sizeOf j.target := by
  have hsource : sizeOf k.source ≤ sizeOf j.source := by
    cases h.source with
    | inl heq => rw [heq]
    | inr hpart => exact Nat.le_of_lt hpart.sizeOf_lt
  have htarget : sizeOf k.target ≤ sizeOf j.target := by
    cases h.target with
    | inl heq => rw [heq]
    | inr hpart => exact Nat.le_of_lt hpart.sizeOf_lt
  cases h.either with
  | inl hpart => exact Nat.add_lt_add_of_lt_of_le hpart.sizeOf_lt htarget
  | inr hpart => exact Nat.add_lt_add_of_le_of_lt hsource hpart.sizeOf_lt

end Judgement

namespace CompareM

/-!
# What calls keep and what they lower

A call without a frame has smaller terms and the same frames, and a call with a
frame has one frame less to open.
-/

theorem advances_fieldBy (source : Table FieldType) (target : String × FieldType)
    (c : Comparison) : Advances c ((fieldBy judge source target).run c).2 := by
  unfold fieldBy
  cases source.get? target.1 with
  | some t => exact advances_judge (.types t target.2) c
  | none => exact .refl c

namespace Asks

variable {call call' : Call} {frame : Frame}

theorem smaller (h : Asks call none call') : call'.judgement.Smaller call.judgement := by
  cases h with
  | source hplain h =>
      exact ⟨Or.inr (.unionMember h.mem), Or.inl rfl, Or.inl (.unionMember h.mem)⟩
  | eachTarget hsource hplain h =>
      exact ⟨Or.inl rfl, Or.inr (.intersectionMember h.mem), Or.inr (.intersectionMember h.mem)⟩
  | someTarget hsource hplain h =>
      exact ⟨Or.inl rfl, Or.inr (.unionMember h.mem), Or.inr (.unionMember h.mem)⟩
  | sourceBranch hplain h =>
      exact ⟨Or.inr (.branch h.mem), Or.inl rfl, Or.inl (.branch h.mem)⟩
  | targetBranch hsource hplain h =>
      exact ⟨Or.inl rfl, Or.inr (.branch h.mem), Or.inr (.branch h.mem)⟩
  | field hkey h =>
      have hsource := Table.get?_eq_some_iff_mem.mp hkey
      exact ⟨Or.inr (.field hsource), Or.inr (.field h.mem), Or.inl (.field hsource)⟩

theorem advances (h : Asks call none call') : Advances call.comparison call'.comparison := by
  cases h with
  | source hplain h => exact h.advances fun m => advances_judge _
  | eachTarget hsource hplain h => exact h.advances fun m => advances_judge _
  | someTarget hsource hplain h => exact h.advances fun m => advances_judge _
  | sourceBranch hplain h => exact h.advances fun m => advances_judge _
  | targetBranch hsource hplain h => exact h.advances fun m => advances_judge _
  | field hkey h => exact h.advances (advances_fieldBy _)

theorem opens (h : Asks call (some frame) call') :
    exists c1 s t, Advances call.comparison c1 ∧ Opens c1 frame call'.comparison s t := by
  cases h with
  | @noTarget c c1 c' source members s t hsource hplain hnone h =>
      have hadv : Advances c ((members.anyM fun m => judge (.types source m)).run c).2 :=
        (Shows.anyM fun m _ => shows_isBelow c.registry source m).advances rfl
      rw [hnone] at hadv
      exact ⟨c1, s, t, hadv, h⟩
  | @references c c' source target s t h => exact ⟨c, s, t, .refl c, h⟩
  | @expansion c c' source target s t hsource hintersection hunion hplain hexpands h =>
      exact ⟨c, s, t, .refl c, h⟩

theorem limits {opened : Option Frame} (h : Asks call opened call') :
    call'.comparison.trail.limits = call.comparison.trail.limits := by
  cases opened with
  | none => exact h.advances.limits
  | some frame =>
      rcases h.opens with ⟨c1, s, t, hadv, hopens⟩
      exact hopens.limits.trans hadv.limits

end Asks

theorem asks_wellFounded : WellFounded fun call' call => exists frame, Asks call frame call' := by
  have hlex := InvImage.wf (fun call : Call => (call.comparison.room,
    sizeOf call.judgement.source + sizeOf call.judgement.target))
    (Prod.lex Nat.lt_wfRel Nat.lt_wfRel).wf
  apply Subrelation.wf _ hlex
  rintro call' call ⟨frame, h⟩
  cases frame with
  | none =>
      have hroom := h.advances.room
      show Prod.Lex _ _ (call'.comparison.room, _) (call.comparison.room, _)
      rw [hroom]
      exact .right _ h.smaller.sizeOf_lt
  | some frame =>
      rcases h.opens with ⟨c1, s, t, hadv, hopens⟩
      have hroom := hopens.room
      rw [hadv.room] at hroom
      exact .left _ _ hroom

/-!
# Calls that are under way

The trail and the number of expansions count the frames that are open, so there
are never more of them than the limits allow.
-/

/-- A call that is under way below another one, and the frames that are open between them. -/
inductive Pending (top : Call) : List Frame -> Call -> Prop where
  | top : Pending top [] top
  | part {frames : List Frame} {call call' : Call} (h : Pending top frames call)
      (hasks : Asks call none call') : Pending top frames call'
  | inside {frames : List Frame} {frame : Frame} {call call' : Call}
      (h : Pending top frames call) (hasks : Asks call (some frame) call') :
      Pending top (frame :: frames) call'

/-- The trail and the expansions count the frames that are open. -/
structure Counts (frames : List Frame) (c : Comparison) : Prop where
  limits : c.trail.limits = Limits.comparison
  references : frames.countP (fun frame => !frame.isExpansion) = c.trail.depth
  expansions : frames.countP Frame.isExpansion = c.expansions
  depth_le : c.trail.depth ≤ Limits.comparison.maxDepth
  expansions_le : c.expansions ≤ Limits.comparison.maxDepth

theorem Counts.advance {frames : List Frame} {c c' : Comparison} (h : Counts frames c)
    (hadv : Advances c c') : Counts frames c' := by
  refine ⟨hadv.limits.trans h.limits, ?_, ?_, ?_, ?_⟩
  · exact h.references.trans hadv.depth.symm
  · exact h.expansions.trans hadv.expansions.symm
  · rw [hadv.depth]
    exact h.depth_le
  · rw [hadv.expansions]
    exact h.expansions_le

theorem Counts.opened {frames : List Frame} {frame : Frame} {c c' : Comparison} {s t : Shape}
    (h : Counts frames c) (hopens : Opens c frame c' s t) : Counts (frame :: frames) c' := by
  cases hopens with
  | references hne henter hs ht =>
      rcases Trail.enter_entered henter with ⟨hlimits, _, _, hdeep, _, hdepth⟩
      rw [h.limits] at hdeep
      refine ⟨hlimits.trans h.limits, ?_, ?_, ?_, h.expansions_le⟩
      · rw [List.countP_cons_of_pos rfl, h.references]
        exact hdepth.symm
      · rw [List.countP_cons_of_neg (by simp [Frame.isExpansion])]
        exact h.expansions
      · show _ ≤ _
        rw [hdepth]
        exact hdeep
  | expansion hfew hs ht =>
      refine ⟨h.limits, ?_, ?_, h.depth_le, hfew⟩
      · rw [List.countP_cons_of_neg (by simp [Frame.isExpansion])]
        exact h.references
      · rw [List.countP_cons_of_pos rfl, h.expansions]

theorem Pending.counts {top call : Call} {frames : List Frame}
    (htop : Counts [] top.comparison) (h : Pending top frames call) :
    Counts frames call.comparison := by
  induction h with
  | top => exact htop
  | part _ hasks ih => exact ih.advance hasks.advances
  | inside _ hasks ih =>
      rcases hasks.opens with ⟨c1, s, t, hadv, hopens⟩
      exact (ih.advance hadv).opened hopens

theorem eq_judge {f : Judgement -> CompareM Bool}
    (hf : forall j {c : Comparison}, c.trail.limits = Limits.comparison ->
      (f j).run c = (judgeBy f j).run c)
    (call : Call) (hlimits : call.comparison.trail.limits = Limits.comparison) :
    (f call.judgement).run call.comparison = (judge call.judgement).run call.comparison := by
  induction call using asks_wellFounded.induction with
  | _ call ih =>
      have hstep : (judgeBy judge call.judgement).run call.comparison =
          (judgeBy f call.judgement).run call.comparison := by
        apply judgeBy_congr
        intro frame c' j hasks
        exact (ih ⟨c', j⟩ ⟨frame, hasks⟩ (hasks.limits.trans hlimits)).symm
      rw [hf _ hlimits, judge_eq_judgeBy _ hlimits, hstep]

/--
A comparison ends, whatever its registry declares.  At any moment there are at most a
hundred pairs of references and a hundred expansions under way, only parts of the terms
at hand are compared between two of them, and no chain of calls goes on forever.  So the
recursion has one solution, which is the comparison.
-/
theorem comparisons_end {c : Comparison} (hlimits : c.trail.limits = Limits.comparison)
    (hidle : Idle c) (source target : FieldType) :
    (forall frames call, Pending ⟨c, .types source target⟩ frames call ->
        frames.countP (fun frame => !frame.isExpansion) ≤ 100 ∧
          frames.countP Frame.isExpansion ≤ 100) ∧
      (forall call call', Asks call none call' -> call'.judgement.Smaller call.judgement) ∧
      (WellFounded fun call' call => exists frame, Asks call frame call') ∧
      forall f : Judgement -> CompareM Bool,
        (forall j d, d.trail.limits = Limits.comparison ->
            (f j).run d = (judgeBy f j).run d) <->
          forall j d, d.trail.limits = Limits.comparison -> (f j).run d = (judge j).run d := by
  have htop : Counts [] c := by
    refine ⟨hlimits, hidle.depth.symm, hidle.expansions.symm, ?_, ?_⟩
    · rw [hidle.depth]
      exact Nat.zero_le _
    · rw [hidle.expansions]
      exact Nat.zero_le _
  refine ⟨?_, fun _ _ => Asks.smaller, asks_wellFounded, fun f => ⟨?_, ?_⟩⟩
  · intro frames call hpending
    have hcounts := hpending.counts htop
    rw [hcounts.references, hcounts.expansions]
    exact ⟨hcounts.depth_le, hcounts.expansions_le⟩
  · intro hf j d hlimits
    exact eq_judge hf ⟨d, j⟩ hlimits
  · intro hf j d hlimits
    have hstep : (judgeBy judge j).run d = (judgeBy f j).run d := by
      apply judgeBy_congr
      intro frame d' k hasks
      exact (hf k d' (hasks.limits.trans hlimits)).symm
    rw [hf j d hlimits, judge_eq_judgeBy j hlimits, hstep]

/-- Links are compared with links that are odd and even by turns, which come back to links. -/
theorem comparisons_end_on_links :
    Idle (start links) ∧
      (exists call, Pending ⟨start links, .references ⟨1⟩ ⟨2⟩⟩ [.references ⟨1⟩ ⟨2⟩] call) ∧
      forall frames call, Pending ⟨start links, .references ⟨1⟩ ⟨2⟩⟩ frames call ->
        frames.countP (fun frame => !frame.isExpansion) ≤ 100 ∧
          frames.countP Frame.isExpansion ≤ 100 := by
  refine ⟨idle_start links, ?_, (comparisons_end rfl (idle_start links) _ _).1⟩
  have hopens : Opens (start links) (.references ⟨1⟩ ⟨2⟩) _ _ _ :=
    .references (by decide) rfl (by with_unfolding_all rfl) (by with_unfolding_all rfl)
  exact ⟨_, .inside .top (.references hopens)⟩

end CompareM
end Registry
end Shapes
