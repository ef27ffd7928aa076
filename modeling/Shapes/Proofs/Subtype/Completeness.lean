import Shapes.Proofs.Registry.Resolving
import Shapes.Proofs.Subtype.Rules
import Shapes.Proofs.Subtype.Soundness

/-!
# Justified judgements are found

A pair of references that leads back to itself is met on the trail, so a
comparison of recursive shapes ends by itself: it finds every justified judgement
as long as no more pairs of references are involved than the trail may hold.

Expansions are different.  They are counted and not remembered, so a cycle that
goes through one is never met again; the comparison follows it until the count
runs out and answers no.  `Registry.Graded` bounds what a judgement may ask for
by the number of expansions that may be nested below it.  At the end stands a
cycle for which no number will do.
-/

namespace Shapes
namespace Registry

/-!
# Graded judgements

A comparison that is ready has room for all pairs of references and for the
expansions that are left.  To grant is to answer yes unless the attempts run
out.
-/

/--
Judgements by the number of expansions that may be nested below them.  All have
their rules, their pairs of references are known, and their types resolve.
-/
structure Graded (r : Registry) (pairs : Pairs) (holds : Nat -> Judgement -> Prop) : Prop where
  rule : forall {n j}, holds n j ->
    r.Rule (holds n) (fun k => exists m, n = m + 1 ∧ holds m k) j
  paired : forall {n source target}, holds n (.references source target) ->
    source = target ∨ (source, target) ∈ pairs
  resolves : forall {n source target}, holds n (.types source target) ->
    r.Resolves source ∧ r.Resolves target

namespace CompareM

/-- A comparison under way that still has a number of expansions and frames. -/
structure Ready (r : Registry) (pairs : Pairs) (n frames : Nat) (c : Comparison) : Prop where
  walked : Walked [] r c.registry
  limits : c.trail.limits = Limits.comparison
  nodup : c.trail.visiting.Nodup
  depth : c.trail.depth = c.trail.visiting.length
  known : c.trail.visiting ⊆ pairs
  expansions : c.expansions + n = Limits.comparison.maxDepth
  frames : pairs.length + n ≤ frames + c.trail.visiting.length

/-- A comparison that answers yes unless its steps run out. -/
def Grants (r : Registry) (pairs : Pairs) (n frames : Nat) (compare : CompareM Bool) : Prop :=
  forall ⦃c answer c'⦄, Ready r pairs n frames c -> compare.run c = (answer, c') ->
    c'.trail.steps ≤ Limits.comparison.maxSteps -> answer = true

/-- A comparison of which only the frame matters. -/
abbrev Frames (r : Registry) (compare : CompareM Bool) : Prop :=
  Shows r compare fun _ => True

section Grants

variable {r : Registry} {pairs : Pairs} {n frames : Nat}

theorem Ready.advance {c c' : Comparison} (h : Ready r pairs n frames c) (hadv : Advances c c') :
    Ready r pairs n frames c' := by
  refine ⟨h.walked.trans hadv.registry, hadv.limits.trans h.limits, ?_, ?_, ?_, ?_, ?_⟩
  · rw [hadv.visiting]
    exact h.nodup
  · rw [hadv.depth, hadv.visiting]
    exact h.depth
  · rw [hadv.visiting]
    exact h.known
  · rw [hadv.expansions]
    exact h.expansions
  · rw [hadv.visiting]
    exact h.frames

theorem Ready.length_le {c : Comparison} (h : Ready r pairs n frames c) :
    c.trail.visiting.length ≤ pairs.length :=
  (h.nodup.subperm h.known).length_le

theorem Ready.length_lt {c : Comparison} (h : Ready r pairs n frames c)
    {pair : ShapeId × ShapeId} (hpair : pair ∈ pairs) (hnew : pair ∉ c.trail.visiting) :
    c.trail.visiting.length < pairs.length := by
  have hnodup := List.nodup_cons.mpr ⟨hnew, h.nodup⟩
  exact (hnodup.subperm (List.cons_subset.mpr ⟨hpair, h.known⟩)).length_le

theorem Ready.cycle {c : Comparison} (h : Ready r pairs n frames c)
    (hpairs : pairs.length ≤ Limits.comparison.maxDepth) {pair : ShapeId × ShapeId}
    (hpair : pair ∈ pairs) {entry : Entry} {trail : Trail (ShapeId × ShapeId)}
    (henter : c.trail.enter pair = (entry, trail)) (hrefused : entry ≠ .entered)
    (hsteps : trail.steps ≤ Limits.comparison.maxSteps) : entry = .cycle := by
  rcases Trail.enter_cases henter with ⟨_, _, hcases⟩
  rw [h.limits] at hcases
  rcases hcases with ⟨_, hmany, _⟩ | ⟨hcycle, _⟩ | ⟨_, hnew, hdeep, _⟩ | ⟨hentered, _⟩
  · exact absurd hsteps (Nat.not_le_of_lt hmany)
  · exact hcycle
  · have hroom := h.length_lt hpair hnew
    rw [h.depth] at hdeep
    omega
  · exact absurd hentered hrefused

theorem Ready.enter {c : Comparison} (h : Ready r pairs n frames c) {pair : ShapeId × ShapeId}
    (hpair : pair ∈ pairs) {trail : Trail (ShapeId × ShapeId)}
    (henter : c.trail.enter pair = (.entered, trail)) {r1 : Registry} (hwalk : Walked [] r r1) :
    exists less, less < frames ∧ Ready r pairs n less { c with registry := r1, trail } := by
  rcases Trail.enter_entered henter with ⟨hlimits, _, hnew, _, hvisiting, hdepth⟩
  have hroom := h.length_lt hpair hnew
  have hframes := h.frames
  refine ⟨frames - 1, by omega, hwalk, hlimits.trans h.limits, ?_, ?_, ?_, h.expansions, ?_⟩
  · rw [hvisiting]
    exact List.nodup_cons.mpr ⟨hnew, h.nodup⟩
  · rw [hdepth, hvisiting, h.depth, List.length_cons]
  · rw [hvisiting]
    exact List.cons_subset.mpr ⟨hpair, h.known⟩
  · rw [hvisiting, List.length_cons]
    omega

theorem Ready.expand {c : Comparison} (h : Ready r pairs (n + 1) frames c) {r1 : Registry}
    (hwalk : Walked [] r r1) :
    exists less, less < frames ∧
      Ready r pairs n less { c with registry := r1, expansions := c.expansions + 1 } := by
  have hroom := h.length_le
  have hframes := h.frames
  have hexpansions := h.expansions
  refine ⟨frames - 1, by omega, hwalk, h.limits, h.nodup, h.depth, h.known, ?_, ?_⟩
  · show c.expansions + 1 + n = Limits.comparison.maxDepth
    omega
  · show pairs.length + n ≤ frames - 1 + c.trail.visiting.length
    omega

theorem Advances.within {c c' : Comparison} (h : Advances c c')
    (hsteps : c'.trail.steps ≤ Limits.comparison.maxSteps) :
    c.trail.steps ≤ Limits.comparison.maxSteps :=
  h.steps _ (by decide) hsteps

theorem grants_pure : Grants r pairs n frames (pure true) := by
  intro c answer c' _ hrun _
  cases hrun
  rfl

variable {first second : CompareM Bool}

theorem Grants.ite {condition : Bool} (h : condition = false -> Grants r pairs n frames second) :
    Grants r pairs n frames (if condition then pure true else second) := by
  cases condition with
  | true => exact grants_pure
  | false => exact h rfl

theorem Grants.both (hfirst : Grants r pairs n frames first) (hframe : Frames r first)
    (hsecond : Grants r pairs n frames second) :
    Grants r pairs n frames
      (first >>= fun answer => if answer then second else pure false) := by
  intro c answer c' hready hrun hsteps
  rw [run_stateBind] at hrun
  rcases hstep : first.run c with ⟨yes, c1⟩
  rw [hstep] at hrun
  have hadv := hframe.advances hstep
  have hyes : c1.trail.steps ≤ Limits.comparison.maxSteps -> yes = true := hfirst hready hstep
  cases yes with
  | true => exact hsecond (hready.advance hadv) hrun hsteps
  | false =>
      cases hrun
      exact hyes hsteps

theorem Grants.either (hframe : Frames r first) (hframe' : Frames r second)
    (h : Grants r pairs n frames first ∨ Grants r pairs n frames second) :
    Grants r pairs n frames
      (first >>= fun answer => if answer then pure true else second) := by
  intro c answer c' hready hrun hsteps
  rw [run_stateBind] at hrun
  rcases hstep : first.run c with ⟨yes, c1⟩
  rw [hstep] at hrun
  cases yes with
  | true =>
      cases hrun
      rfl
  | false =>
      have hafter : Advances c1 c' := hframe'.advances hrun
      rcases h with hfirst | hsecond
      · cases hfirst hready hstep (hafter.within hsteps)
      · exact hsecond (hready.advance (hframe.advances hstep)) hrun hsteps

section Lists

variable {α : Type} {list : List α} {check : α -> CompareM Bool}
  (hframes : forall a, a ∈ list -> Frames r (check a))

include hframes

theorem Grants.allM (h : forall a, a ∈ list -> Grants r pairs n frames (check a)) :
    Grants r pairs n frames (list.allM check) := by
  induction list with
  | nil => exact grants_pure
  | cons a rest ih =>
      rw [List.allM_cons]
      apply Grants.both (h a List.mem_cons_self) (hframes a List.mem_cons_self)
      apply ih
      · intro b hb
        exact hframes b (List.mem_cons_of_mem a hb)
      · intro b hb
        exact h b (List.mem_cons_of_mem a hb)

theorem Grants.anyM {a : α} (ha : a ∈ list) (h : Grants r pairs n frames (check a)) :
    Grants r pairs n frames (list.anyM check) := by
  induction list with
  | nil => cases ha
  | cons b rest ih =>
      rw [List.anyM_cons]
      have hrest : forall c, c ∈ rest -> Frames r (check c) :=
        fun c hc => hframes c (List.mem_cons_of_mem b hc)
      apply Grants.either (hframes b List.mem_cons_self) ((Shows.anyM hrest).imp fun _ _ => trivial)
      rcases List.mem_cons.mp ha with rfl | ha
      · exact Or.inl h
      · exact Or.inr (ih hrest ha)

end Lists

end Grants

/-!
# Comparisons that are granted

By the structure of the comparison: each rule is granted if the judgements that
it asks for are.
-/

theorem sound_true (r : Registry) : r.Sound fun _ _ => True :=
  ⟨fun _ => trivial, fun _ => trivial, fun _ _ _ => trivial⟩

section Rules

variable {r : Registry} {pairs : Pairs} {holds : Nat -> Judgement -> Prop}
  (hgraded : r.Graded pairs holds) (hpairs : pairs.length ≤ Limits.comparison.maxDepth)
  {n frames : Nat} {below : Shape -> Shape -> CompareM Bool}
  (hframes : forall s t, Frames r (below s t))
  (hbelow : forall {m less s t}, less < frames -> holds m (.shapes s t) ->
    Grants r pairs m less (below s t))

include hgraded hpairs hframes hbelow

theorem grants_referencesBelow {source target : ShapeId}
    (h : holds n (.references source target))
    (hreferred : r.Referred (holds n) source target) :
    Grants r pairs n frames (referencesBelow below source target) := by
  rcases eq_or_ne source target with rfl | hne
  · have hrun : referencesBelow below source source = pure true := by
      unfold referencesBelow
      rw [if_pos rfl]
    rw [hrun]
    exact grants_pure
  · intro c answer c' hready hrun hsteps
    have hknown : (source, target) ∈ pairs := (hgraded.paired h).resolve_left hne
    rcases hreferred.resolve_left hne with ⟨s, t, hs, ht, hshapes⟩
    rcases (hgraded.resolves h).1.reference hs hready.walked with ⟨r1, hsource⟩
    have hwalk1 := hready.walked.trans (resolve_walked hsource).1
    rcases (hgraded.resolves h).2.reference ht hwalk1 with ⟨r2, htarget⟩
    have hwalk2 := hwalk1.trans (resolve_walked htarget).1
    rcases referencesBelow_cases hne hrun with ⟨entry, trail, henter, hrefused, rfl, rfl⟩ |
      ⟨trail, c1, henter, hout, rfl⟩
    · rw [hready.cycle hpairs hknown henter hrefused hsteps]
      rfl
    · rcases hready.enter hknown henter hwalk2 with ⟨less, hless, hinside⟩
      rw [run_betweenShapes (c := { c with trail }) hsource htarget] at hout
      have hvisiting := ((hframes s t).advances hout).visiting.trans
        (Trail.enter_entered henter).2.2.2.2.1
      have hleft : (c1.trail.leave (source, target)).steps = c1.trail.steps :=
        (Trail.leave_entered hvisiting).2.1
      exact hbelow hless hshapes hinside hout (hleft ▸ hsteps)

omit hpairs hframes in
theorem grants_expandedBelow {source target : FieldType} (h : holds n (.types source target))
    (hexpanded : r.Expanded (fun k => exists m, n = m + 1 ∧ holds m k) source target) :
    Grants r pairs n frames (expandedBelow below source target) := by
  intro c answer c' hready hrun hsteps
  rcases hexpanded with ⟨s, t, hs, ht, m, rfl, hshapes⟩
  rcases (hgraded.resolves h).1 _ s hready.walked hs with ⟨r1, hsource⟩
  have hwalk1 := hready.walked.trans (resolveType_walked hsource).1
  rcases (hgraded.resolves h).2 _ t hwalk1 ht with ⟨r2, htarget⟩
  have hwalk2 := hwalk1.trans (resolveType_walked htarget).1
  have hroom : ¬ Limits.comparison.maxDepth ≤ c.expansions := by
    have hexpansions := hready.expansions
    omega
  rcases hready.expand hwalk2 with ⟨less, hless, hinside⟩
  rw [run_expandedBelow, if_neg hroom, run_betweenShapes hsource htarget, run_counted] at hrun
  rcases hout : (below s t).run { c with registry := r2, expansions := c.expansions + 1 } with
    ⟨yes, c1⟩
  simp only [hout] at hrun
  cases hrun
  exact hbelow hless hshapes hinside hout hsteps

theorem grants_simpleBelow {source target : FieldType} (h : holds n (.types source target))
    (hrule : r.SimpleRule (holds n) (fun k => exists m, n = m + 1 ∧ holds m k) source target) :
    Grants r pairs n frames (simpleBelow below source target) := by
  rcases simple_cases source target with ⟨value, word, rfl, rfl⟩ | ⟨a, b, rfl, rfl⟩ |
    ⟨hrun, hexpands⟩ | ⟨_, hnone⟩
  · have hword : value.widened = word := hrule
    have hrun : simpleBelow below (.literal value) (.keyword word) = pure true := by
      simp only [simpleBelow, hword, decide_true]
    rw [hrun]
    exact grants_pure
  · exact grants_referencesBelow hgraded hpairs hframes hbelow h hrule
  · rw [hrun]
    exact grants_expandedBelow hgraded hbelow h ((hexpands _ _ _).mp hrule)
  · exact absurd hrule (hnone _ _ _)

theorem grants_memberBelow {source : FieldType} (hsource : forall members, source ≠ .union members)
    {target : FieldType} (h : holds n (.types source target)) :
    Grants r pairs n frames (memberBelow below source target) := by
  have hsound := sound_true r
  induction target using FieldType.memberInduction with
  | intersection members ih =>
      rw [memberBelow]
      apply Grants.ite
      intro hplain
      have hrule := (typeRule_intersection hsource).mp (hgraded.rule h)
      rw [memberBelowAll_eq_allM]
      apply Grants.allM
      · intro m _
        exact shows_member_rule hsound hframes hsource m
      · intro m hm
        exact ih m hm (hrule.resolve_left (by simp [hplain]) m hm)
  | union members ih =>
      rw [memberBelow]
      apply Grants.ite
      intro hplain
      have hrule := (typeRule_union hsource).mp (hgraded.rule h)
      have hmembers : forall m, m ∈ members -> Frames r (memberBelow below source m) :=
        fun m _ => shows_member_rule hsound hframes hsource m
      rw [memberBelowSome_eq_anyM]
      apply Grants.either ((Shows.anyM hmembers).imp fun _ _ => trivial)
        ((shows_expandedBelow hframes source _).imp fun _ _ => trivial)
      rcases hrule.resolve_left (by simp [hplain]) with ⟨m, hm, hholds⟩ | hexpanded
      · exact Or.inl (Grants.anyM hmembers hm (ih m hm hholds))
      · exact Or.inr (grants_expandedBelow hgraded hbelow h hexpanded)
  | keyword | reference | literal =>
      rw [memberBelow]
      · apply Grants.ite
        intro hplain
        have hrule := (typeRule_simple hsource (by simp) (by simp)).mp (hgraded.rule h)
        exact grants_simpleBelow hgraded hpairs hframes hbelow h
          (hrule.resolve_left (by simp [hplain]))
      · intro members hmembers
        cases hmembers
      · intro members hmembers
        cases hmembers

theorem grants_typeBelow {source target : FieldType} (h : holds n (.types source target)) :
    Grants r pairs n frames (typeBelow below target source) := by
  induction source using FieldType.memberInduction with
  | union members ih =>
      rw [typeBelow]
      apply Grants.ite
      intro hplain
      have hrule := (hgraded.rule h).resolve_left (by simp [hplain])
      rw [typesBelow_eq_allM]
      apply Grants.allM
      · intro m _
        exact shows_type_rule (sound_true r) hframes target m
      · intro m hm
        exact ih m hm (hrule m hm)
  | keyword | reference | intersection | literal =>
      rw [typeBelow]
      · exact grants_memberBelow hgraded hpairs hframes hbelow (by simp) h
      · intro members hmembers
        cases hmembers

theorem grants_fieldBelow {source : Table FieldType} {key : String} {target : FieldType}
    (h : FieldRule (holds n) source key target) :
    Grants r pairs n frames (fieldBelow below source key target) := by
  unfold FieldRule at h
  unfold fieldBelow
  cases hfield : source.get? key with
  | some t =>
      rw [hfield] at h
      exact grants_typeBelow hgraded hpairs hframes hbelow h
  | none =>
      simp only [hfield] at h
      rw [h]
      exact grants_pure

theorem grants_leafBelow {source target : Shape} (h : LeafRule (holds n) source target) :
    Grants r pairs n frames (leafBelow below source target) := by
  unfold LeafRule at h
  split at h
  · rename_i source _ target
    rw [leafBelow, fieldsBelow_eq_allM]
    apply Grants.allM
    · intro e _
      exact (shows_field_rule (sound_true r) hframes source e.1 e.2).imp fun _ _ => trivial
    · intro e he
      exact grants_fieldBelow hgraded hpairs hframes hbelow (h e.1 e.2 he)
  · rw [leafBelow, decide_eq_true h]
    exact grants_pure
  · rw [leafBelow, h]
    exact grants_pure
  · rw [leafBelow, decide_eq_true h]
    exact grants_pure
  · cases h

theorem grants_branchBelow {source : Shape}
    (hsource : forall name members, source ≠ .union name members) {target : Shape}
    (h : holds n (.shapes source target)) :
    Grants r pairs n frames (branchBelow below source target) := by
  induction target using Shape.memberInduction with
  | union name members ih =>
      rw [branchBelow]
      apply Grants.ite
      intro hplain
      have hrule := (shapeRule_union hsource).mp (hgraded.rule h)
      rcases hrule.resolve_left (by simp [hplain]) with ⟨m, hm, hholds⟩
      rw [branchBelowSome_eq_anyM]
      apply Grants.anyM _ hm (ih m hm hholds)
      intro m _
      exact shows_branch_rule (sound_true r) hframes hsource m
  | object | keyword | literal =>
      rw [branchBelow]
      · apply Grants.ite
        intro hplain
        have hrule := (shapeRule_leaf hsource (by simp)).mp (hgraded.rule h)
        exact grants_leafBelow hgraded hpairs hframes hbelow
          (hrule.resolve_left (by simp [hplain]))
      · intro name members hunion
        cases hunion

theorem grants_shapeBelow {source target : Shape} (h : holds n (.shapes source target)) :
    Grants r pairs n frames (shapeBelow below target source) := by
  induction source using Shape.memberInduction with
  | union name members ih =>
      rw [shapeBelow]
      apply Grants.ite
      intro hplain
      have hrule := (hgraded.rule h).resolve_left (by simp [hplain])
      rw [shapesBelow_eq_allM]
      apply Grants.allM
      · intro m _
        exact shows_shape_rule (sound_true r) hframes target m
      · intro m hm
        exact ih m hm (hrule m hm)
  | object | keyword | literal =>
      rw [shapeBelow]
      · exact grants_branchBelow hgraded hpairs hframes hbelow (by simp) h
      · intro name members hunion
        cases hunion

end Rules

/-!
# Whole comparisons

By induction on the number of frames, judgements that are graded are granted.
-/

section Runs

variable {r : Registry} {pairs : Pairs} {holds : Nat -> Judgement -> Prop}
  (hgraded : r.Graded pairs holds) (hpairs : pairs.length ≤ Limits.comparison.maxDepth)

include hgraded hpairs

theorem grants_compareShapes {n frames less : Nat} (hless : less < frames) {source target : Shape}
    (h : holds n (.shapes source target)) :
    Grants r pairs n less (compareShapes frames source target) := by
  induction frames generalizing n less source target with
  | zero => cases hless
  | succ frames ih =>
      rw [compareShapes]
      apply grants_shapeBelow hgraded hpairs _ _ h
      · intro s t
        exact shows_compareShapes_of_sound (sound_true r) frames s t
      · intro m fewer s t hfewer hholds
        exact ih (by omega) hholds

theorem grants_isBelow {n : Nat} {source target : FieldType}
    (h : holds n (.types source target)) :
    Grants r pairs n maxFrames (isBelow source target) := by
  apply grants_typeBelow hgraded hpairs _ _ h
  · intro s t
    exact shows_compareShapes_of_sound (sound_true r) maxFrames s t
  · intro m less s t hless hholds
    exact grants_compareShapes hgraded hpairs hless hholds

end Runs

theorem ready_start (r : Registry) {pairs : Pairs}
    (hpairs : pairs.length ≤ Limits.comparison.maxDepth) :
    Ready r pairs Limits.comparison.maxDepth maxFrames (start r) := by
  refine ⟨.refl [] r, rfl, List.nodup_nil, rfl, List.nil_subset pairs, Nat.zero_add _, ?_⟩
  show pairs.length + Limits.comparison.maxDepth ≤ 2 * Limits.comparison.maxDepth + 0
  omega

end CompareM

/-!
# Cycles that are met and cycles that are not

A cycle through references alone is met on the trail.  A cycle through an
expansion never is, and the comparison follows it to the end of its limits.
-/

/--
Recursive shapes are settled by the trail.  Take judgements that have their rules
with at most a hundred expansions below each other, among which there are at most
a hundred pairs of references.  A fresh comparison finds them, as long as it makes
no more than the allowed attempts.
-/
theorem recursion_is_settled_by_the_trail {r : Registry} {pairs : Pairs}
    {holds : Nat -> Judgement -> Prop} (hgraded : r.Graded pairs holds)
    (hpairs : pairs.length ≤ 100) {source target : FieldType}
    (h : holds 100 (.types source target))
    (hsteps : ((CompareM.isBelow source target).run (CompareM.start r)).2.trail.steps ≤ 100000) :
    ((CompareM.isBelow source target).run (CompareM.start r)).1 = true :=
  CompareM.grants_isBelow hgraded hpairs h (CompareM.ready_start r hpairs) rfl hsteps

/--
Chains that go on through a name for what may follow, lists and queues that spell it
out, and a name for a list or nothing.
-/
def chains : Registry :=
  let r := ((declare "Chain" .mergeable [("next", .reference ⟨2⟩)]).run (empty .common)).2
  let r := ((declareBody "More" (.union [.reference ⟨1⟩, .keyword .null])).run r).2
  let r := ((declare "List" .mergeable
    [("next", .union [.reference ⟨3⟩, .keyword .null])]).run r).2
  let r := ((declare "Queue" .mergeable
    [("next", .union [.reference ⟨4⟩, .keyword .null])]).run r).2
  ((declareBody "Spine" (.union [.reference ⟨3⟩, .keyword .null])).run r).2

theorem chains_reachable : chains.Reachable := by
  have hchain : Relation.ReflTransGen Step (empty .common) _ :=
    .single (.declare "Chain" .mergeable [("next", .reference ⟨2⟩)])
  have hmore := hchain.tail (.declareBody "More" (.union [.reference ⟨1⟩, .keyword .null]))
  have hlist := hmore.tail
    (.declare "List" .mergeable [("next", .union [.reference ⟨3⟩, .keyword .null])])
  have hqueue := hlist.tail
    (.declare "Queue" .mergeable [("next", .union [.reference ⟨4⟩, .keyword .null])])
  exact ⟨.common, hqueue.tail (.declareBody "Spine" (.union [.reference ⟨3⟩, .keyword .null]))⟩

theorem chains_resolves (t : FieldType) : chains.Resolves t :=
  resolves_of_small chains_reachable.faithful (by decide +kernel) t

def nodeShape (name : String) (next : FieldType) : Shape :=
  .object (some name) ⟨[("next", next)], by simp⟩

def orNull (id : ShapeId) : FieldType :=
  .union [.reference id, .keyword .null]

def chainShape : Shape := nodeShape "Chain" (.reference ⟨2⟩)

def listShape : Shape := nodeShape "List" (orNull ⟨3⟩)

def queueShape : Shape := nodeShape "Queue" (orNull ⟨4⟩)

def shapeOrNull (name : Option String) (s : Shape) : Shape :=
  .union name [s, .keyword .null]

/-- Why a queue or nothing is a spine; only for nothing is the name expanded. -/
inductive QueuesBelow : Nat -> Judgement -> Prop where
  | top (n : Nat) : QueuesBelow (n + 1) (.types (orNull ⟨4⟩) (.reference ⟨5⟩))
  | nothing (n : Nat) : QueuesBelow (n + 1) (.types (.keyword .null) (.reference ⟨5⟩))
  | queue (n : Nat) : QueuesBelow n (.references ⟨4⟩ ⟨5⟩)
  | queueShapes (n : Nat) :
      QueuesBelow n (.shapes queueShape (shapeOrNull (some "Spine") listShape))
  | nothingShapes (n : Nat) :
      QueuesBelow n (.shapes (.keyword .null) (shapeOrNull (some "Spine") listShape))
  | nothingShape (n : Nat) : QueuesBelow n (.shapes (.keyword .null) (.keyword .null))
  | shapes (n : Nat) : QueuesBelow n (.shapes queueShape listShape)
  | next (n : Nat) : QueuesBelow n (.types (orNull ⟨4⟩) (orNull ⟨3⟩))
  | nextQueue (n : Nat) : QueuesBelow n (.types (.reference ⟨4⟩) (orNull ⟨3⟩))
  | nextNothing (n : Nat) : QueuesBelow n (.types (.keyword .null) (orNull ⟨3⟩))
  | references (n : Nat) : QueuesBelow n (.references ⟨4⟩ ⟨3⟩)
  | null (n : Nat) : QueuesBelow n (.types (.keyword .null) (.keyword .null))

theorem queues_graded : chains.Graded [(⟨4⟩, ⟨5⟩), (⟨4⟩, ⟨3⟩)] QueuesBelow := by
  have hlist : chains.Flattens ⟨3⟩ listShape := ⟨1, by with_unfolding_all rfl⟩
  have hqueue : chains.Flattens ⟨4⟩ queueShape := ⟨1, by with_unfolding_all rfl⟩
  have hspine : chains.Flattens ⟨5⟩ (shapeOrNull (some "Spine") listShape) :=
    ⟨2, by with_unfolding_all rfl⟩
  constructor
  · intro n j hj
    cases hj with
    | top n =>
        apply Or.inr
        intro m hm
        rcases List.mem_pair.mp hm with rfl | rfl
        · exact .queue _
        · exact .nothing n
    | nothing n =>
        exact Or.inr ⟨.keyword .null, _, ⟨0, rfl⟩, hspine, n, rfl, .nothingShapes n⟩
    | queue => exact Or.inr (Or.inr ⟨_, _, hqueue, hspine, .queueShapes n⟩)
    | queueShapes => exact Or.inr ⟨listShape, by simp, .shapes n⟩
    | nothingShapes => exact Or.inr ⟨.keyword .null, by simp, .nothingShape n⟩
    | nothingShape => exact Or.inr rfl
    | shapes =>
        apply Or.inr
        intro key t ht
        cases List.mem_singleton.mp ht
        exact .next n
    | next =>
        apply Or.inr
        intro m hm
        rcases List.mem_pair.mp hm with rfl | rfl
        · exact .nextQueue n
        · exact .nextNothing n
    | nextQueue => exact Or.inr (Or.inl ⟨.reference ⟨3⟩, by simp, .references n⟩)
    | nextNothing => exact Or.inr (Or.inl ⟨.keyword .null, by simp, .null n⟩)
    | references => exact Or.inr (Or.inr ⟨_, _, hqueue, hlist, .shapes n⟩)
    | null => exact Or.inl rfl
  · intro n source target h
    cases h with
    | queue => simp
    | references => simp
  · intro n source target _
    exact ⟨chains_resolves source, chains_resolves target⟩

theorem recursion_is_settled_by_the_trail_queues :
    chains.Graded [(⟨4⟩, ⟨5⟩), (⟨4⟩, ⟨3⟩)] QueuesBelow ∧
      ((CompareM.isBelow (orNull ⟨4⟩) (.reference ⟨5⟩)).run (CompareM.start chains)).1 = true := by
  refine ⟨queues_graded, ?_⟩
  exact recursion_is_settled_by_the_trail queues_graded (by decide) (.top 99) (by decide +kernel)

/-- Why a chain is a list; the name for what follows a chain is expanded every time. -/
inductive ChainsBelow : Judgement -> Prop where
  | references : ChainsBelow (.references ⟨1⟩ ⟨3⟩)
  | shapes : ChainsBelow (.shapes chainShape listShape)
  | next : ChainsBelow (.types (.reference ⟨2⟩) (orNull ⟨3⟩))
  | nextShapes :
      ChainsBelow (.shapes (shapeOrNull (some "More") chainShape) (shapeOrNull none listShape))
  | chainShapes : ChainsBelow (.shapes chainShape (shapeOrNull none listShape))
  | nothingShapes : ChainsBelow (.shapes (.keyword .null) (shapeOrNull none listShape))
  | nothingShape : ChainsBelow (.shapes (.keyword .null) (.keyword .null))

theorem chains_consistent : chains.Consistent ChainsBelow := by
  have hchain : chains.Flattens ⟨1⟩ chainShape := ⟨1, by with_unfolding_all rfl⟩
  have hlist : chains.Flattens ⟨3⟩ listShape := ⟨1, by with_unfolding_all rfl⟩
  have hmore : chains.TypeFlattens (.reference ⟨2⟩) (shapeOrNull (some "More") chainShape) :=
    ⟨2, by with_unfolding_all rfl⟩
  have hnext : chains.TypeFlattens (orNull ⟨3⟩) (shapeOrNull none listShape) :=
    ⟨1, by with_unfolding_all rfl⟩
  intro j hj
  cases hj with
  | references => exact Or.inr (Or.inr ⟨_, _, hchain, hlist, .shapes⟩)
  | shapes =>
      apply Or.inr
      intro key t ht
      cases List.mem_singleton.mp ht
      exact .next
  | next => exact Or.inr (Or.inr ⟨_, _, hmore, hnext, .nextShapes⟩)
  | nextShapes =>
      apply Or.inr
      intro m hm
      rcases List.mem_pair.mp hm with rfl | rfl
      · exact .chainShapes
      · exact .nothingShapes
  | chainShapes => exact Or.inr ⟨listShape, by simp, .shapes⟩
  | nothingShapes => exact Or.inr ⟨.keyword .null, by simp, .nothingShape⟩
  | nothingShape => exact Or.inr rfl

/--
That a chain is a list is justified, all types resolve, and there are few pairs of
references since there are few shapes; yet a fresh comparison does not find it.
-/
theorem named_recursion_is_not_found :
    chains.Justified (.references ⟨1⟩ ⟨3⟩) ∧ (forall t, chains.Resolves t) ∧ chains.size = 5 ∧
      ((CompareM.isBelow (.reference ⟨1⟩) (.reference ⟨3⟩)).run
        (CompareM.start chains)).1 = false :=
  ⟨chains_consistent.justified .references, chains_resolves, by decide +kernel, by decide +kernel⟩

end Registry
end Shapes
