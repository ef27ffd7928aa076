import Shapes.Proofs.FieldType.Points

/-!
# Types in normal form

Meets write their results in a normal form: unions and intersections are flat, have
no identical members, and keep one leaf of an intersection.  Types in normal form
whose branches hold at the same points are identical.

The branches of a meet are the meets of the branches of its operands, with one
exception: identical operands are not distributed, their meet is the first of them.
In a `Settled` type the meet of two branches is a branch already, and then there is
no exception.
-/

namespace Shapes
namespace FieldType

/-!
# Normal forms

Tightness is about intersections, form about unions; a normal type has both, and
a settled one has nothing left to put together.
-/

/-- An intersection as meets write it, or a type that is not an intersection. -/
def Tight : FieldType -> Prop
  | intersection members =>
      (forall m, m ∈ members -> m.Undivided ∧ m.same (keyword .unknown) = false) ∧
        (forall m, m ∈ members -> forall m', m' ∈ members -> m.isLeaf = true ->
          m'.isLeaf = true -> m.same m' = true) ∧
        Diverse same members
  | _ => True

/-- A union of different members that are not unions, or a type that is not a union. -/
def Formed : FieldType -> Prop
  | union members => (forall m, m ∈ members -> m.Single) ∧ Diverse same members
  | _ => True

/-- A type as meets write it; the parts of its intersections are not looked into. -/
def Normal (t : FieldType) : Prop :=
  t.Formed ∧ forall x, x ∈ t.branches -> x.Tight

/-- Branches of the type that have a meet have one that is a branch as well. -/
def Settled (t : FieldType) : Prop :=
  forall x, x ∈ t.branches -> forall y, y ∈ t.branches ->
    (x.meet? y).all (fun z => t.branches.any fun w => w.same z) = true

instance : DecidablePred Tight
  | intersection members =>
      inferInstanceAs (Decidable (
        (forall m, m ∈ members -> m.Undivided ∧ m.same (keyword .unknown) = false) ∧
          (forall m, m ∈ members -> forall m', m' ∈ members -> m.isLeaf = true ->
            m'.isLeaf = true -> m.same m' = true) ∧
          Diverse same members))
  | keyword _ | reference _ | union _ | literal _ => inferInstanceAs (Decidable True)

instance : DecidablePred Formed
  | union members =>
      inferInstanceAs (Decidable ((forall m, m ∈ members -> m.Single) ∧ Diverse same members))
  | keyword _ | reference _ | intersection _ | literal _ => inferInstanceAs (Decidable True)

instance : DecidablePred Normal := fun t =>
  inferInstanceAs (Decidable (t.Formed ∧ forall x, x ∈ t.branches -> x.Tight))

instance : DecidablePred Settled := fun t =>
  inferInstanceAs (Decidable (forall x, x ∈ t.branches -> forall y, y ∈ t.branches ->
    (x.meet? y).all (fun z => t.branches.any fun w => w.same z) = true))

theorem Undivided.tight {t : FieldType} (h : t.Undivided) : t.Tight := by
  cases t with
  | intersection members => exact absurd rfl (h members)
  | keyword | reference | union | literal => trivial

theorem Single.formed {t : FieldType} (h : t.Single) : t.Formed := by
  cases t with
  | union members => exact absurd rfl (h members)
  | keyword | reference | intersection | literal => trivial

theorem Single.normal {t : FieldType} (h : t.Single) (htight : t.Tight) : t.Normal := by
  refine ⟨h.formed, ?_⟩
  intro x hx
  rw [h.branches] at hx
  cases List.mem_singleton.mp hx
  exact htight

theorem branches_of_singles {members : List FieldType} (h : forall m, m ∈ members -> m.Single) :
    branches (union members) = members := by
  rw [branches]
  induction members with
  | nil => rfl
  | cons m rest ih =>
      rw [List.forall_mem_cons] at h
      rw [allBranches, h.1.branches, ih h.2]
      rfl

theorem Tight.parts_cases {x : FieldType} (h : x.Tight) :
    x.intersectionParts = [x] ∨
      (x = intersection x.intersectionParts ∧
        (forall part, part ∈ x.intersectionParts -> part.same (keyword .unknown) = false) ∧
        (forall part, part ∈ x.intersectionParts -> forall part', part' ∈ x.intersectionParts ->
          part.isLeaf = true -> part'.isLeaf = true -> part.same part' = true) ∧
        Diverse same x.intersectionParts) := by
  cases x with
  | intersection members =>
      rcases h with ⟨hmembers, hleaves, hdiffer⟩
      have hparts : intersectionParts (intersection members) = members :=
        intersectionParts_intersection fun m hm => (hmembers m hm).1
      rw [hparts]
      exact Or.inr ⟨rfl, fun m hm => (hmembers m hm).2, hleaves, hdiffer⟩
  | keyword | reference | union | literal => exact Or.inl rfl

theorem Tight.eq_unknown {x : FieldType} (h : x.Tight)
    (hparts : keyword .unknown ∈ x.intersectionParts) : x = keyword .unknown := by
  rcases h.parts_cases with hself | ⟨_, hunknown, _⟩
  · rw [hself] at hparts
    exact (List.mem_singleton.mp hparts).symm
  · exact absurd (hunknown _ hparts) (by simp [same])

theorem Tight.leaves_same {x : FieldType} (h : x.Tight) :
    forall part, part ∈ x.intersectionParts -> forall part', part' ∈ x.intersectionParts ->
      part.isLeaf = true -> part'.isLeaf = true -> part.same part' = true := by
  rcases h.parts_cases with hself | ⟨_, _, hleaves, _⟩
  · intro part hpart part' hpart' _ _
    rw [hself] at hpart hpart'
    cases List.mem_singleton.mp hpart
    cases List.mem_singleton.mp hpart'
    exact same_refl _
  · exact hleaves

/-!
# Identity from points

A branch describes a point at which it holds and nothing narrower does.  So
branches that hold at the same points have each other's parts.
-/

/-- The point that a type describes by itself. -/
def corePoint (x : FieldType) : Point :=
  ⟨(x.intersectionParts.find? isLeaf).getD (keyword .unknown), x.intersectionParts⟩

theorem corePoint_leaf_cases (x : FieldType) :
    x.corePoint.leaf = keyword .unknown ∨ x.corePoint.leaf ∈ x.intersectionParts := by
  unfold corePoint
  cases hleaf : x.intersectionParts.find? isLeaf with
  | none => exact Or.inl rfl
  | some leaf => exact Or.inr (List.mem_of_find?_eq_some hleaf)

theorem at_corePoint {x : FieldType} (hviable : x.AnyFree) (hpoint : exists point, At point x)
    (htight : x.Tight) : At x.corePoint x := by
  apply ((reading_at _).intersectionParts x).mp
  intro part hpart
  cases hleaf : part.isLeaf with
  | true =>
      cases hfind : x.intersectionParts.find? isLeaf with
      | none => exact absurd hleaf (List.find?_eq_none.mp hfind part hpart)
      | some leaf =>
          have hmem := List.mem_of_find?_eq_some hfind
          have hisLeaf := List.find?_some hfind
          have hnever := (part_of_at hviable hpoint hmem).2
          rw [at_iff_of_same (htight.leaves_same part hpart leaf hmem hleaf hisLeaf)]
          simp only [corePoint, hfind, Option.getD_some]
          exact at_leaf hisLeaf hnever _
  | false =>
      cases part with
      | keyword | literal => cases hleaf
      | reference | union => exact ⟨_, hpart, same_refl _⟩
      | intersection members => exact absurd rfl (undivided_of_mem hpart members)

theorem at_corePoint_cases {x q : FieldType} (hq : q.Undivided) (h : At x.corePoint q) :
    q = keyword .unknown ∨ (exists part, part ∈ x.intersectionParts ∧ part.same q = true) ∨
      exists value, literal value ∈ x.intersectionParts ∧ q = keyword value.widened := by
  have hleaf := corePoint_leaf_cases x
  cases q with
  | keyword word =>
      rcases h with rfl | ⟨_, hword | ⟨value, hvalue, rfl⟩⟩
      · exact Or.inl rfl
      · rw [hword] at hleaf
        rcases hleaf with hunknown | hmem
        · exact Or.inl hunknown
        · exact Or.inr (Or.inl ⟨_, hmem, same_refl _⟩)
      · rw [hvalue] at hleaf
        rcases hleaf with hunknown | hmem
        · cases hunknown
        · exact Or.inr (Or.inr ⟨value, hmem, rfl⟩)
  | literal value =>
      rcases at_literal_cases h with ⟨other, hother, hsame⟩
      rw [hother] at hleaf
      rcases hleaf with hunknown | hmem
      · cases hunknown
      · exact Or.inr (Or.inl ⟨_, hmem, Literal.same_symm hsame⟩)
  | reference | union => exact Or.inr (Or.inl h)
  | intersection members => exact absurd rfl (hq members)

theorem eq_unknown_of_at {q : FieldType} (hq : q.Undivided) (h : At ⟨keyword .unknown, []⟩ q) :
    q = keyword .unknown := by
  cases q with
  | keyword word =>
      rcases h with rfl | ⟨_, hword | ⟨value, hvalue, _⟩⟩
      · rfl
      · exact hword.symm
      · cases hvalue
  | literal value => cases h
  | reference | union =>
      rcases h with ⟨part, hpart, _⟩
      cases hpart
  | intersection members => exact absurd rfl (hq members)

/-- What the branches of a viable type in normal form are. -/
structure NormalBranch (x : FieldType) : Prop where
  viable : x.Viable
  single : x.Single
  tight : x.Tight

theorem Normal.normalBranch {t x : FieldType} (h : t.Normal) (ht : t.Viable) (hx : x ∈ t.branches) :
    x.NormalBranch :=
  ⟨ht.branch hx, single_of_mem_branches hx, h.2 x hx⟩

theorem NormalBranch.exists_at {x : FieldType} (h : x.NormalBranch) : exists point, At point x :=
  (leavesAgree_iff h.viable.anyFree).mp (h.single.viable_iff.mp h.viable).2.2

section Identity

variable {x y : FieldType}

theorem exists_same_part (hx : x.NormalBranch) (hy : y.NormalBranch)
    (h : forall point, At point x <-> At point y)
    {q : FieldType} (hq : q ∈ y.intersectionParts) :
    exists part, part ∈ x.intersectionParts ∧ part.same q = true := by
  have hparts := fun point => (reading_at point).intersectionParts
  have hxcore := (h _).mp (at_corePoint hx.viable.anyFree hx.exists_at hx.tight)
  have hycore := (h _).mpr (at_corePoint hy.viable.anyFree hy.exists_at hy.tight)
  have hcases := at_corePoint_cases (undivided_of_mem hq) ((hparts _ y).mpr hxcore q hq)
  rcases hcases with rfl | hfound | ⟨value, hvalue, rfl⟩
  · -- A type that is `unknown` holds everywhere, and so do the parts of the other.
    have hunknown := hy.tight.eq_unknown hq
    subst hunknown
    rcases (hx.single.viable_iff.mp hx.viable).2.1 with ⟨part, hpart, _⟩
    have heverywhere := (h ⟨keyword .unknown, []⟩).mpr (reading_at _).unknown
    have hholds := (hparts _ x).mpr heverywhere part hpart
    rw [eq_unknown_of_at (undivided_of_mem hpart) hholds] at hpart
    exact ⟨_, hpart, same_refl _⟩
  · exact hfound
  · -- A literal on one side would be a literal beside its keyword on the other.
    have hliteral := (hparts _ x).mpr hycore _ hvalue
    rcases at_corePoint_cases (undivided_of_mem hvalue) hliteral with heq | hfound | ⟨_, _, heq⟩
    · cases heq
    · rcases hfound with ⟨part, hpart, hsame⟩
      have hleaf : part.isLeaf = true := isLeaf_eq_of_same hsame
      have hboth := hy.tight.leaves_same _ hq part hpart rfl hleaf
      cases same_trans hboth hsame
    · cases heq

theorem same_of_at_iff (hx : x.NormalBranch) (hy : y.NormalBranch)
    (h : forall point, At point x <-> At point y) :
    x.same y = true := by
  have hparts : SameMembers x.intersectionParts y.intersectionParts := by
    constructor
    · intro part hpart
      rcases exists_same_part hy hx (fun point => (h point).symm) hpart with ⟨other, hother, hsame⟩
      exact ⟨other, hother, same_symm hsame⟩
    · intro part hpart
      exact exists_same_part hx hy h hpart
  have hcases : forall {z : FieldType}, z.NormalBranch -> z.intersectionParts = [z] ∨
      (z = intersection z.intersectionParts ∧ Diverse same z.intersectionParts) :=
    fun h => h.tight.parts_cases.imp_right fun h => ⟨h.1, h.2.2.2⟩
  apply related_of_members same same_symm same_trans (hcases hx) (hcases hy) hparts.1 hparts.2
  intro hxeq hyeq
  rw [hxeq, hyeq]
  exact same_intersection_iff.mpr hparts

end Identity

theorem Formed.branches_cases {t : FieldType} (h : t.Formed) :
    t.branches = [t] ∨ (t = union t.branches ∧ Diverse same t.branches) := by
  cases t with
  | union members =>
      rw [branches_of_singles h.1]
      exact Or.inr ⟨rfl, h.2⟩
  | keyword | reference | intersection | literal => exact Or.inl rfl

theorem Normal.same_of_branches {t u : FieldType} (ht : t.Normal) (hu : u.Normal)
    (htviable : t.Viable) (huviable : u.Viable)
    (hforth : forall x, x ∈ t.branches ->
      exists y, y ∈ u.branches ∧ forall point, At point x <-> At point y)
    (hback : forall y, y ∈ u.branches ->
      exists x, x ∈ t.branches ∧ forall point, At point x <-> At point y) : t.same u = true := by
  have hbranches : SameMembers t.branches u.branches := by
    constructor
    · intro x hx
      rcases hforth x hx with ⟨y, hy, hiff⟩
      exact ⟨y, hy, same_of_at_iff (ht.normalBranch htviable hx) (hu.normalBranch huviable hy) hiff⟩
    · intro y hy
      rcases hback y hy with ⟨x, hx, hiff⟩
      exact ⟨x, hx, same_of_at_iff (ht.normalBranch htviable hx) (hu.normalBranch huviable hy) hiff⟩
  apply related_of_members same same_symm same_trans ht.1.branches_cases hu.1.branches_cases
    hbranches.1 hbranches.2
  intro hteq hueq
  rw [hteq, hueq]
  exact same_union_iff.mpr hbranches

/-!
# Normal forms of meets

A meet of two branches in normal form is in normal form, because the parts of
both are flattened and the leaves become one.
-/

theorem NormalBranch.normal {x : FieldType} (h : x.NormalBranch) : x.Normal :=
  h.single.normal h.tight

theorem MembersOfMeet.tight {a b : FieldType} {members : List FieldType}
    (h : MembersOfMeet (a.intersectionParts ++ b.intersectionParts) members)
    (hunknown : forall part, part ∈ a.intersectionParts ++ b.intersectionParts ->
      part.same (keyword .unknown) = false) : (allOf members).Tight := by
  cases members with
  | nil => trivial
  | cons first rest =>
      cases rest with
      | nil => exact (h.undivided first List.mem_cons_self).tight
      | cons second rest =>
          refine ⟨?_, ?_, first, by simp, second, by simp, ?_⟩
          · intro m hm
            exact ⟨h.undivided m hm, hunknown m (h.mem m hm)⟩
          · intro m hm m' hm' hleaf hleaf'
            rw [h.leaves m m' hm hm' hleaf hleaf']
            exact same_refl _
          · exact (List.pairwise_cons.mp h.distinct).1 second List.mem_cons_self

theorem Tight.parts_ne_unknown {x : FieldType} (h : x.Tight) (hx : x ≠ keyword .unknown) :
    forall part, part ∈ x.intersectionParts -> part.same (keyword .unknown) = false := by
  intro part hpart
  rw [← Bool.not_eq_true]
  intro hsame
  rw [eq_of_same_keyword hsame] at hpart
  exact hx (h.eq_unknown hpart)

theorem normalBranch_simpleMeet? {a b c : FieldType} (ha : a.NormalBranch) (hb : b.NormalBranch)
    (h : simpleMeet? a b = some c) : c.NormalBranch := by
  rcases viable_simpleMeet? ha.single hb.single ha.viable hb.viable h with ⟨hsingle, hviable⟩
  refine ⟨hviable, hsingle, ?_⟩
  rcases simpleMeet?_cases h with (rfl | rfl) | ⟨hplain, hkept⟩
  · exact ha.tight
  · exact hb.tight
  · rcases of_plainMeet?_eq_none hplain with ⟨_, haunknown, hbunknown⟩
    rcases membersOfMeet_of_keptMeet? hkept with ⟨members, rfl, hmembers⟩
    apply hmembers.tight
    rw [List.forall_mem_append]
    exact ⟨ha.tight.parts_ne_unknown haunknown, hb.tight.parts_ne_unknown hbunknown⟩

/-!
# Normal forms of unions

The branches of a union in normal form are its members.
-/

theorem unionParts_eq_branches {t : FieldType} (ht : t.Viable) (hformed : t.Formed) :
    t.unionParts = t.branches := by
  cases t with
  | union members => exact (branches_of_singles hformed.1).symm
  | keyword word =>
      cases word with
      | never => exact absurd rfl ht.ne_never
      | string | number | boolean | null | undefined | any | unknown => rfl
  | reference | intersection | literal => rfl

section OneOf

variable {types : List FieldType} (hsome : types ≠ []) (hviable : forall t, t ∈ types -> t.Viable)
  (hnormal : forall t, t ∈ types -> t.Normal)

include hsome hviable hnormal

theorem oneOf_cases :
    (exists t, distinctBy same (types.flatMap branches) = [t] ∧ oneOf types = t) ∨
      (oneOf types = union (distinctBy same (types.flatMap branches)) ∧
        Diverse same (distinctBy same (types.flatMap branches))) := by
  have hparts : types.flatMap unionParts = types.flatMap branches := by
    rw [List.flatMap_def, List.flatMap_def, List.map_congr_left]
    intro t ht
    exact unionParts_eq_branches (hviable t ht) (hnormal t ht).1
  unfold oneOf
  rw [hparts]
  split
  · rename_i hnone
    rw [distinctBy_eq_nil_iff, ← hparts, List.flatMap_eq_nil_iff] at hnone
    rcases List.exists_mem_of_ne_nil types hsome with ⟨t, ht⟩
    exact absurd (hnone t ht) (hviable t ht).unionParts.1
  · rename_i only honly
    exact Or.inl ⟨only, honly, rfl⟩
  · rename_i hnil hmany
    exact Or.inr ⟨rfl, diverse_distinctBy hnil hmany⟩

omit hsome hviable hnormal in
theorem single_of_mem_distinct (types : List FieldType) {x : FieldType}
    (hx : x ∈ distinctBy same (types.flatMap branches)) : x.Single := by
  rcases List.mem_flatMap.mp (mem_of_mem_distinctBy hx) with ⟨t, _, hxt⟩
  exact single_of_mem_branches hxt

theorem branches_oneOf : (oneOf types).branches = distinctBy same (types.flatMap branches) := by
  rcases oneOf_cases hsome hviable hnormal with ⟨t, honly, heq⟩ | ⟨heq, _⟩
  · rw [heq, honly]
    exact (single_of_mem_distinct types (by simp [honly])).branches
  · rw [heq]
    exact branches_of_singles fun _ => single_of_mem_distinct types

theorem normal_oneOf : (oneOf types).Normal := by
  constructor
  · rcases oneOf_cases hsome hviable hnormal with ⟨t, honly, heq⟩ | ⟨heq, hdiverse⟩
    · rw [heq]
      exact (single_of_mem_distinct types (by simp [honly])).formed
    · rw [heq]
      exact ⟨fun _ => single_of_mem_distinct types, hdiverse⟩
  · intro x hx
    rw [branches_oneOf hsome hviable hnormal] at hx
    rcases List.mem_flatMap.mp (mem_of_mem_distinctBy hx) with ⟨t, ht, hxt⟩
    exact (hnormal t ht).2 x hxt

end OneOf

/-!
# Branches of meets

The branches of a meet are those of its operands, taken together wherever they
hold at a common point.  Identical operands are not distributed, which is
harmless for orderly types alone.
-/

/-- A type that holds just where two others do. -/
def Both (x y z : FieldType) : Prop :=
  forall point, At point z <-> At point x ∧ At point y

theorem Both.symm {x y z : FieldType} (h : Both x y z) : Both y x z := by
  intro point
  rw [h point, and_comm]

/-- The branches of a type are those of two others that hold together, taken together. -/
structure Spread (a b t : FieldType) : Prop where
  onto : forall x, x ∈ a.branches -> forall y, y ∈ b.branches -> forall point, At point x ->
    At point y -> exists z, z ∈ t.branches ∧ Both x y z
  into : forall z, z ∈ t.branches ->
    exists x, x ∈ a.branches ∧ exists y, y ∈ b.branches ∧ Both x y z

theorem Spread.symm {a b t : FieldType} (h : Spread a b t) : Spread b a t := by
  constructor
  · intro y hy x hx point hholdsy hholdsx
    rcases h.onto x hx y hy point hholdsx hholdsy with ⟨z, hz, hboth⟩
    exact ⟨z, hz, hboth.symm⟩
  · intro z hz
    rcases h.into z hz with ⟨x, hx, y, hy, hboth⟩
    exact ⟨y, hy, x, hx, hboth.symm⟩

theorem spread_unknown (t : FieldType) : Spread t (keyword .unknown) t := by
  have hboth : forall x, Both x (keyword .unknown) x := by
    intro x point
    simp [(reading_at point).unknown]
  constructor
  · intro x hx y hy _ _ _
    cases List.mem_singleton.mp hy
    exact ⟨x, hx, hboth x⟩
  · intro x hx
    exact ⟨x, hx, _, List.mem_singleton_self _, hboth x⟩

/-- A viable type in normal form whose branches are closed under meets. -/
structure Orderly (t : FieldType) : Prop where
  viable : t.Viable
  normal : t.Normal
  settles : forall x, x ∈ t.branches -> forall y, y ∈ t.branches -> forall point, At point x ->
    At point y -> exists z, z ∈ t.branches ∧ Both x y z

theorem NormalBranch.orderly {x : FieldType} (h : x.NormalBranch) : x.Orderly := by
  refine ⟨h.viable, h.normal, ?_⟩
  intro y hy z hz point _ _
  rw [h.single.branches] at hy hz ⊢
  cases List.mem_singleton.mp hy
  cases List.mem_singleton.mp hz
  exact ⟨x, List.mem_singleton_self x, fun _ => (and_self_iff).symm⟩

theorem Orderly.member {members : List FieldType} {m : FieldType}
    (h : (FieldType.union members).Orderly) (hm : m ∈ members) : m.Orderly := by
  apply NormalBranch.orderly
  apply h.normal.normalBranch h.viable
  rw [branches_of_singles h.normal.1.1]
  exact hm

/-- A meet of orderly types: its branches when there is one, and when there is none why. -/
def Spreads (a b : FieldType) : Option FieldType -> Prop
  | some t => t.Viable ∧ t.Normal ∧ Spread a b t
  | none => forall point, ¬ (Clear point a ∧ Clear point b)

theorem Spreads.symm {a b : FieldType} {result : Option FieldType} (h : Spreads a b result) :
    Spreads b a result := by
  cases result with
  | some t => exact ⟨h.1, h.2.1, h.2.2.symm⟩
  | none =>
      intro point hboth
      exact h point hboth.symm

theorem spreads_plainMeet? {a b t : FieldType} (ha : a.Orderly) (hb : b.Orderly)
    (h : plainMeet? a b = some t) : Spreads a b (some t) := by
  rcases plainMeet?_cases h with ⟨hsame, rfl⟩ | ⟨rfl, rfl⟩ | ⟨rfl, rfl⟩ | ⟨hnever, _⟩ | ⟨hany, _⟩
  · -- Each branch of the right type is identical to one of the left.
    refine ⟨ha.viable, ha.normal, ?_, ?_⟩
    · intro x hx y hy point hholdsx hholdsy
      rcases exists_same_branch (same_symm hsame) hy with ⟨y', hy', hyy'⟩
      rcases ha.settles x hx y' hy' point hholdsx ((at_iff_of_same hyy').mp hholdsy) with
        ⟨z, hz, hboth⟩
      refine ⟨z, hz, ?_⟩
      intro point
      rw [hboth point, at_iff_of_same hyy']
    · intro z hz
      rcases exists_same_branch hsame hz with ⟨y, hy, hzy⟩
      refine ⟨z, hz, y, hy, ?_⟩
      intro point
      rw [← at_iff_of_same hzy, and_self]
  · exact ⟨hb.viable, hb.normal, (spread_unknown _).symm⟩
  · exact ⟨ha.viable, ha.normal, spread_unknown _⟩
  · rcases hnever with rfl | rfl
    · exact absurd rfl ha.viable.ne_never
    · exact absurd rfl hb.viable.ne_never
  · rcases hany with rfl | rfl
    · exact absurd rfl ha.viable.anyFree.self
    · exact absurd rfl hb.viable.anyFree.self

theorem spreads_simpleMeet? {a b : FieldType} (ha : a.NormalBranch) (hb : b.NormalBranch) :
    Spreads a b (simpleMeet? a b) := by
  have hmeet := fun point => (reading_at point).simpleMeet? ha.viable.anyFree hb.viable.anyFree
  cases hc : simpleMeet? a b with
  | none =>
      rw [hc] at hmeet
      intro point
      rw [clear_iff_at ha.single, clear_iff_at hb.single]
      exact hmeet point
  | some c =>
      rw [hc] at hmeet
      have hbranch := normalBranch_simpleMeet? ha hb hc
      have hboth : Both a b c := hmeet
      refine ⟨hbranch.viable, hbranch.normal, ?_, ?_⟩
      · intro x hx y hy _ _ _
        rw [ha.single.branches] at hx
        rw [hb.single.branches] at hy
        cases List.mem_singleton.mp hx
        cases List.mem_singleton.mp hy
        exact ⟨c, by simp [hbranch.single.branches], hboth⟩
      · intro z hz
        rw [hbranch.single.branches] at hz
        cases List.mem_singleton.mp hz
        exact ⟨a, by simp [ha.single.branches], b, by simp [hb.single.branches], hboth⟩

section Distribution

variable {members : List FieldType} {b : FieldType} {meet : FieldType -> Option FieldType}
  (hmembers : forall m, m ∈ members -> Spreads m b (meet m))

include hmembers

theorem spread_of_mem_meets {t : FieldType}
    (ht : t ∈ members.flatMap fun m => (meet m).toList) :
    exists m, m ∈ members ∧ t.Viable ∧ t.Normal ∧ Spread m b t := by
  rcases mem_flatMap_toList.mp ht with ⟨m, hm, hmeet⟩
  have hspread := hmembers m hm
  rw [hmeet] at hspread
  exact ⟨m, hm, hspread⟩

theorem exists_meet_of_at {x y : FieldType} {point : Point}
    (hx : x ∈ (FieldType.union members).branches) (hy : y ∈ b.branches) (hholdsx : At point x)
    (hholdsy : At point y) :
    exists t, t ∈ (members.flatMap fun m => (meet m).toList) ∧
      exists m, x ∈ m.branches ∧ Spread m b t := by
  rcases mem_branches_union.mp hx with ⟨m, hm, hxm⟩
  have hspread := hmembers m hm
  cases hmeet : meet m with
  | some t =>
      rw [hmeet] at hspread
      exact ⟨t, mem_flatMap_toList.mpr ⟨m, hm, hmeet⟩, m, hxm, hspread.2.2⟩
  | none =>
      rw [hmeet] at hspread
      exact absurd ⟨⟨x, hxm, hholdsx⟩, ⟨y, hy, hholdsy⟩⟩ (hspread point)

theorem spreads_branches? :
    Spreads (union members) b (branches? (members.flatMap fun m => (meet m).toList)) := by
  have hfound : forall t, t ∈ (members.flatMap fun m => (meet m).toList) ->
      exists m, m ∈ members ∧ t.Viable ∧ t.Normal ∧ Spread m b t :=
    fun t => spread_of_mem_meets hmembers
  have hmeets : forall {x y point}, x ∈ (FieldType.union members).branches -> y ∈ b.branches ->
      At point x -> At point y -> exists t, t ∈ (members.flatMap fun m => (meet m).toList) ∧
        exists m, x ∈ m.branches ∧ Spread m b t :=
    fun hx hy => exists_meet_of_at hmembers hx hy
  generalize members.flatMap (fun m => (meet m).toList) = found at hfound hmeets ⊢
  unfold branches?
  split
  · rename_i hnone
    intro point hboth
    rcases hboth with ⟨⟨x, hx, hholdsx⟩, ⟨y, hy, hholdsy⟩⟩
    rcases hmeets hx hy hholdsx hholdsy with ⟨t, ht, _⟩
    rw [List.isEmpty_iff.mp hnone] at ht
    cases ht
  · rename_i hsome
    have hne : found ≠ [] := by simpa using hsome
    have hviable : forall t, t ∈ found -> t.Viable := by
      intro t ht
      rcases hfound t ht with ⟨_, _, hviable, _⟩
      exact hviable
    have hnormal : forall t, t ∈ found -> t.Normal := by
      intro t ht
      rcases hfound t ht with ⟨_, _, _, hnormal, _⟩
      exact hnormal
    refine ⟨viable_oneOf hne hviable, normal_oneOf hne hviable hnormal, ?_, ?_⟩
    · intro x hx y hy point hholdsx hholdsy
      rcases hmeets hx hy hholdsx hholdsy with ⟨t, ht, m, hxm, hspread⟩
      rcases hspread.onto x hxm y hy point hholdsx hholdsy with ⟨z, hz, hboth⟩
      rcases exists_same_distinct (List.mem_flatMap.mpr ⟨t, ht, hz⟩) with ⟨z', hz', hsame⟩
      refine ⟨z', by rwa [branches_oneOf hne hviable hnormal], ?_⟩
      intro point
      rw [at_iff_of_same hsame, hboth point]
    · intro z hz
      rw [branches_oneOf hne hviable hnormal] at hz
      rcases List.mem_flatMap.mp (mem_of_mem_distinctBy hz) with ⟨t, ht, hzt⟩
      rcases hfound t ht with ⟨m, hm, _, _, hspread⟩
      rcases hspread.into z hzt with ⟨x, hx, y, hy, hboth⟩
      exact ⟨x, mem_branches_union.mpr ⟨m, hm, hx⟩, y, hy, hboth⟩

end Distribution

/-- The branches of a meet of orderly types are the meets of their branches. -/
theorem spreads_meet? {a b : FieldType} (ha : a.Orderly) (hb : b.Orderly) :
    Spreads a b (a.meet? b) := by
  have hall : a.Orderly -> b.Orderly -> Spreads a b (a.meet? b) := by
    refine meet?_induction
      (motive := fun a b result => a.Orderly -> b.Orderly -> Spreads a b result) ?_ ?_ ?_ ?_ a b
    · intro a b t hplain ha hb
      exact spreads_plainMeet? ha hb hplain
    · intro a b hasingle hbsingle ha hb
      apply spreads_simpleMeet?
      · exact ha.normal.normalBranch ha.viable (by simp [hasingle.branches])
      · exact hb.normal.normalBranch hb.viable (by simp [hbsingle.branches])
    · intro members b meet hmembers ha hb
      exact spreads_branches? fun m hm => hmembers m hm (ha.member hm) hb
    · intro a members meet hmembers ha hb
      exact (spreads_branches? fun m hm => hmembers m hm (hb.member hm) ha).symm
  exact hall ha hb

theorem orderly_meet? {a b c : FieldType} (ha : a.Orderly) (hb : b.Orderly)
    (h : a.meet? b = some c) : c.Orderly ∧ Spread a b c := by
  have hspreads := spreads_meet? ha hb
  rw [h] at hspreads
  rcases hspreads with ⟨hviable, hnormal, hspread⟩
  refine ⟨⟨hviable, hnormal, ?_⟩, hspread⟩
  -- Two branches of the meet are two of each operand, and those have a meet each.
  intro z hz z' hz' point hholds hholds'
  rcases hspread.into z hz with ⟨x, hx, y, hy, hboth⟩
  rcases hspread.into z' hz' with ⟨x', hx', y', hy', hboth'⟩
  rcases (hboth point).mp hholds with ⟨hholdsx, hholdsy⟩
  rcases (hboth' point).mp hholds' with ⟨hholdsx', hholdsy'⟩
  rcases ha.settles x hx x' hx' point hholdsx hholdsx' with ⟨u, hu, hbothu⟩
  rcases hb.settles y hy y' hy' point hholdsy hholdsy' with ⟨v, hv, hbothv⟩
  rcases hspread.onto u hu v hv point ((hbothu point).mpr ⟨hholdsx, hholdsx'⟩)
    ((hbothv point).mpr ⟨hholdsy, hholdsy'⟩) with ⟨w, hw, hbothw⟩
  refine ⟨w, hw, ?_⟩
  intro point
  rw [hbothw point, hbothu point, hbothv point, hboth point, hboth' point, and_and_and_comm]

theorem orderly_of_settled {t : FieldType} (hviable : t.Viable) (hnormal : t.Normal)
    (hsettled : t.Settled) : t.Orderly := by
  refine ⟨hviable, hnormal, ?_⟩
  intro x hx y hy point hholdsx hholdsy
  have hxbranch := hnormal.normalBranch hviable hx
  have hybranch := hnormal.normalBranch hviable hy
  have hmeet := fun point =>
    (reading_at point).simpleMeet? hxbranch.viable.anyFree hybranch.viable.anyFree
  have hbranch := hsettled x hx y hy
  rw [meet?_of_single hxbranch.single hybranch.single] at hbranch
  cases hz : simpleMeet? x y with
  | none =>
      rw [hz] at hmeet
      exact absurd ⟨hholdsx, hholdsy⟩ (hmeet point)
  | some z =>
      rw [hz] at hmeet hbranch
      rcases List.any_eq_true.mp (show _ = true from hbranch) with ⟨w, hw, hsame⟩
      refine ⟨w, hw, ?_⟩
      intro point
      rw [at_iff_of_same hsame]
      exact hmeet point

end FieldType
end Shapes
