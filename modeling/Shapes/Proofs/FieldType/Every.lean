import Shapes.FieldType.Meet
import Shapes.Proofs.FieldType.Identity

/-!
# What holds all over a type

`FieldType.Every` asks something of a type and of everything that it mentions.
Unions and meets are put together from what their operands mention, apart from
`never`, new unions and intersections, and an `unknown` that stands for an
intersection of nothing.  `FieldType.Closed` says that these are no obstacle.
-/

namespace Shapes
namespace FieldType

mutual

/-- A type and all types that it mentions have a property. -/
def Every (p : FieldType -> Prop) : FieldType -> Prop
  | keyword word => p (keyword word)
  | reference id => p (reference id)
  | union members => p (union members) ∧ AllEvery p members
  | intersection members => p (intersection members) ∧ AllEvery p members
  | literal value => p (literal value)

def AllEvery (p : FieldType -> Prop) : List FieldType -> Prop
  | [] => True
  | t :: rest => Every p t ∧ AllEvery p rest

end

/-- A property that the types made by unions and meets have of themselves. -/
structure Closed (p : FieldType -> Prop) : Prop where
  never : p (.keyword .never)
  union : forall members, p (.union members)
  intersection : forall members, members ≠ [] -> p (.intersection members)
  unknown : p (.intersection []) -> p (.keyword .unknown)

section Every

variable {p q : FieldType -> Prop}

theorem allEvery_iff {types : List FieldType} :
    AllEvery p types <-> forall t, t ∈ types -> Every p t := by
  induction types with
  | nil => simp [AllEvery]
  | cons t rest ih => simp [AllEvery, ih]

theorem every_union_iff {members : List FieldType} :
    Every p (union members) <-> p (union members) ∧ forall m, m ∈ members -> Every p m := by
  rw [Every, allEvery_iff]

theorem every_intersection_iff {members : List FieldType} :
    Every p (intersection members) <->
      p (intersection members) ∧ forall m, m ∈ members -> Every p m := by
  rw [Every, allEvery_iff]

theorem Every.self {t : FieldType} (h : Every p t) : p t := by
  cases t with
  | keyword | reference | literal => exact h
  | union members => exact (every_union_iff.mp h).1
  | intersection members => exact (every_intersection_iff.mp h).1

theorem Every.imp (himp : forall t, p t -> q t) {t : FieldType} (h : Every p t) : Every q t := by
  induction t using memberInduction with
  | keyword word => exact himp _ h
  | reference id => exact himp _ h
  | literal value => exact himp _ h
  | union members ih =>
      rcases every_union_iff.mp h with ⟨hself, hall⟩
      exact every_union_iff.mpr ⟨himp _ hself, fun m hm => ih m hm (hall m hm)⟩
  | intersection members ih =>
      rcases every_intersection_iff.mp h with ⟨hself, hall⟩
      exact every_intersection_iff.mpr ⟨himp _ hself, fun m hm => ih m hm (hall m hm)⟩

section Decidable

variable (p) [DecidablePred p]

mutual

def decideEvery : (t : FieldType) -> Decidable (Every p t)
  | keyword word => inferInstanceAs (Decidable (p (keyword word)))
  | reference id => inferInstanceAs (Decidable (p (reference id)))
  | union members =>
      have := decideAllEvery members
      inferInstanceAs (Decidable (p (union members) ∧ AllEvery p members))
  | intersection members =>
      have := decideAllEvery members
      inferInstanceAs (Decidable (p (intersection members) ∧ AllEvery p members))
  | literal value => inferInstanceAs (Decidable (p (literal value)))

def decideAllEvery : (types : List FieldType) -> Decidable (AllEvery p types)
  | [] => inferInstanceAs (Decidable True)
  | t :: rest =>
      have := decideEvery t
      have := decideAllEvery rest
      inferInstanceAs (Decidable (Every p t ∧ AllEvery p rest))

end

instance : DecidablePred (Every p) :=
  decideEvery p

end Decidable

/-!
# Unions in normal form

The parts of a union are mentioned by it.
-/

theorem every_unionParts {t : FieldType} (h : Every p t) :
    forall part, part ∈ t.unionParts -> Every p part := by
  intro part hpart
  cases t with
  | union members => exact (every_union_iff.mp h).2 part hpart
  | keyword word =>
      cases word with
      | never => cases hpart
      | string | number | boolean | null | undefined | any | unknown =>
          cases List.mem_singleton.mp hpart
          exact h
  | reference | intersection | literal =>
      cases List.mem_singleton.mp hpart
      exact h

theorem every_oneOf (hp : Closed p) {types : List FieldType}
    (h : forall t, t ∈ types -> Every p t) : Every p (oneOf types) := by
  have hmembers : forall m, m ∈ distinctBy same (types.flatMap unionParts) -> Every p m := by
    intro m hm
    rcases List.mem_flatMap.mp (mem_of_mem_distinctBy hm) with ⟨t, ht, hmt⟩
    exact every_unionParts (h t ht) m hmt
  unfold oneOf
  split
  · exact hp.never
  · rename_i only honly
    apply hmembers
    rw [honly]
    exact List.mem_singleton_self only
  · exact every_union_iff.mpr ⟨hp.union _, hmembers⟩

/-!
# Meets of leaves

A meet of leaves is one of them, and a meet that needs no look inside is one of
its operands.
-/

theorem plainMeet?_cases {a b t : FieldType} (h : plainMeet? a b = some t) :
    (a.same b = true ∧ t = a) ∨ (a = keyword .unknown ∧ t = b) ∨
      (b = keyword .unknown ∧ t = a) ∨
      ((a = keyword .never ∨ b = keyword .never) ∧ t = keyword .never) ∨
      ((a = keyword .any ∨ b = keyword .any) ∧ t = keyword .any) := by
  unfold plainMeet? at h
  split at h
  · rename_i hsame
    cases h
    exact Or.inl ⟨hsame, rfl⟩
  · split at h
    · cases h
      exact Or.inr (Or.inl ⟨rfl, rfl⟩)
    · cases h
      exact Or.inr (Or.inr (Or.inl ⟨rfl, rfl⟩))
    · cases h
      exact Or.inr (Or.inr (Or.inr (Or.inl ⟨Or.inl rfl, rfl⟩)))
    · cases h
      exact Or.inr (Or.inr (Or.inr (Or.inl ⟨Or.inr rfl, rfl⟩)))
    · cases h
      exact Or.inr (Or.inr (Or.inr (Or.inr ⟨Or.inl rfl, rfl⟩)))
    · cases h
      exact Or.inr (Or.inr (Or.inr (Or.inr ⟨Or.inr rfl, rfl⟩)))
    · cases h

theorem plainMeet?_mem {a b t : FieldType} (h : plainMeet? a b = some t) : t = a ∨ t = b := by
  rcases plainMeet?_cases h with ⟨_, rfl⟩ | ⟨_, rfl⟩ | ⟨_, rfl⟩ | ⟨hnever, rfl⟩ | ⟨hany, rfl⟩
  · exact Or.inl rfl
  · exact Or.inr rfl
  · exact Or.inl rfl
  · exact hnever.imp Eq.symm Eq.symm
  · exact hany.imp Eq.symm Eq.symm

theorem leafMeet?_mem {a b t : FieldType} (h : leafMeet? a b = some t) : t = a ∨ t = b := by
  unfold leafMeet? at h
  split at h
  · rename_i hplain
    cases h
    exact plainMeet?_mem hplain
  · split at h
    · split at h
      · cases h
        exact Or.inr rfl
      · cases h
    · split at h
      · cases h
        exact Or.inl rfl
      · cases h
    · cases h

theorem mem_of_leavesMeet? {leaves : List FieldType} {t : FieldType}
    (h : leavesMeet? leaves = some (some t)) : t ∈ leaves := by
  cases leaves with
  | nil => cases h
  | cons first rest =>
      rcases Option.map_eq_some_iff.mp h with ⟨u, hfold, hu⟩
      cases hu
      clear h
      induction rest generalizing first with
      | nil =>
          cases hfold
          exact List.mem_singleton_self t
      | cons next rest ih =>
          rw [List.foldlM_cons] at hfold
          rcases Option.bind_eq_some_iff.mp hfold with ⟨between, hbetween, hrest⟩
          rcases leafMeet?_mem hbetween with rfl | rfl
          · rcases List.mem_cons.mp (ih between hrest) with rfl | hmem
            · exact List.mem_cons_self
            · exact List.mem_cons_of_mem _ (List.mem_cons_of_mem _ hmem)
          · exact List.mem_cons_of_mem _ (ih between hrest)

theorem leaves_eq_nil_of_leavesMeet? {leaves : List FieldType}
    (h : leavesMeet? leaves = some none) : leaves = [] := by
  cases leaves with
  | nil => rfl
  | cons first rest =>
      rcases Option.map_eq_some_iff.mp h with ⟨t, _, ht⟩
      cases ht

/-!
# Intersections that stay

An intersection that is kept mentions what its operands mention.  Only an
intersection of nothing has no parts to mention, which is where `unknown` comes
in.
-/

theorem mem_allIntersectionParts {types : List FieldType} {part : FieldType} :
    part ∈ allIntersectionParts types <-> exists t, t ∈ types ∧ part ∈ t.intersectionParts := by
  induction types with
  | nil => simp [allIntersectionParts]
  | cons t rest ih => simp [allIntersectionParts, ih]

theorem every_intersectionParts {t : FieldType} (h : Every p t) :
    forall part, part ∈ t.intersectionParts -> Every p part := by
  induction t using memberInduction with
  | intersection members ih =>
      intro part hpart
      rw [intersectionParts] at hpart
      rcases mem_allIntersectionParts.mp hpart with ⟨m, hm, hmpart⟩
      exact ih m hm ((every_intersection_iff.mp h).2 m hm) part hmpart
  | keyword | reference | union | literal =>
      intro part hpart
      cases List.mem_singleton.mp hpart
      exact h

theorem empty_of_intersectionParts {t : FieldType} (h : Every p t)
    (hnone : t.intersectionParts = []) : p (.intersection []) := by
  induction t using memberInduction with
  | intersection members ih =>
      cases members with
      | nil => exact h.self
      | cons m rest =>
          rw [intersectionParts, allIntersectionParts, List.append_eq_nil_iff] at hnone
          have hm := (every_intersection_iff.mp h).2 m List.mem_cons_self
          exact ih m List.mem_cons_self hm hnone.1
  | keyword | reference | union | literal => cases hnone

theorem every_allOf (hp : Closed p) {types : List FieldType}
    (hempty : types = [] -> p (.intersection [])) (h : forall t, t ∈ types -> Every p t) :
    Every p (allOf types) := by
  unfold allOf
  split
  · exact hp.unknown (hempty rfl)
  · rename_i t
    exact h t (List.mem_singleton_self t)
  · rename_i hnil _
    exact every_intersection_iff.mpr ⟨hp.intersection _ hnil, h⟩

theorem every_keptMeet? (hp : Closed p) {a b t : FieldType} (ha : Every p a) (hb : Every p b)
    (h : keptMeet? a b = some t) : Every p t := by
  rcases Option.map_eq_some_iff.mp h with ⟨leaf, hleaf, rfl⟩
  have hparts : forall part, part ∈ a.intersectionParts ++ b.intersectionParts ->
      Every p part := by
    intro part hpart
    rcases List.mem_append.mp hpart with hpart | hpart
    · exact every_intersectionParts ha part hpart
    · exact every_intersectionParts hb part hpart
  apply every_allOf hp
  · intro hnil
    rcases List.append_eq_nil_iff.mp hnil with ⟨hkept, hleaves⟩
    have hother := distinctBy_eq_nil_iff.mp hkept
    cases leaf with
    | some leaf => cases hleaves
    | none =>
        -- Every part is a leaf or not one, so there is no part at all.
        have hnone := leaves_eq_nil_of_leavesMeet? hleaf
        apply empty_of_intersectionParts ha
        cases hfirst : a.intersectionParts with
        | nil => rfl
        | cons part rest =>
            rw [hfirst] at hnone hother
            rw [List.filter_eq_nil_iff] at hnone hother
            have hisLeaf := hnone part (by simp)
            have hnotLeaf := hother part (by simp)
            simp [hisLeaf] at hnotLeaf
  · intro u hu
    rcases List.mem_append.mp hu with hu | hu
    · exact hparts u (List.mem_filter.mp (mem_of_mem_distinctBy hu)).1
    · cases Option.mem_toList.mp hu
      exact hparts u (List.mem_filter.mp (mem_of_leavesMeet? hleaf)).1

/-!
# Meets in general

A meet of two types that are not unions is one of them or put together from
both, and every other meet is a union of such meets.  `meet?_induction` turns
this into a principle for all meets.
-/

theorem simpleMeet?_cases {a b t : FieldType} (h : simpleMeet? a b = some t) :
    (t = a ∨ t = b) ∨ (plainMeet? a b = none ∧ keptMeet? a b = some t) := by
  unfold simpleMeet? at h
  split at h
  · exact Or.inl (leafMeet?_mem h)
  · split at h
    · rename_i hplain
      cases h
      exact Or.inl (plainMeet?_mem hplain)
    · rename_i hplain
      exact Or.inr ⟨hplain, h⟩

theorem every_simpleMeet? (hp : Closed p) {a b t : FieldType} (ha : Every p a) (hb : Every p b)
    (h : simpleMeet? a b = some t) : Every p t := by
  rcases simpleMeet?_cases h with (rfl | rfl) | ⟨_, hkept⟩
  · exact ha
  · exact hb
  · exact every_keptMeet? hp ha hb hkept

theorem meetsSimple_eq_flatMap (right : FieldType) (types : List FieldType) :
    meetsSimple right types = types.flatMap fun t => (meetSimple? right t).toList := by
  induction types with
  | nil => rfl
  | cons t rest ih => rw [meetsSimple, ih, List.flatMap_cons]

theorem meets_eq_flatMap (right : FieldType) (types : List FieldType) :
    meets types right = types.flatMap fun t => (meet? t right).toList := by
  induction types with
  | nil => rfl
  | cons t rest ih => rw [meets, ih, List.flatMap_cons]

theorem mem_flatMap_toList {members : List FieldType} {meet : FieldType -> Option FieldType}
    {t : FieldType} : t ∈ (members.flatMap fun m => (meet m).toList) <->
      exists m, m ∈ members ∧ meet m = some t := by
  simp

/-- A type that is not a union. -/
def Single (t : FieldType) : Prop :=
  forall members, t ≠ .union members

instance : DecidablePred Single
  | union members => isFalse fun h => h members rfl
  | keyword _ | reference _ | intersection _ | literal _ => isTrue (by simp [Single])

theorem meet?_of_single {a b : FieldType} (ha : a.Single) (hb : b.Single) :
    a.meet? b = simpleMeet? a b := by
  rw [meet?]
  · exact ha
  · exact hb

theorem meet?_of_isLeaf {a b : FieldType} (ha : a.isLeaf = true) (hb : b.isLeaf = true) :
    a.meet? b = leafMeet? a b := by
  cases a with
  | keyword | literal =>
      cases b with
      | keyword | literal => simp [meet?, simpleMeet?, isLeaf]
      | reference | union | intersection => cases hb
  | reference | union | intersection => cases ha

section MeetInduction

variable {motive : FieldType -> FieldType -> Option FieldType -> Prop}
  (hplain : forall a b t, plainMeet? a b = some t -> motive a b (some t))
  (hsimple : forall a b, a.Single -> b.Single -> motive a b (simpleMeet? a b))
  (hleft : forall members b (meet : FieldType -> Option FieldType),
    (forall m, m ∈ members -> motive m b (meet m)) ->
      motive (union members) b (branches? (members.flatMap fun m => (meet m).toList)))

include hplain hsimple hleft

theorem meetSimple?_induction (a : FieldType) {b : FieldType} (hb : b.Single) :
    motive a b (meetSimple? b a) := by
  induction a using memberInduction with
  | union members ih =>
      rw [meetSimple?]
      split
      · rename_i ht
        exact hplain _ _ _ ht
      · rw [meetsSimple_eq_flatMap]
        exact hleft members b (meetSimple? b) ih
  | keyword | reference | intersection | literal =>
      rw [meetSimple?]
      · exact hsimple _ _ (by simp [Single]) hb
      · intro members hmembers
        cases hmembers

theorem meet?_induction
    (hright : forall a members (meet : FieldType -> Option FieldType),
      (forall m, m ∈ members -> motive m a (meet m)) ->
        motive a (union members) (branches? (members.flatMap fun m => (meet m).toList)))
    (a b : FieldType) : motive a b (meet? a b) := by
  induction a using memberInduction with
  | union members ih =>
      rw [meet?]
      split
      · rename_i ht
        exact hplain _ _ _ ht
      · rw [meets_eq_flatMap]
        exact hleft members b (fun m => meet? m b) ih
  | keyword | reference | intersection | literal =>
      cases b with
      | union members =>
          rw [meet?]
          · split
            · rename_i ht
              exact hplain _ _ _ ht
            · rw [meetsSimple_eq_flatMap]
              apply hright
              intro m _
              exact meetSimple?_induction hplain hsimple hleft m (by simp [Single])
          · intro others hothers
            cases hothers
      | keyword | reference | intersection | literal =>
          rw [meet?]
          · exact hsimple _ _ (by simp [Single]) (by simp [Single])
          · intro others hothers
            cases hothers
          · intro others hothers
            cases hothers

end MeetInduction

theorem every_branches? (hp : Closed p) {found : List FieldType} {t : FieldType}
    (hfound : forall u, u ∈ found -> Every p u) (h : branches? found = some t) : Every p t := by
  unfold branches? at h
  split at h
  · cases h
  · cases h
    exact every_oneOf hp hfound

theorem every_meet? (hp : Closed p) {left right t : FieldType} (hleft : Every p left)
    (hright : Every p right) (h : meet? left right = some t) : Every p t := by
  have hall : Every p left -> Every p right ->
      forall t, meet? left right = some t -> Every p t := by
    refine meet?_induction
      (motive := fun a b result => Every p a -> Every p b ->
        forall t, result = some t -> Every p t) ?_ ?_ ?_ ?_ left right
    · intro a b t hplain ha hb u hu
      cases hu
      rcases plainMeet?_mem hplain with rfl | rfl
      · exact ha
      · exact hb
    · intro a b _ _ ha hb t ht
      exact every_simpleMeet? hp ha hb ht
    · intro members b meet hmembers ha hb t ht
      apply every_branches? hp _ ht
      intro u hu
      rcases mem_flatMap_toList.mp hu with ⟨m, hm, hmeet⟩
      exact hmembers m hm ((every_union_iff.mp ha).2 m hm) hb u hmeet
    · intro a members meet hmembers ha hb t ht
      apply every_branches? hp _ ht
      intro u hu
      rcases mem_flatMap_toList.mp hu with ⟨m, hm, hmeet⟩
      exact hmembers m hm ((every_union_iff.mp hb).2 m hm) ha u hmeet
  exact hall hleft hright t h

end Every

end FieldType
end Shapes
