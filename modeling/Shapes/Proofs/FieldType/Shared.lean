import Shapes.Proofs.FieldType.Sense

/-!
# What two types share

What belongs to two types belongs to their meet, and then there is a meet.  Unlike
the converse this is true of `any` as well: a type that is met with `any` is left
behind, but nothing is lost.
-/

namespace Shapes
namespace FieldType

/-- A type is found, and it holds. -/
def Found (holds : FieldType -> Prop) (result : Option FieldType) : Prop :=
  exists t, result = some t ∧ holds t

theorem ne_any_of_plainMeet?_eq_none {a b : FieldType} (h : plainMeet? a b = none) :
    a ≠ .keyword .any ∧ b ≠ .keyword .any := by
  unfold plainMeet? at h
  split at h
  · cases h
  · constructor
    · intro heq
      subst heq
      split at h <;> simp_all
    · intro heq
      subst heq
      split at h <;> simp_all

theorem holds_of_plainMeet? {holds : FieldType -> Prop} (hany : holds (.keyword .any))
    {a b t : FieldType} (h : plainMeet? a b = some t) (ha : holds a) (hb : holds b) :
    holds t := by
  rcases plainMeet?_cases h with ⟨_, rfl⟩ | ⟨_, rfl⟩ | ⟨_, rfl⟩ | ⟨hnever, rfl⟩ | ⟨_, rfl⟩
  · exact ha
  · exact hb
  · exact ha
  · rcases hnever with rfl | rfl
    · exact ha
    · exact hb
  · exact hany

namespace Sense

variable {holds : FieldType -> Prop} (hs : Sense holds) (hany : holds (.keyword .any))

include hs hany

/-!
# Leaves

Leaves that hold together have a meet, one after the other.
-/

theorem found_leafMeet? {a b : FieldType} (haleaf : a.isLeaf = true) (hbleaf : b.isLeaf = true)
    (ha : holds a) (hb : holds b) : Found holds (FieldType.leafMeet? a b) := by
  cases hplain : FieldType.plainMeet? a b with
  | some t =>
      refine ⟨t, ?_, holds_of_plainMeet? hany hplain ha hb⟩
      simp [FieldType.leafMeet?, hplain]
  | none =>
      rcases ne_any_of_plainMeet?_eq_none hplain with ⟨haany, hbany⟩
      rcases hs.reading.leaves_of_plainMeet?_eq_none haany hbany haleaf hbleaf hplain ⟨ha, hb⟩ with
        ⟨value, rfl, rfl⟩ | ⟨value, rfl, rfl⟩
      · exact ⟨_, by simp [FieldType.leafMeet?, hplain], hb⟩
      · exact ⟨_, by simp [FieldType.leafMeet?, hplain], ha⟩

theorem found_foldlM_leafMeet? {leaves : List FieldType} {a : FieldType}
    (haleaf : a.isLeaf = true) (hleaves : forall t, t ∈ leaves -> t.isLeaf = true) (ha : holds a)
    (hall : forall t, t ∈ leaves -> holds t) :
    Found holds (leaves.foldlM FieldType.leafMeet? a) := by
  induction leaves generalizing a with
  | nil => exact ⟨a, rfl, ha⟩
  | cons b rest ih =>
      rw [List.forall_mem_cons] at hleaves hall
      rcases hs.found_leafMeet? hany haleaf hleaves.1 ha hall.1 with ⟨t, hmeet, ht⟩
      have htleaf : t.isLeaf = true := by
        rcases leafMeet?_mem hmeet with rfl | rfl
        · exact haleaf
        · exact hleaves.1
      rw [List.foldlM_cons, hmeet]
      exact ih htleaf hleaves.2 ht hall.2

theorem exists_leavesMeet? {leaves : List FieldType}
    (hleaves : forall t, t ∈ leaves -> t.isLeaf = true)
    (hall : forall t, t ∈ leaves -> holds t) :
    exists leaf, FieldType.leavesMeet? leaves = some leaf ∧
      forall t, t ∈ leaf.toList -> holds t := by
  cases leaves with
  | nil => exact ⟨none, rfl, by simp⟩
  | cons first rest =>
      rw [List.forall_mem_cons] at hleaves hall
      rcases hs.found_foldlM_leafMeet? hany hleaves.1 hleaves.2 hall.1 hall.2 with ⟨t, hfold, ht⟩
      exact ⟨some t, by rw [FieldType.leavesMeet?, hfold, Option.map_some], by simpa using ht⟩

/-!
# Meets in general

One branch of a union that holds with the other type is enough for the union of
branches to be found.
-/

theorem found_keptMeet? {a b : FieldType} (ha : holds a) (hb : holds b) :
    Found holds (FieldType.keptMeet? a b) := by
  have hparts : forall part, part ∈ a.intersectionParts ++ b.intersectionParts -> holds part := by
    rw [List.forall_mem_append, hs.reading.intersectionParts, hs.reading.intersectionParts]
    exact ⟨ha, hb⟩
  have hleaves : forall t,
      t ∈ (a.intersectionParts ++ b.intersectionParts).filter FieldType.isLeaf ->
        t.isLeaf = true ∧ holds t := by
    intro t ht
    rcases List.mem_filter.mp ht with ⟨hmem, hleaf⟩
    exact ⟨hleaf, hparts t hmem⟩
  rcases hs.exists_leavesMeet? hany (fun t ht => (hleaves t ht).1) fun t ht => (hleaves t ht).2 with
    ⟨leaf, hmeet, hleaf⟩
  refine ⟨_, by rw [FieldType.keptMeet?, hmeet, Option.map_some], ?_⟩
  rw [hs.reading.allOf, List.forall_mem_append]
  constructor
  · intro t ht
    exact hparts t (List.mem_filter.mp (mem_of_mem_distinctBy ht)).1
  · exact hleaf

theorem found_simpleMeet? {a b : FieldType} (ha : holds a) (hb : holds b) :
    Found holds (FieldType.simpleMeet? a b) := by
  unfold FieldType.simpleMeet?
  split
  · rename_i hleaf
    rw [Bool.and_eq_true] at hleaf
    exact hs.found_leafMeet? hany hleaf.1 hleaf.2 ha hb
  · cases hplain : FieldType.plainMeet? a b with
    | some t => exact ⟨t, rfl, holds_of_plainMeet? hany hplain ha hb⟩
    | none => exact hs.found_keptMeet? hany ha hb

omit hany in
theorem found_branches? {members : List FieldType} {meet : FieldType -> Option FieldType}
    {m : FieldType} (hm : m ∈ members) (hmeet : Found holds (meet m)) :
    Found holds (FieldType.branches? (members.flatMap fun m => (meet m).toList)) := by
  rcases hmeet with ⟨t, ht, hholds⟩
  have hmem : t ∈ members.flatMap fun m => (meet m).toList :=
    mem_flatMap_toList.mpr ⟨m, hm, ht⟩
  refine ⟨_, ?_, (hs.branching.oneOf _).mpr ⟨t, hmem, hholds⟩⟩
  rw [FieldType.branches?, if_neg]
  intro hempty
  rw [List.isEmpty_iff.mp hempty] at hmem
  cases hmem

/-- Types that hold together have a meet, and it holds. -/
theorem found_meet? {a b : FieldType} (ha : holds a) (hb : holds b) :
    Found holds (FieldType.meet? a b) := by
  have hall : holds a -> holds b -> Found holds (FieldType.meet? a b) := by
    refine meet?_induction
      (motive := fun a b result => holds a -> holds b -> Found holds result) ?_ ?_ ?_ ?_ a b
    · intro a b t hplain ha hb
      exact ⟨t, rfl, holds_of_plainMeet? hany hplain ha hb⟩
    · intro a b _ _ ha hb
      exact hs.found_simpleMeet? hany ha hb
    · intro members b meet hmembers ha hb
      rcases (hs.union members).mp ha with ⟨m, hm, hholds⟩
      exact hs.found_branches? hm (hmembers m hm hholds hb)
    · intro a members meet hmembers ha hb
      rcases (hs.union members).mp hb with ⟨m, hm, hholds⟩
      exact hs.found_branches? hm (hmembers m hm hholds ha)
  exact hall ha hb

end Sense
end FieldType
end Shapes
