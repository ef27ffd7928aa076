import Shapes.Proofs.Distinct
import Shapes.Proofs.Shape.Identity
import Shapes.Shape.Keys

/-!
# Keys and their types

The list of keys of a shape, the test for a key and the type of a key are three
walks over the members of unions.  Here the test is said with membership, and the
other two are compared with it.  Under the policy `any` a union has the keys that
it has under `common` and more, and the types of those keys do not change.
-/

namespace Shapes
namespace Shape

/-!
# The test for a key

The two policies differ in whether all members of a union or only one of them
has to have the key.
-/

theorem allHaveKey_iff {policy : KeyPolicy} {key : String} {shapes : List Shape} :
    allHaveKey policy key shapes = true <->
      forall s, s ∈ shapes -> s.hasKey policy key = true := by
  induction shapes with
  | nil => simp [allHaveKey]
  | cons s rest ih => simp [allHaveKey, ih]

theorem someHasKey_iff {policy : KeyPolicy} {key : String} {shapes : List Shape} :
    someHasKey policy key shapes = true <->
      exists s, s ∈ shapes ∧ s.hasKey policy key = true := by
  induction shapes with
  | nil => simp [someHasKey]
  | cons s rest ih => simp [someHasKey, ih]

theorem hasKey_union_common {key : String} {name : Option String} {members : List Shape} :
    hasKey .common key (.union name members) = true <->
      members ≠ [] ∧ forall m, m ∈ members -> m.hasKey .common key = true := by
  simp [hasKey, allHaveKey_iff]

theorem hasKey_union_any {key : String} {name : Option String} {members : List Shape} :
    hasKey .any key (.union name members) = true <->
      exists m, m ∈ members ∧ m.hasKey .any key = true := by
  simp [hasKey, someHasKey_iff]

/-!
# The list of keys

Listing takes the keys of the members without repetition, and keeps those that
pass the test.
-/

theorem mem_allKeys {policy : KeyPolicy} {key : String} {shapes : List Shape} :
    key ∈ allKeys policy shapes <-> exists s, s ∈ shapes ∧ key ∈ s.keys policy := by
  induction shapes with
  | nil => simp [allKeys]
  | cons s rest ih => simp [allKeys, ih]

theorem mem_keys_iff {policy : KeyPolicy} {key : String} {s : Shape} :
    key ∈ s.keys policy <-> s.hasKey policy key = true := by
  induction s using memberInduction with
  | object name fields => simp [keys, hasKey, Table.contains]
  | union name members ih =>
      cases policy with
      | common =>
          rw [hasKey_union_common, keys]
          cases members with
          | nil => simp [commonKeys]
          | cons first rest =>
              simp [commonKeys, allHaveKey_iff, ih first List.mem_cons_self]
      | any =>
          rw [hasKey_union_any, keys, mem_distinctBy_beq, mem_allKeys]
          constructor
          · intro hfound
            rcases hfound with ⟨m, hm, hkey⟩
            exact ⟨m, hm, (ih m hm).mp hkey⟩
          · intro hfound
            rcases hfound with ⟨m, hm, hkey⟩
            exact ⟨m, hm, (ih m hm).mpr hkey⟩
  | keyword word => simp [keys, hasKey]
  | literal value => simp [keys, hasKey]

theorem nodup_keys (policy : KeyPolicy) (s : Shape) : (s.keys policy).Nodup := by
  induction s using memberInduction with
  | object name fields => exact fields.distinct
  | union name members ih =>
      cases policy with
      | common =>
          cases members with
          | nil => exact List.nodup_nil
          | cons first rest => exact (ih first List.mem_cons_self).filter _
      | any => exact nodup_distinctBy_beq (allKeys .any members)
  | keyword word => exact List.nodup_nil
  | literal value => exact List.nodup_nil

/-!
# Types of keys

A key has a type exactly when the test finds it, since the types are collected
from the members that have it.
-/

theorem checkKey_eq_ok_iff {policy : KeyPolicy} {s : Shape} {key : String} {t : FieldType} :
    s.checkKey policy key = .ok t <-> s.fieldType? policy key = some t := by
  unfold checkKey
  cases s.fieldType? policy key with
  | none => constructor <;> intro h <;> cases h
  | some u =>
      constructor
      · intro h
        cases h
        rfl
      · intro h
        cases h
        rfl

theorem checkKey_eq_error_iff {policy : KeyPolicy} {s : Shape} {key : String}
    {failure : Failure} :
    s.checkKey policy key = .error failure <->
      s.fieldType? policy key = none ∧ failure = .invalidKey s.displayName key := by
  unfold checkKey
  cases s.fieldType? policy key with
  | none =>
      constructor
      · intro h
        cases h
        exact ⟨rfl, rfl⟩
      · intro h
        rw [h.2]
        rfl
  | some u =>
      constructor
      · intro h
        cases h
      · intro h
        cases h.1

theorem isSome_fieldType?_iff {policy : KeyPolicy} {key : String} {s : Shape} :
    (s.fieldType? policy key).isSome = true <-> s.hasKey policy key = true := by
  cases s with
  | object name fields =>
      rw [fieldType?, hasKey, Table.contains_iff, Option.isSome_iff_exists]
  | union name members =>
      rw [fieldType?]
      split
      · rename_i hkey
        simp [hkey]
      · rename_i hkey
        simp [hkey]
  | keyword word => simp [fieldType?, hasKey]
  | literal value => simp [fieldType?, hasKey]

theorem exists_fieldType?_of_hasKey {policy : KeyPolicy} {key : String} {s : Shape}
    (h : s.hasKey policy key = true) : exists t, s.fieldType? policy key = some t :=
  Option.isSome_iff_exists.mp (isSome_fieldType?_iff.mpr h)

theorem mem_fieldTypes {policy : KeyPolicy} {key : String} {shapes : List Shape} {s : Shape}
    {t : FieldType} (hs : s ∈ shapes) (ht : s.fieldType? policy key = some t) :
    t ∈ fieldTypes policy key shapes := by
  induction shapes with
  | nil => cases hs
  | cons first rest ih =>
      rw [fieldTypes]
      rcases List.mem_cons.mp hs with rfl | hs
      · exact List.mem_append.mpr (Or.inl (by simp [ht]))
      · exact List.mem_append.mpr (Or.inr (ih hs))

theorem fieldType?_union {key : String} {name : Option String} {members : List Shape}
    {t : FieldType} (h : fieldType? .common key (.union name members) = some t) :
    t = .oneOf (fieldTypes .common key members) ∧
      forall m, m ∈ members -> exists u, m.fieldType? .common key = some u := by
  rw [fieldType?] at h
  split at h
  · rename_i hkey
    cases h
    refine ⟨rfl, ?_⟩
    intro m hm
    exact exists_fieldType?_of_hasKey ((hasKey_union_common.mp hkey).2 m hm)
  · cases h

/-!
# Policies

The two policies read the same types from the members that have a key.
-/

theorem fieldTypes_congr {policy other : KeyPolicy} {key : String} {shapes : List Shape}
    (h : forall s, s ∈ shapes -> s.fieldType? policy key = s.fieldType? other key) :
    fieldTypes policy key shapes = fieldTypes other key shapes := by
  induction shapes with
  | nil => rfl
  | cons s rest ih =>
      rw [fieldTypes, fieldTypes, h s List.mem_cons_self,
        ih fun m hm => h m (List.mem_cons_of_mem s hm)]

theorem fieldType?_any_of_common {key : String} {s : Shape} {t : FieldType}
    (h : s.fieldType? .common key = some t) : s.fieldType? .any key = some t := by
  induction s using memberInduction generalizing t with
  | object name fields => exact h
  | union name members ih =>
      have hkey : hasKey .common key (.union name members) = true :=
        isSome_fieldType?_iff.mp (Option.isSome_iff_exists.mpr ⟨t, h⟩)
      rcases List.exists_mem_of_ne_nil members (hasKey_union_common.mp hkey).1 with ⟨first, hfirst⟩
      rcases fieldType?_union h with ⟨rfl, hall⟩
      have hmembers : forall m, m ∈ members ->
          m.fieldType? .any key = m.fieldType? .common key := by
        intro m hm
        rcases hall m hm with ⟨u, hu⟩
        rw [hu, ih m hm hu]
      have hany : hasKey .any key (.union name members) = true := by
        rcases hall first hfirst with ⟨u, hu⟩
        refine hasKey_union_any.mpr ⟨first, hfirst, isSome_fieldType?_iff.mp ?_⟩
        rw [ih first hfirst hu]
        rfl
      rw [fieldType?, if_pos hany, fieldTypes_congr hmembers]
  | keyword word => cases h
  | literal value => cases h

/-!
# Listing, testing and checking agree

The three walks have been compared with the test one by one, and are tied
together here.
-/

/--
A key is listed when the test finds it, when it has a type and when it passes the
check, and otherwise the check says that it is invalid.  No key is listed twice.
The policy `any` has all keys of the policy `common`, with the same types.
-/
theorem listed_keys_are_the_checked_ones (s : Shape) (key : String) :
    (forall policy,
        (key ∈ s.keys policy <-> s.hasKey policy key = true) ∧
          (s.hasKey policy key = true <-> (s.fieldType? policy key).isSome = true) ∧
          (forall t, s.fieldType? policy key = some t <-> s.checkKey policy key = .ok t) ∧
          (s.fieldType? policy key = none <->
            s.checkKey policy key = .error (.invalidKey s.displayName key)) ∧
          (s.keys policy).Nodup) ∧
      (key ∈ s.keys .common -> key ∈ s.keys .any) ∧
      forall t, s.checkKey .common key = .ok t -> s.checkKey .any key = .ok t := by
  refine ⟨?_, ?_, ?_⟩
  · intro policy
    refine ⟨mem_keys_iff, isSome_fieldType?_iff.symm, fun _ => checkKey_eq_ok_iff.symm, ?_,
      nodup_keys policy s⟩
    rw [checkKey_eq_error_iff]
    simp
  · rw [mem_keys_iff, mem_keys_iff]
    intro hkey
    rcases exists_fieldType?_of_hasKey hkey with ⟨t, ht⟩
    apply isSome_fieldType?_iff.mp
    rw [fieldType?_any_of_common ht]
    rfl
  · intro t ht
    rw [checkKey_eq_ok_iff] at ht ⊢
    exact fieldType?_any_of_common ht

def nested : Shape :=
  .union (some "Nested")
    [.union none
      [.object none (.ofList [("id", .keyword .number)]),
        .object none (.ofList [("id", .keyword .string), ("tag", .keyword .null)])],
      .object none (.ofList [("size", .keyword .number), ("id", .keyword .number)])]

theorem listed_keys_are_the_checked_ones_nested :
    nested.keys .common = ["id"] ∧ nested.keys .any = ["id", "tag", "size"] ∧
      nested.checkKey .common "id" = .ok (.union [.keyword .number, .keyword .string]) ∧
      nested.checkKey .any "id" = .ok (.union [.keyword .number, .keyword .string]) ∧
      nested.checkKey .common "tag" = .error (.invalidKey "Nested" "tag") := by
  have hagree := listed_keys_are_the_checked_ones nested
  have htype : nested.fieldType? .common "id" =
      some (.union [.keyword .number, .keyword .string]) := rfl
  have hnone : nested.fieldType? .common "tag" = none := rfl
  have hcommon := (((hagree "id").1 .common).2.2.1 _).mp htype
  exact ⟨rfl, rfl, hcommon, (hagree "id").2.2 _ hcommon,
    ((hagree "tag").1 .common).2.2.2.1.mp hnone⟩

end Shape
end Shapes
