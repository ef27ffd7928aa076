import Shapes.Proofs.FieldType.Relabel
import Shapes.Proofs.Shape.Every
import Shapes.Proofs.Shape.Identity

/-!
# Shapes with other identifiers

Shapes mention identifiers in the types of their fields.  Unions, intersections
and keys of shapes can be taken before or after giving distinct shapes distinct
new identifiers.
-/

namespace Shapes
namespace Shape

section Relabel

variable (f : ShapeId -> ShapeId)

mutual

/-- A shape with other identifiers in the types of its fields. -/
def relabel : Shape -> Shape
  | object name fields => object name (fields.map (FieldType.relabel f))
  | union name members => union name (relabelAll members)
  | keyword word => keyword word
  | literal value => literal value

def relabelAll : List Shape -> List Shape
  | [] => []
  | s :: rest => relabel s :: relabelAll rest

end

theorem relabelAll_eq_map (shapes : List Shape) :
    relabelAll f shapes = shapes.map (relabel f) := by
  induction shapes with
  | nil => rfl
  | cons s rest ih => rw [relabelAll, ih, List.map_cons]

@[simp] theorem relabel_object (name : Option String) (fields : Table FieldType) :
    relabel f (object name fields) = object name (fields.map (FieldType.relabel f)) := rfl

@[simp] theorem relabel_keyword (word : Keyword) :
    relabel f (keyword word) = keyword word := rfl

@[simp] theorem relabel_literal (value : Literal) :
    relabel f (literal value) = literal value := rfl

@[simp] theorem relabel_union (name : Option String) (members : List Shape) :
    relabel f (union name members) = union name (members.map (relabel f)) := by
  rw [relabel, relabelAll_eq_map]

theorem relabel_relabel (g : ShapeId -> ShapeId) (s : Shape) :
    (s.relabel f).relabel g = s.relabel (g ∘ f) := by
  induction s using memberInduction with
  | object name fields => simp [Table.map_map, FieldType.relabel_relabel]
  | keyword | literal => rfl
  | union name members ih => simpa using ih

theorem relabel_id (s : Shape) : s.relabel id = s := by
  induction s using memberInduction with
  | object name fields =>
      have hid : FieldType.relabel id = fun t => t := funext FieldType.relabel_id
      simp [hid, Table.map_eq_self]
  | keyword | literal => rfl
  | union name members ih =>
      simpa using (List.map_congr_left ih).trans (List.map_id members)

theorem relabel_rename (s : Shape) (name : String) :
    (s.rename name).relabel f = (s.relabel f).rename name := by
  cases s <;> simp [rename]

@[simp] theorem displayName_relabel (s : Shape) : (s.relabel f).displayName = s.displayName := by
  cases s with
  | object name fields => cases name <;> rfl
  | union name members => cases name <;> simp [displayName, name?]
  | keyword | literal => rfl

variable {f} (hf : Function.Injective f)

include hf

/-!
# Identity

Fields are compared by name and type, and distinct identifiers stay distinct.
-/

theorem sameFields_relabel (a b : Table FieldType) :
    sameFields (a.map (FieldType.relabel f)) (b.map (FieldType.relabel f)) = sameFields a b := by
  simp [sameFields, Function.comp_def, Option.any_map, FieldType.same_relabel hf]

theorem same_relabel (a b : Shape) : (a.relabel f).same (b.relabel f) = a.same b := by
  induction a using memberInduction generalizing b with
  | object name fields => cases b <;> simp [same, sameFields_relabel hf]
  | keyword | literal => cases b <;> simp [same]
  | union name members ih =>
      cases b with
      | union other others =>
          apply Bool.eq_iff_iff.mpr
          rw [relabel_union, relabel_union, same_union_iff, same_union_iff]
          exact matching_map ih
      | object | keyword | literal => simp [same]

/-!
# Unions

The members of a union are compared, and that is all that is done with them.
-/

omit hf in
theorem unionParts_relabel (s : Shape) :
    (s.relabel f).unionParts = s.unionParts.map (relabel f) := by
  cases s <;> simp [unionParts]

theorem unite_relabel (shapes : List Shape) :
    unite (shapes.map (relabel f)) = relabel f <$> unite shapes := by
  have hparts : (shapes.map (relabel f)).flatMap unionParts =
      (shapes.flatMap unionParts).map (relabel f) := by
    rw [List.flatMap_map, List.map_flatMap]
    simp only [unionParts_relabel]
  unfold unite
  rw [hparts, distinctBy_map (same_relabel hf), List.isEmpty_map]
  split
  · rfl
  · rcases distinctBy same (shapes.flatMap unionParts) with _ | ⟨s, _ | ⟨t, rest⟩⟩
    · rfl
    · rfl
    · simp

/-!
# Intersections

Leaves have no identifiers, and fields meet as types do.
-/

theorem meetField_relabel (fields : Table FieldType) (entry : String × FieldType) :
    meetField (fields.map (FieldType.relabel f)) (entry.1, entry.2.relabel f) =
      Table.map (FieldType.relabel f) <$> meetField fields entry := by
  unfold meetField
  rw [Table.get?_map]
  cases fields.get? entry.1 with
  | none => simp [Table.map_insert]
  | some present =>
      simp only [Option.map_some, FieldType.meet?_relabel hf]
      cases present.meet? entry.2 <;> simp [Table.map_insert]
      rfl

theorem mergeFields_relabel (a b : Table FieldType) :
    mergeFields (a.map (FieldType.relabel f)) (b.map (FieldType.relabel f)) =
      relabel f <$> mergeFields a b := by
  unfold mergeFields
  rw [Table.entries_map, foldlM_map_map (meetField_relabel hf)]
  simp

omit hf in
@[simp] theorem leaf?_relabel (s : Shape) : (s.relabel f).leaf? = s.leaf? := by
  cases s <;> simp [leaf?]

omit hf in
theorem relabel_ofLeaf? {t : FieldType} {s : Shape} (h : ofLeaf? t = some s) :
    s.relabel f = s := by
  cases t <;> cases h <;> rfl

omit hf in
theorem meetLeaves_relabel (a b : Shape) :
    meetLeaves (a.relabel f) (b.relabel f) = relabel f <$> meetLeaves a b := by
  unfold meetLeaves
  rw [leaf?_relabel, leaf?_relabel]
  split
  · split
    · rename_i found hfound
      rcases Option.bind_eq_some_iff.mp hfound with ⟨t, _, ht⟩
      simp [relabel_ofLeaf? ht]
    · rfl
  · rfl

theorem intersectSimple_relabel (a b : Shape) :
    intersectSimple (a.relabel f) (b.relabel f) = relabel f <$> intersectSimple a b := by
  cases a with
  | object name fields =>
      cases b with
      | object other others => exact mergeFields_relabel hf fields others
      | keyword word => cases word <;> rfl
      | union | literal => simp [intersectSimple, ← meetLeaves_relabel]
  | union name members =>
      cases b with
      | keyword word => cases word <;> simp [intersectSimple, ← meetLeaves_relabel]
      | object | union | literal => simp [intersectSimple, ← meetLeaves_relabel]
  | keyword word =>
      cases b with
      | keyword other => cases word <;> cases other <;> simp [intersectSimple, ← meetLeaves_relabel]
      | object | union | literal => cases word <;> simp [intersectSimple, ← meetLeaves_relabel]
  | literal value =>
      cases b with
      | keyword word => cases word <;> simp [intersectSimple, ← meetLeaves_relabel]
      | object | union | literal => simp [intersectSimple, ← meetLeaves_relabel]

theorem unite_branches_relabel {meet g : Shape -> Except Failure Shape}
    {members : List Shape}
    (h : forall m, m ∈ members -> g (m.relabel f) = relabel f <$> meet m) :
    (members.map (relabel f)).mapM g >>= unite =
      relabel f <$> (members.mapM meet >>= unite) := by
  rw [mapM_map_map h]
  simp [unite_relabel hf]

theorem intersectLeft_relabel (right left : Shape) :
    intersectLeft (right.relabel f) (left.relabel f) =
      relabel f <$> intersectLeft right left := by
  induction left using memberInduction with
  | object | keyword | literal => exact intersectSimple_relabel hf _ right
  | union name members ih =>
      have hbranches := unite_branches_relabel hf ih
      rw [← intersectLefts_eq_mapM, ← intersectLefts_eq_mapM] at hbranches
      rw [relabel_union]
      cases right with
      | keyword word =>
          cases word with
          | unknown => simp [intersectLeft]
          | _ => exact hbranches
      | union other others =>
          rw [relabel_union] at hbranches ⊢
          exact hbranches
      | object | literal => exact hbranches

theorem intersectPair_relabel_of_ne_union {left : Shape}
    (hleft : forall name members, left ≠ union name members) (right : Shape) :
    intersectPair (left.relabel f) (right.relabel f) =
      relabel f <$> intersectPair left right := by
  cases right with
  | union name members =>
      have hmember : forall m, m ∈ members -> intersectLeft (left.relabel f) (m.relabel f) =
          relabel f <$> intersectLeft left m :=
        fun m _ => intersectLeft_relabel hf left m
      have hbranches := unite_branches_relabel hf hmember
      rw [← intersectLefts_eq_mapM, ← intersectLefts_eq_mapM] at hbranches
      rw [relabel_union]
      cases left with
      | union other others => exact absurd rfl (hleft other others)
      | keyword word =>
          cases word with
          | unknown => simp [intersectPair]
          | _ => exact hbranches
      | object | literal => exact hbranches
  | object | keyword | literal =>
      rw [intersectPair_of_ne_union hleft (by simp), ← intersectSimple_relabel hf]
      cases left with
      | union other others => exact absurd rfl (hleft other others)
      | object | keyword | literal => exact intersectPair_of_ne_union (by simp) (by simp)

theorem intersectPair_relabel (left right : Shape) :
    intersectPair (left.relabel f) (right.relabel f) =
      relabel f <$> intersectPair left right := by
  induction left using memberInduction with
  | union name members ih =>
      have hbranches := unite_branches_relabel hf
        (g := fun s => intersectPair s (right.relabel f)) ih
      rw [← intersectPairs_eq_mapM, ← intersectPairs_eq_mapM] at hbranches
      rw [relabel_union]
      cases right with
      | keyword word =>
          cases word with
          | unknown => simp [intersectPair]
          | _ => exact hbranches
      | union other others =>
          rw [relabel_union] at hbranches ⊢
          exact hbranches
      | object | literal => exact hbranches
  | object | keyword | literal => exact intersectPair_relabel_of_ne_union hf (by simp) right

theorem intersect_relabel (shapes : List Shape) :
    intersect (shapes.map (relabel f)) = relabel f <$> intersect shapes := by
  cases shapes with
  | nil => rfl
  | cons first rest => exact foldlM_map_map (intersectPair_relabel hf) rest first

/-!
# Keys

Keys are names, and the type of a key is put together in the same way under
other identifiers.
-/

section Keys

omit hf

variable (policy : KeyPolicy) (key : String)

mutual

@[simp] theorem hasKey_relabel : forall (policy : KeyPolicy) (s : Shape),
    hasKey policy key (s.relabel f) = hasKey policy key s
  | _, .object name fields => Table.contains_map _ fields key
  | .common, .union name members => by
      rw [relabel_union, hasKey, hasKey, List.isEmpty_map, allHaveKey_relabel .common members]
  | .any, .union name members => by
      rw [relabel_union, hasKey, hasKey, someHasKey_relabel .any members]
  | _, .keyword _ => rfl
  | _, .literal _ => rfl

theorem allHaveKey_relabel : forall (policy : KeyPolicy) (shapes : List Shape),
    allHaveKey policy key (shapes.map (relabel f)) = allHaveKey policy key shapes
  | _, [] => rfl
  | policy, s :: rest => by
      rw [List.map_cons, allHaveKey, allHaveKey, hasKey_relabel policy s,
        allHaveKey_relabel policy rest]

theorem someHasKey_relabel : forall (policy : KeyPolicy) (shapes : List Shape),
    someHasKey policy key (shapes.map (relabel f)) = someHasKey policy key shapes
  | _, [] => rfl
  | policy, s :: rest => by
      rw [List.map_cons, someHasKey, someHasKey, hasKey_relabel policy s,
        someHasKey_relabel policy rest]

end

mutual

theorem keys_relabel : forall (policy : KeyPolicy) (s : Shape),
    keys policy (s.relabel f) = keys policy s
  | _, .object name fields => Table.keys_map _ fields
  | .common, .union name members => by
      rw [relabel_union, keys, keys, commonKeys_relabel members]
  | .any, .union name members => by
      rw [relabel_union, keys, keys, allKeys_relabel .any members]
  | _, .keyword _ => rfl
  | _, .literal _ => rfl

theorem commonKeys_relabel : forall shapes : List Shape,
    commonKeys (shapes.map (relabel f)) = commonKeys shapes
  | [] => rfl
  | s :: rest => by
      rw [List.map_cons, commonKeys, commonKeys, keys_relabel .common s]
      simp only [allHaveKey_relabel]

theorem allKeys_relabel : forall (policy : KeyPolicy) (shapes : List Shape),
    allKeys policy (shapes.map (relabel f)) = allKeys policy shapes
  | _, [] => rfl
  | policy, s :: rest => by
      rw [List.map_cons, allKeys, allKeys, keys_relabel policy s, allKeys_relabel policy rest]

end

mutual

theorem fieldType?_relabel (hf : Function.Injective f) : forall s : Shape,
    fieldType? policy key (s.relabel f) = (fieldType? policy key s).map (FieldType.relabel f)
  | .object name fields => Table.get?_map _ fields key
  | .union name members => by
      rw [relabel_union, fieldType?, fieldType?, ← relabel_union, hasKey_relabel,
        fieldTypes_relabel hf members, FieldType.oneOf_relabel hf]
      split <;> rfl
  | .keyword _ => rfl
  | .literal _ => rfl

theorem fieldTypes_relabel (hf : Function.Injective f) : forall shapes : List Shape,
    fieldTypes policy key (shapes.map (relabel f)) =
      (fieldTypes policy key shapes).map (FieldType.relabel f)
  | [] => rfl
  | s :: rest => by
      rw [List.map_cons, fieldTypes, fieldTypes, fieldType?_relabel hf s,
        fieldTypes_relabel hf rest, List.map_append]
      cases fieldType? policy key s <;> rfl

end

include hf

theorem checkKey_relabel (s : Shape) :
    checkKey policy (s.relabel f) key = FieldType.relabel f <$> checkKey policy s key := by
  unfold checkKey
  rw [fieldType?_relabel policy key hf, displayName_relabel]
  cases fieldType? policy key s <;> rfl

theorem access_relabel {α : Type} (s : Shape) (members : List (String × α)) :
    access policy (s.relabel f) members key = access policy s members key := by
  unfold access
  rw [checkKey_relabel hf policy key]
  simp

end Keys

end Relabel

end Shape
end Shapes
