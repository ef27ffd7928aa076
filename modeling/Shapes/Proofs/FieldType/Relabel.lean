import Mathlib.Data.List.Basic
import Shapes.Proofs.FieldType.Every
import Shapes.Registry.Render

/-!
# Other identifiers

A type refers to shapes by their identifiers, and `FieldType.relabel` gives them
other ones.  Nothing that is done with types looks at identifiers but to compare
them, so everything can be done before or after giving distinct shapes distinct
new identifiers.
-/

namespace Shapes

theorem matching_map {α β : Type} {related : α -> α -> Bool} {related' : β -> β -> Bool}
    {g : α -> β} {as bs : List α}
    (h : forall a, a ∈ as -> forall b, related' (g a) (g b) = related a b) :
    ((forall a, a ∈ as.map g -> exists b, b ∈ bs.map g ∧ related' a b = true) ∧
        forall b, b ∈ bs.map g -> exists a, a ∈ as.map g ∧ related' a b = true) <->
      (forall a, a ∈ as -> exists b, b ∈ bs ∧ related a b = true) ∧
        forall b, b ∈ bs -> exists a, a ∈ as ∧ related a b = true := by
  simp only [List.mem_map, exists_exists_and_eq_and, forall_exists_index, and_imp,
    forall_apply_eq_imp_iff₂]
  apply and_congr
  · apply forall₂_congr
    intro a ha
    simp only [h a ha]
  · apply forall₂_congr
    intro b _
    apply exists_congr
    intro a
    apply and_congr_right
    intro ha
    rw [h a ha]

theorem foldlM_map_map {m : Type -> Type} [Monad m] [LawfulMonad m] {α α' β β' : Type}
    {g : α -> α'} {h : β -> β'} {step : β -> α -> m β} {step' : β' -> α' -> m β'}
    (hstep : forall b a, step' (h b) (g a) = h <$> step b a) (list : List α) (b : β) :
    (list.map g).foldlM step' (h b) = h <$> list.foldlM step b := by
  induction list generalizing b with
  | nil => simp
  | cons a rest ih => simp [hstep, ih]

theorem mapM_map_map {m : Type -> Type} [Monad m] [LawfulMonad m] {α α' β β' : Type}
    {g : α -> α'} {h : β -> β'} {step : α -> m β} {step' : α' -> m β'} {list : List α}
    (hstep : forall a, a ∈ list -> step' (g a) = h <$> step a) :
    (list.map g).mapM step' = List.map h <$> list.mapM step := by
  induction list with
  | nil => simp
  | cons a rest ih =>
      have hrest := ih fun b hb => hstep b (List.mem_cons_of_mem a hb)
      simp [hstep a List.mem_cons_self, hrest]

namespace FieldType

section Relabel

variable (f : ShapeId -> ShapeId)

mutual

/-- A type with other identifiers. -/
def relabel : FieldType -> FieldType
  | keyword word => keyword word
  | reference id => reference (f id)
  | union members => union (relabelAll members)
  | intersection members => intersection (relabelAll members)
  | literal value => literal value

def relabelAll : List FieldType -> List FieldType
  | [] => []
  | t :: rest => relabel t :: relabelAll rest

end

theorem relabelAll_eq_map (types : List FieldType) :
    relabelAll f types = types.map (relabel f) := by
  induction types with
  | nil => rfl
  | cons t rest ih => rw [relabelAll, ih, List.map_cons]

@[simp] theorem relabel_keyword (word : Keyword) :
    relabel f (keyword word) = keyword word := rfl

@[simp] theorem relabel_reference (id : ShapeId) :
    relabel f (reference id) = reference (f id) := rfl

@[simp] theorem relabel_literal (value : Literal) :
    relabel f (literal value) = literal value := rfl

@[simp] theorem relabel_union (members : List FieldType) :
    relabel f (union members) = union (members.map (relabel f)) := by
  rw [relabel, relabelAll_eq_map]

@[simp] theorem relabel_intersection (members : List FieldType) :
    relabel f (intersection members) = intersection (members.map (relabel f)) := by
  rw [relabel, relabelAll_eq_map]

theorem relabel_relabel (g : ShapeId -> ShapeId) (t : FieldType) :
    (t.relabel f).relabel g = t.relabel (g ∘ f) := by
  induction t using memberInduction with
  | keyword | reference | literal => rfl
  | union members ih | intersection members ih => simpa using ih

theorem relabel_id (t : FieldType) : t.relabel id = t := by
  induction t using memberInduction with
  | keyword | reference | literal => rfl
  | union members ih | intersection members ih =>
      simpa using (List.map_congr_left ih).trans (List.map_id members)

variable {f} (hf : Function.Injective f)

include hf

theorem relabel_injective : Function.Injective (relabel f) := by
  have : Nonempty ShapeId := ⟨⟨0⟩⟩
  rcases hf.hasLeftInverse with ⟨g, hg⟩
  intro t u h
  have hback := congrArg (relabel g) h
  rwa [relabel_relabel, relabel_relabel, hg.comp_eq_id, relabel_id, relabel_id] at hback

/-!
# Identity

Distinct identifiers stay distinct, so identity and everything that asks for it
is unchanged.
-/

theorem same_relabel (a b : FieldType) : (a.relabel f).same (b.relabel f) = a.same b := by
  induction a using memberInduction generalizing b with
  | keyword word => cases b <;> simp [same]
  | reference id => cases b <;> simp [same, hf.eq_iff]
  | literal value => cases b <;> simp [same]
  | union members ih =>
      cases b with
      | union others =>
          apply Bool.eq_iff_iff.mpr
          rw [relabel_union, relabel_union, same_union_iff, same_union_iff]
          exact matching_map ih
      | keyword | reference | intersection | literal => simp [same]
  | intersection members ih =>
      cases b with
      | intersection others =>
          apply Bool.eq_iff_iff.mpr
          rw [relabel_intersection, relabel_intersection, same_intersection_iff,
            same_intersection_iff]
          exact matching_map ih
      | keyword | reference | union | literal => simp [same]

theorem plainMeet?_relabel (a b : FieldType) :
    plainMeet? (a.relabel f) (b.relabel f) = (plainMeet? a b).map (relabel f) := by
  unfold plainMeet?
  rw [same_relabel hf]
  split
  · rfl
  · cases a <;> cases b <;> simp <;> (split <;> simp_all)

theorem leafMeet?_relabel (a b : FieldType) :
    leafMeet? (a.relabel f) (b.relabel f) = (leafMeet? a b).map (relabel f) := by
  unfold leafMeet?
  rw [plainMeet?_relabel hf]
  cases plainMeet? a b with
  | some t => rfl
  | none => cases a <;> cases b <;> simp

omit hf in
theorem intersectionParts_relabel (t : FieldType) :
    (t.relabel f).intersectionParts = t.intersectionParts.map (relabel f) := by
  induction t using memberInduction with
  | keyword | reference | literal => rfl
  | union members _ => simp [intersectionParts]
  | intersection members ih =>
      rw [relabel_intersection, intersectionParts, intersectionParts]
      induction members with
      | nil => rfl
      | cons t rest ihrest =>
          rw [List.map_cons, allIntersectionParts, allIntersectionParts, List.map_append,
            ih t List.mem_cons_self, ihrest fun m hm => ih m (List.mem_cons_of_mem t hm)]

omit hf in
@[simp] theorem isLeaf_relabel (t : FieldType) : (t.relabel f).isLeaf = t.isLeaf := by
  cases t <;> simp [isLeaf]

theorem leavesMeet?_relabel (leaves : List FieldType) :
    leavesMeet? (leaves.map (relabel f)) =
      (leavesMeet? leaves).map fun leaf => leaf.map (relabel f) := by
  cases leaves with
  | nil => rfl
  | cons leaf rest =>
      rw [List.map_cons, leavesMeet?, leavesMeet?, foldlM_map_map (leafMeet?_relabel hf),
        Option.map_eq_map, Option.map_map, Option.map_map]
      rfl

omit hf in
theorem allOf_relabel (types : List FieldType) :
    allOf (types.map (relabel f)) = (allOf types).relabel f := by
  rcases types with _ | ⟨t, _ | ⟨u, rest⟩⟩
  · rfl
  · rfl
  · simp [allOf]

theorem keptMeet?_relabel (a b : FieldType) :
    keptMeet? (a.relabel f) (b.relabel f) = (keptMeet? a b).map (relabel f) := by
  have hleaf : isLeaf ∘ relabel f = isLeaf := funext isLeaf_relabel
  have hkept : (fun t => !isLeaf t) ∘ relabel f = fun t => !isLeaf t := by
    funext t
    simp
  unfold keptMeet?
  dsimp only
  rw [intersectionParts_relabel, intersectionParts_relabel, ← List.map_append,
    List.filter_map, List.filter_map, hleaf, hkept, distinctBy_map (same_relabel hf),
    leavesMeet?_relabel hf, Option.map_map, Option.map_map]
  congr 1
  funext leaf
  cases leaf <;> simp [← allOf_relabel]

theorem simpleMeet?_relabel (a b : FieldType) :
    simpleMeet? (a.relabel f) (b.relabel f) = (simpleMeet? a b).map (relabel f) := by
  unfold simpleMeet?
  rw [isLeaf_relabel, isLeaf_relabel, leafMeet?_relabel hf, plainMeet?_relabel hf,
    keptMeet?_relabel hf]
  split
  · rfl
  · cases plainMeet? a b <;> rfl

/-!
# Unions

The members of a union are opened, compared and put together in the same way
under other identifiers.
-/

omit hf in
theorem unionParts_relabel (t : FieldType) :
    (t.relabel f).unionParts = t.unionParts.map (relabel f) := by
  cases t with
  | keyword word => cases word <;> rfl
  | reference | literal => rfl
  | union | intersection => simp [unionParts]

theorem oneOf_relabel (types : List FieldType) :
    oneOf (types.map (relabel f)) = (oneOf types).relabel f := by
  have hparts : (types.map (relabel f)).flatMap unionParts =
      (types.flatMap unionParts).map (relabel f) := by
    rw [List.flatMap_map, List.map_flatMap]
    simp only [unionParts_relabel]
  unfold oneOf
  rw [hparts, distinctBy_map (same_relabel hf)]
  rcases distinctBy same (types.flatMap unionParts) with _ | ⟨t, _ | ⟨u, rest⟩⟩
  · rfl
  · rfl
  · simp

theorem branches?_relabel (found : List FieldType) :
    branches? (found.map (relabel f)) = (branches? found).map (relabel f) := by
  unfold branches?
  rw [oneOf_relabel hf, List.isEmpty_map]
  split <;> rfl

theorem branches?_flatMap_relabel {meet g : FieldType -> Option FieldType}
    {members : List FieldType}
    (h : forall m, m ∈ members -> g (m.relabel f) = (meet m).map (relabel f)) :
    branches? ((members.map (relabel f)).flatMap fun m => (g m).toList) =
      (branches? (members.flatMap fun m => (meet m).toList)).map (relabel f) := by
  rw [← branches?_relabel hf, List.flatMap_map, List.map_flatMap]
  congr 1
  apply List.flatMap_congr
  intro m hm
  rw [h m hm]
  cases meet m <;> rfl

omit hf in
theorem relabel_ne_union {t : FieldType} (h : forall members, t ≠ union members) :
    forall members, t.relabel f ≠ union members := by
  cases t with
  | union members => exact absurd rfl (h members)
  | keyword | reference | intersection | literal => simp

theorem meetSimple?_relabel (right left : FieldType) :
    meetSimple? (right.relabel f) (left.relabel f) = (meetSimple? right left).map (relabel f) := by
  induction left using memberInduction with
  | union members ih =>
      rw [relabel_union, meetSimple?, meetSimple?, ← relabel_union, plainMeet?_relabel hf,
        meetsSimple_eq_flatMap, meetsSimple_eq_flatMap, branches?_flatMap_relabel hf ih]
      cases plainMeet? (union members) right <;> rfl
  | keyword | reference | intersection | literal =>
      rw [meetSimple?, meetSimple?]
      · exact simpleMeet?_relabel hf _ right
      · simp
      · exact relabel_ne_union (by simp)

theorem meet?_relabel_of_ne_union {left : FieldType}
    (hleft : forall members, left ≠ union members) (right : FieldType) :
    meet? (left.relabel f) (right.relabel f) = (meet? left right).map (relabel f) := by
  cases right with
  | union members =>
      rw [relabel_union, meet?, meet?, ← relabel_union, plainMeet?_relabel hf,
        meetsSimple_eq_flatMap, meetsSimple_eq_flatMap,
        branches?_flatMap_relabel hf fun m _ => meetSimple?_relabel hf left m]
      · cases plainMeet? left (union members) <;> rfl
      · exact hleft
      · exact relabel_ne_union hleft
  | keyword | reference | intersection | literal =>
      rw [meet?, meet?]
      · exact simpleMeet?_relabel hf left _
      · exact hleft
      · simp
      · exact relabel_ne_union hleft
      · exact relabel_ne_union (by simp)

theorem meet?_relabel (left right : FieldType) :
    meet? (left.relabel f) (right.relabel f) = (meet? left right).map (relabel f) := by
  induction left using memberInduction with
  | union members ih =>
      rw [relabel_union, meet?, meet?, ← relabel_union, plainMeet?_relabel hf,
        meets_eq_flatMap, meets_eq_flatMap,
        branches?_flatMap_relabel hf (g := fun m => meet? m (right.relabel f)) ih]
      cases plainMeet? (union members) right <;> rfl
  | keyword | reference | intersection | literal =>
      exact meet?_relabel_of_ne_union hf (by simp) right

/-!
# Missing fields

References admit no missing member, whatever their identifiers are.
-/

omit hf in
@[simp] theorem admitsUndefined_relabel (t : FieldType) :
    (t.relabel f).admitsUndefined = t.admitsUndefined := by
  induction t using memberInduction with
  | keyword | reference | literal => rfl
  | union members ih =>
      apply Bool.eq_iff_iff.mpr
      simp only [relabel_union, admitsUndefined_union, List.mem_map, exists_exists_and_eq_and]
      apply exists_congr
      intro m
      apply and_congr_right
      intro hm
      rw [ih m hm]
  | intersection members ih =>
      apply Bool.eq_iff_iff.mpr
      simp only [relabel_intersection, admitsUndefined_intersection, List.forall_mem_map]
      apply forall₂_congr
      intro m hm
      rw [ih m hm]

/-!
# Texts

A text shows names in place of identifiers, and the names move along with the
identifiers.
-/

omit hf in
theorem texts_eq_map (nameOf : ShapeId -> String) (types : List FieldType) :
    texts nameOf types = types.map (text nameOf) := by
  induction types with
  | nil => rfl
  | cons t rest ih => rw [texts, ih, List.map_cons]

/-- The text of a type as a member of an intersection. -/
def groupedText (nameOf : ShapeId -> String) : FieldType -> String
  | union members => "(" ++ text nameOf (union members) ++ ")"
  | t => text nameOf t

omit hf in
theorem groupedTexts_eq_map (nameOf : ShapeId -> String) (types : List FieldType) :
    groupedTexts nameOf types = types.map (groupedText nameOf) := by
  induction types with
  | nil => rfl
  | cons t rest ih =>
      rw [List.map_cons, ← ih]
      cases t <;> rfl

omit hf in
theorem text_relabel (nameOf : ShapeId -> String) (t : FieldType) :
    (t.relabel f).text nameOf = t.text (nameOf ∘ f) := by
  induction t using memberInduction with
  | keyword | reference | literal => rfl
  | union members ih =>
      rw [relabel_union, text, text, texts_eq_map, texts_eq_map, List.map_map]
      exact congrArg _ (List.map_congr_left ih)
  | intersection members ih =>
      have hgrouped : forall m, m ∈ members ->
          groupedText nameOf (m.relabel f) = groupedText (nameOf ∘ f) m := by
        intro m hm
        have htext := ih m hm
        cases m with
        | union => simpa [groupedText] using htext
        | keyword | reference | intersection | literal => simpa [groupedText] using htext
      rw [relabel_intersection, text, text, groupedTexts_eq_map, groupedTexts_eq_map,
        List.map_map]
      exact congrArg _ (List.map_congr_left hgrouped)

end Relabel

end FieldType
end Shapes
