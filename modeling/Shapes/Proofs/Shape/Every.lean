import Shapes.Proofs.FieldType.Every
import Shapes.Proofs.Running
import Shapes.Proofs.Shape.Identity
import Shapes.Shape.Combine

/-!
# What holds all over a shape

`Shape.Every` asks something of all types that a shape mentions.  The results of
the algebra of shapes mention what their operands do, up to the few types that
meets and unions make of themselves.

`Shape.intersectPair_induction` takes the intersection of two shapes apart once
and for all: unions are distributed until simple shapes are left.
-/

namespace Shapes

theorem mem_of_mapM_eq_ok {α β : Type} {f : α -> Except Failure β} {list : List α}
    {results : List β} (h : list.mapM f = .ok results) {b : β} :
    b ∈ results <-> exists a, a ∈ list ∧ f a = .ok b := by
  induction list generalizing results with
  | nil =>
      cases h
      simp
  | cons a rest ih =>
      rw [List.mapM_cons] at h
      cases hfirst : f a with
      | error failure =>
          rw [hfirst] at h
          cases h
      | ok first =>
          rw [hfirst] at h
          cases hothers : rest.mapM f with
          | error failure =>
              rw [hothers] at h
              cases h
          | ok others =>
              rw [hothers] at h
              cases h
              rw [List.mem_cons, ih hothers]
              simp [hfirst, eq_comm]

theorem exists_of_mapM_eq_ok {α β : Type} {f : α -> Except Failure β} {list : List α}
    {results : List β} (h : list.mapM f = .ok results) :
    forall a, a ∈ list -> exists b, f a = .ok b := by
  induction list generalizing results with
  | nil =>
      intro a ha
      cases ha
  | cons first rest ih =>
      rw [List.mapM_cons] at h
      cases hfirst : f first with
      | error failure =>
          rw [hfirst] at h
          cases h
      | ok b =>
          rw [hfirst] at h
          cases hothers : rest.mapM f with
          | error failure =>
              rw [hothers] at h
              cases h
          | ok others =>
              intro a ha
              rcases List.mem_cons.mp ha with rfl | ha
              · exact ⟨b, hfirst⟩
              · exact ih hothers a ha

theorem exists_of_mapM_eq_error {α β : Type} {f : α -> Except Failure β} {list : List α}
    {failure : Failure} (h : list.mapM f = .error failure) :
    exists a, a ∈ list ∧ f a = .error failure := by
  induction list with
  | nil => cases h
  | cons a rest ih =>
      rw [List.mapM_cons] at h
      cases hfirst : f a with
      | error failure' =>
          rw [hfirst] at h
          cases h
          exact ⟨a, List.mem_cons_self, hfirst⟩
      | ok b =>
          rw [hfirst] at h
          cases hothers : rest.mapM f with
          | ok others =>
              rw [hothers] at h
              cases h
          | error failure' =>
              rw [hothers] at h
              cases h
              rcases ih hothers with ⟨a', ha', hfails⟩
              exact ⟨a', List.mem_cons_of_mem a ha', hfails⟩

namespace Shape

mutual

/-- All types that a shape mentions have a property, and so has all they mention. -/
def Every (p : FieldType -> Prop) : Shape -> Prop
  | object _ fields => fields.All (FieldType.Every p)
  | union _ members => AllEvery p members
  | keyword word => p (.keyword word)
  | literal value => p (.literal value)

def AllEvery (p : FieldType -> Prop) : List Shape -> Prop
  | [] => True
  | s :: rest => Every p s ∧ AllEvery p rest

end

/-!
# Intersections taken apart

To show something of every intersection it is enough to look at simple shapes,
at `unknown`, and at the two ways in which a union is distributed.
-/

theorem intersectLefts_eq_mapM (right : Shape) (shapes : List Shape) :
    intersectLefts right shapes = shapes.mapM (intersectLeft right) := by
  induction shapes with
  | nil => rfl
  | cons s rest ih =>
      rw [intersectLefts, List.mapM_cons, ih]

theorem intersectPairs_eq_mapM (right : Shape) (shapes : List Shape) :
    intersectPairs shapes right = shapes.mapM fun s => intersectPair s right := by
  induction shapes with
  | nil => rfl
  | cons s rest ih =>
      rw [intersectPairs, List.mapM_cons, ih]

/-- A shape that is not a union. -/
def Single (s : Shape) : Prop :=
  forall name members, s ≠ .union name members

instance : DecidablePred Single
  | union name members => isFalse fun h => h name members rfl
  | object _ _ | keyword _ | literal _ => isTrue (by simp [Single])

theorem Single.cases {s : Shape} (h : s.Single) :
    (exists name fields, s = .object name fields) ∨ exists t, s.leaf? = some t := by
  cases s with
  | object name fields => exact Or.inl ⟨name, fields, rfl⟩
  | union name members => exact absurd rfl (h name members)
  | keyword word => exact Or.inr ⟨_, rfl⟩
  | literal value => exact Or.inr ⟨_, rfl⟩

theorem isLeaf_of_leaf? {s : Shape} {t : FieldType} (h : s.leaf? = some t) : t.isLeaf = true := by
  cases s with
  | keyword | literal =>
      cases h
      rfl
  | object | union => cases h

theorem intersectPair_of_ne_union {left right : Shape}
    (hleft : forall name members, left ≠ union name members)
    (hright : forall name members, right ≠ union name members) :
    intersectPair left right = intersectSimple left right := by
  rw [intersectPair]
  · exact hleft
  · exact hright

section IntersectInduction

variable {motive : Shape -> Shape -> Except Failure Shape -> Prop}
  (hsimple : forall a b, a.Single -> b.Single -> motive a b (intersectSimple a b))
  (hunknown : forall a, motive a (.keyword .unknown) (.ok a))
  (hleft : forall name members b (meet : Shape -> Except Failure Shape),
    (forall m, m ∈ members -> motive m b (meet m)) ->
      motive (.union name members) b (members.mapM meet >>= unite))

include hsimple hunknown hleft

theorem intersectLeft_induction (a : Shape) {b : Shape} (hb : b.Single) :
    motive a b (intersectLeft b a) := by
  induction a using memberInduction with
  | union name members ih =>
      unfold intersectLeft
      split
      · exact hunknown _
      · rw [intersectLefts_eq_mapM]
        exact hleft name members b (intersectLeft b) ih
  | object | keyword | literal =>
      rw [intersectLeft]
      · exact hsimple _ _ (by simp [Single]) hb
      · intro name members hunion
        cases hunion

theorem intersectPair_induction
    (hunknownLeft : forall b, motive (.keyword .unknown) b (.ok b))
    (hright : forall a name members (meet : Shape -> Except Failure Shape),
      (forall m, m ∈ members -> motive m a (meet m)) ->
        motive a (.union name members) (members.mapM meet >>= unite))
    (a b : Shape) : motive a b (intersectPair a b) := by
  have hdistribute : forall {a : Shape}, a.Single -> forall name members,
      motive a (.union name members) (intersectLefts a members >>= unite) := by
    intro a ha name members
    rw [intersectLefts_eq_mapM]
    apply hright a name members
    intro m _
    exact intersectLeft_induction hsimple hunknown hleft m ha
  induction a using memberInduction with
  | union name members ih =>
      unfold intersectPair
      split
      · exact hunknown _
      · rw [intersectPairs_eq_mapM]
        exact hleft name members b (fun m => intersectPair m b) ih
  | object | literal =>
      cases b with
      | union name members => exact hdistribute (by simp [Single]) name members
      | object | keyword | literal =>
          rw [intersectPair_of_ne_union (by simp) (by simp)]
          exact hsimple _ _ (by simp [Single]) (by simp [Single])
  | keyword word =>
      cases b with
      | union name members =>
          unfold intersectPair
          split
          · rename_i hword
            rw [hword]
            exact hunknownLeft _
          · exact hdistribute (by simp [Single]) name members
      | object | keyword | literal =>
          rw [intersectPair_of_ne_union (by simp) (by simp)]
          exact hsimple _ _ (by simp [Single]) (by simp [Single])

end IntersectInduction

section Every

variable {p : FieldType -> Prop}

theorem allEvery_iff {shapes : List Shape} :
    AllEvery p shapes <-> forall s, s ∈ shapes -> Every p s := by
  induction shapes with
  | nil => simp [AllEvery]
  | cons s rest ih => simp [AllEvery, ih]

theorem every_union_iff {name : Option String} {members : List Shape} :
    Every p (.union name members) <-> forall m, m ∈ members -> Every p m := by
  rw [Every, allEvery_iff]

theorem every_rename {s : Shape} (h : Every p s) (name : String) : Every p (s.rename name) := by
  cases s with
  | object => exact h
  | union => exact h
  | keyword => exact h
  | literal => exact h

/-!
# Unions

A union mentions the types of its members.
-/

theorem every_unite {shapes : List Shape} {s : Shape}
    (hshapes : forall x, x ∈ shapes -> Every p x) (h : unite shapes = .ok s) : Every p s := by
  have hmembers : forall m, m ∈ distinctBy same (shapes.flatMap unionParts) -> Every p m := by
    intro m hm
    rcases List.mem_flatMap.mp (mem_of_mem_distinctBy hm) with ⟨x, hx, hmx⟩
    cases x with
    | union name members => exact every_union_iff.mp (hshapes _ hx) m hmx
    | object | keyword | literal =>
        cases List.mem_singleton.mp hmx
        exact hshapes _ hx
  unfold unite at h
  split at h
  · cases h
  · split at h
    · rename_i only honly
      cases h
      apply hmembers
      rw [honly]
      exact List.mem_singleton_self s
    · cases h
      exact every_union_iff.mpr hmembers

/-!
# Intersections

An intersection mentions meets of types that its operands mention, and a
distributed union is united again from its branches.
-/

theorem every_meetField (hp : FieldType.Closed p) {fields fields' : Table FieldType}
    {entry : String × FieldType} (hfields : fields.All (FieldType.Every p))
    (hentry : FieldType.Every p entry.2) (h : meetField fields entry = .ok fields') :
    fields'.All (FieldType.Every p) := by
  unfold meetField at h
  split at h
  · cases h
    exact hfields.insert hentry
  · rename_i present hpresent
    split at h
    · rename_i t ht
      cases h
      have hold := hfields entry.1 present (Table.get?_eq_some_iff_mem.mp hpresent)
      exact hfields.insert (FieldType.every_meet? hp hold hentry ht)
    · cases h

theorem every_foldlM_meetField (hp : FieldType.Closed p) {entries : List (String × FieldType)}
    {fields fields' : Table FieldType} (hfields : fields.All (FieldType.Every p))
    (hentries : forall e, e ∈ entries -> FieldType.Every p e.2)
    (h : entries.foldlM meetField fields = .ok fields') :
    fields'.All (FieldType.Every p) := by
  induction entries generalizing fields with
  | nil =>
      cases h
      exact hfields
  | cons e rest ih =>
      rw [List.foldlM_cons] at h
      rcases bind_eq_ok h with ⟨between, hbetween, hrest⟩
      apply ih _ _ hrest
      · exact every_meetField hp hfields (hentries e List.mem_cons_self) hbetween
      · intro other hother
        exact hentries other (List.mem_cons_of_mem e hother)

theorem every_leaf? {s : Shape} {t : FieldType} (h : s.leaf? = some t) :
    FieldType.Every p t <-> Every p s := by
  cases s with
  | keyword | literal =>
      cases h
      rfl
  | object | union => cases h

theorem every_ofLeaf? {s : Shape} {t : FieldType} (h : ofLeaf? t = some s) :
    Every p s <-> FieldType.Every p t := by
  cases t with
  | keyword | literal =>
      cases h
      rfl
  | reference | union | intersection => cases h

theorem every_meetLeaves (hp : FieldType.Closed p) {a b s : Shape} (ha : Every p a)
    (hb : Every p b) (h : meetLeaves a b = .ok s) : Every p s := by
  unfold meetLeaves at h
  split at h
  · rename_i t u ht hu
    split at h
    · rename_i shape hshape
      cases h
      rcases Option.bind_eq_some_iff.mp hshape with ⟨m, hm, hleaf⟩
      apply (every_ofLeaf? hleaf).mpr
      exact FieldType.every_meet? hp ((every_leaf? ht).mpr ha) ((every_leaf? hu).mpr hb) hm
    · cases h
  · cases h

theorem every_intersectSimple (hp : FieldType.Closed p) {a b s : Shape} (ha : Every p a)
    (hb : Every p b) (h : intersectSimple a b = .ok s) : Every p s := by
  unfold intersectSimple at h
  split at h
  · cases h
    exact hb
  · cases h
    exact ha
  · cases h
    exact ha
  · cases h
    exact hb
  · rcases bind_eq_ok h with ⟨fields, hfields, hdone⟩
    cases hdone
    exact every_foldlM_meetField hp ha (fun e he => hb e.1 e.2 he) hfields
  · exact every_meetLeaves hp ha hb h

theorem every_branches {members : List Shape} {s : Shape} {meet : Shape -> Except Failure Shape}
    (hmembers : forall m, m ∈ members -> forall x, meet m = .ok x -> Every p x)
    (h : members.mapM meet >>= unite = .ok s) : Every p s := by
  rcases bind_eq_ok h with ⟨branches, hbranches, hunite⟩
  apply every_unite _ hunite
  intro x hx
  rcases (mem_of_mapM_eq_ok hbranches).mp hx with ⟨m, hm, hmeet⟩
  exact hmembers m hm x hmeet

theorem every_intersectPair (hp : FieldType.Closed p) {a b s : Shape} (ha : Every p a)
    (hb : Every p b) (h : intersectPair a b = .ok s) : Every p s := by
  have hall : Every p a -> Every p b -> forall s, intersectPair a b = .ok s -> Every p s := by
    refine intersectPair_induction
      (motive := fun a b result => Every p a -> Every p b ->
        forall s, result = .ok s -> Every p s) ?_ ?_ ?_ ?_ ?_ a b
    · intro a b _ _ ha hb s hsimple
      exact every_intersectSimple hp ha hb hsimple
    · intro a ha _ s hs
      cases hs
      exact ha
    · intro name members b meet hmembers ha hb s hs
      apply every_branches _ hs
      intro m hm
      exact hmembers m hm (every_union_iff.mp ha m hm) hb
    · intro b _ hb s hs
      cases hs
      exact hb
    · intro a name members meet hmembers ha hb s hs
      apply every_branches _ hs
      intro m hm
      exact hmembers m hm (every_union_iff.mp hb m hm) ha
  exact hall ha hb s h

theorem every_intersect (hp : FieldType.Closed p) {shapes : List Shape} {s : Shape}
    (hshapes : forall x, x ∈ shapes -> Every p x) (h : intersect shapes = .ok s) :
    Every p s := by
  cases shapes with
  | nil => cases h
  | cons first rest =>
      rw [intersect] at h
      rw [List.forall_mem_cons] at hshapes
      rcases hshapes with ⟨hfirst, hrest⟩
      induction rest generalizing first with
      | nil =>
          cases h
          exact hfirst
      | cons next rest ih =>
          rw [List.foldlM_cons] at h
          rcases bind_eq_ok h with ⟨between, hbetween, hdone⟩
          rw [List.forall_mem_cons] at hrest
          exact ih between hdone (every_intersectPair hp hfirst hrest.1 hbetween) hrest.2

end Every

end Shape
end Shapes
