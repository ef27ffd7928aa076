import Shapes.FieldType.Basic
import Shapes.Proofs.Distinct

/-!
# Identical types

Identity of types is defined by recursion through lists of members.  Here it is
said with membership: the members of two identical unions match each other both
ways.  `FieldType.memberInduction` goes down a type in the same manner, and it
shows that identity is an equivalence at every depth.
-/

namespace Shapes

theorem Literal.same_refl (a : Literal) : a.same a = true := by
  cases a <;> simp [same, Binary64.same]

theorem Literal.same_symm {a b : Literal} (h : a.same b = true) : b.same a = true := by
  cases a <;> cases b <;> simp_all [same, Binary64.same]

theorem Literal.same_trans {a b c : Literal} (h : a.same b = true) (h' : b.same c = true) :
    a.same c = true := by
  cases a <;> cases b <;> cases c <;> simp_all [same, Binary64.same]

namespace FieldType

/-!
# Induction

A type is left for its members, so what holds of a type whenever it holds of the
members holds of every type.
-/

@[elab_as_elim]
theorem memberInduction {motive : FieldType -> Prop}
    (keyword : forall word, motive (.keyword word))
    (reference : forall id, motive (.reference id))
    (union : forall members, (forall m, m ∈ members -> motive m) -> motive (.union members))
    (intersection : forall members,
      (forall m, m ∈ members -> motive m) -> motive (.intersection members))
    (literal : forall value, motive (.literal value)) (t : FieldType) : motive t := by
  refine @FieldType.rec motive (fun types => forall m, m ∈ types -> motive m)
    keyword reference union intersection literal ?_ ?_ t
  · intro m hm
    cases hm
  · intro first rest hfirst hrest m hm
    rcases List.mem_cons.mp hm with rfl | hm
    · exact hfirst
    · exact hrest m hm

/-!
# Identity by membership

The two searches that identity is defined by become membership: each member of
one list is identical to some member of the other.
-/

theorem eachIn_iff {as bs : List FieldType} :
    eachIn as bs = true <-> forall a, a ∈ as -> exists b, b ∈ bs ∧ a.same b = true := by
  induction as with
  | nil => simp [eachIn]
  | cons a rest ih => simp [eachIn, ih]

theorem someSame_iff {as : List FieldType} {b : FieldType} :
    someSame as b = true <-> exists a, a ∈ as ∧ a.same b = true := by
  induction as with
  | nil => simp [someSame]
  | cons a rest ih => simp [someSame, ih]

/-- Lists of types with the same members up to identity. -/
def SameMembers (as bs : List FieldType) : Prop :=
  (forall a, a ∈ as -> exists b, b ∈ bs ∧ a.same b = true) ∧
    forall b, b ∈ bs -> exists a, a ∈ as ∧ a.same b = true

theorem same_union_iff {as bs : List FieldType} :
    same (.union as) (.union bs) = true <-> SameMembers as bs := by
  simp only [same, Bool.and_eq_true, List.all_eq_true, eachIn_iff, someSame_iff, SameMembers]

theorem same_intersection_iff {as bs : List FieldType} :
    same (.intersection as) (.intersection bs) = true <-> SameMembers as bs := by
  simp only [same, Bool.and_eq_true, List.all_eq_true, eachIn_iff, someSame_iff, SameMembers]

theorem SameMembers.exists_iff {as bs : List FieldType} {holds : FieldType -> Prop}
    (h : SameMembers as bs)
    (hsame : forall a, a ∈ as -> forall b, a.same b = true -> (holds a <-> holds b)) :
    (exists a, a ∈ as ∧ holds a) <-> exists b, b ∈ bs ∧ holds b := by
  constructor
  · intro hfound
    rcases hfound with ⟨a, ha, hholds⟩
    rcases h.1 a ha with ⟨b, hb, hab⟩
    exact ⟨b, hb, (hsame a ha b hab).mp hholds⟩
  · intro hfound
    rcases hfound with ⟨b, hb, hholds⟩
    rcases h.2 b hb with ⟨a, ha, hab⟩
    exact ⟨a, ha, (hsame a ha b hab).mpr hholds⟩

theorem SameMembers.forall_iff {as bs : List FieldType} {holds : FieldType -> Prop}
    (h : SameMembers as bs)
    (hsame : forall a, a ∈ as -> forall b, a.same b = true -> (holds a <-> holds b)) :
    (forall a, a ∈ as -> holds a) <-> forall b, b ∈ bs -> holds b := by
  constructor
  · intro hall b hb
    rcases h.2 b hb with ⟨a, ha, hab⟩
    exact (hsame a ha b hab).mp (hall a ha)
  · intro hall a ha
    rcases h.1 a ha with ⟨b, hb, hab⟩
    exact (hsame a ha b hab).mpr (hall b hb)

/-!
# Identity is an equivalence

All three laws go through the members.  A property that unions and intersections
have through their members is then shared by identical types as soon as
identical literals share it.
-/

theorem same_refl (t : FieldType) : t.same t = true := by
  induction t using memberInduction with
  | keyword word => simp [same]
  | reference id => simp [same]
  | union members ih =>
      exact same_union_iff.mpr ⟨fun m hm => ⟨m, hm, ih m hm⟩, fun m hm => ⟨m, hm, ih m hm⟩⟩
  | intersection members ih =>
      exact same_intersection_iff.mpr
        ⟨fun m hm => ⟨m, hm, ih m hm⟩, fun m hm => ⟨m, hm, ih m hm⟩⟩
  | literal value => exact value.same_refl

theorem SameMembers.symm {as bs : List FieldType} (h : SameMembers as bs)
    (hsymm : forall a, a ∈ as -> forall {b}, a.same b = true -> b.same a = true) :
    SameMembers bs as := by
  constructor
  · intro b hb
    rcases h.2 b hb with ⟨a, ha, hab⟩
    exact ⟨a, ha, hsymm a ha hab⟩
  · intro a ha
    rcases h.1 a ha with ⟨b, hb, hab⟩
    exact ⟨b, hb, hsymm a ha hab⟩

theorem SameMembers.trans {as bs cs : List FieldType} (h : SameMembers as bs)
    (h' : SameMembers bs cs)
    (htrans : forall a, a ∈ as -> forall {b c}, a.same b = true -> b.same c = true ->
      a.same c = true) :
    SameMembers as cs := by
  constructor
  · intro a ha
    rcases h.1 a ha with ⟨b, hb, hab⟩
    rcases h'.1 b hb with ⟨c, hc, hbc⟩
    exact ⟨c, hc, htrans a ha hab hbc⟩
  · intro c hc
    rcases h'.2 c hc with ⟨b, hb, hbc⟩
    rcases h.2 b hb with ⟨a, ha, hab⟩
    exact ⟨a, ha, htrans a ha hab hbc⟩

theorem same_symm {t u : FieldType} (h : t.same u = true) : u.same t = true := by
  induction t using memberInduction generalizing u with
  | keyword word =>
      cases u with
      | keyword other => simpa [same, eq_comm] using h
      | reference | union | intersection | literal => cases h
  | reference id =>
      cases u with
      | reference other => simpa [same, eq_comm] using h
      | keyword | union | intersection | literal => cases h
  | union members ih =>
      cases u with
      | union others =>
          exact same_union_iff.mpr ((same_union_iff.mp h).symm fun a ha _ hab => ih a ha hab)
      | keyword | reference | intersection | literal => cases h
  | intersection members ih =>
      cases u with
      | intersection others =>
          exact same_intersection_iff.mpr
            ((same_intersection_iff.mp h).symm fun a ha _ hab => ih a ha hab)
      | keyword | reference | union | literal => cases h
  | literal value =>
      cases u with
      | literal other => exact Literal.same_symm (a := value) h
      | keyword | reference | union | intersection => cases h

theorem same_trans {t u v : FieldType} (h : t.same u = true) (h' : u.same v = true) :
    t.same v = true := by
  induction t using memberInduction generalizing u v with
  | keyword word =>
      cases u with
      | keyword other =>
          rw [show word = other by simpa [same] using h]
          exact h'
      | reference | union | intersection | literal => cases h
  | reference id =>
      cases u with
      | reference other =>
          rw [show id = other by simpa [same] using h]
          exact h'
      | keyword | union | intersection | literal => cases h
  | union members ih =>
      cases u with
      | union others =>
          cases v with
          | union ends =>
              exact same_union_iff.mpr ((same_union_iff.mp h).trans (same_union_iff.mp h')
                fun a ha _ _ hab hbc => ih a ha hab hbc)
          | keyword | reference | intersection | literal => cases h'
      | keyword | reference | intersection | literal => cases h
  | intersection members ih =>
      cases u with
      | intersection others =>
          cases v with
          | intersection ends =>
              exact same_intersection_iff.mpr
                ((same_intersection_iff.mp h).trans (same_intersection_iff.mp h')
                  fun a ha _ _ hab hbc => ih a ha hab hbc)
          | keyword | reference | union | literal => cases h'
      | keyword | reference | union | literal => cases h
  | literal value =>
      cases u with
      | literal other =>
          cases v with
          | literal last => exact Literal.same_trans (a := value) (b := other) h h'
          | keyword | reference | union | intersection => cases h'
      | keyword | reference | union | intersection => cases h

/--
A property that unions and intersections have through their members is shared by
identical types as soon as it is shared by identical literals.
-/
theorem iff_of_same {holds : FieldType -> Prop}
    (hunion : forall members, holds (.union members) <-> exists m, m ∈ members ∧ holds m)
    (hintersection : forall members,
      holds (.intersection members) <-> forall m, m ∈ members -> holds m)
    (hliteral : forall {a b : Literal}, a.same b = true ->
      (holds (.literal a) <-> holds (.literal b)))
    {t u : FieldType} (h : t.same u = true) : holds t <-> holds u := by
  induction t using memberInduction generalizing u with
  | keyword word =>
      cases u with
      | keyword other => rw [show word = other by simpa [same] using h]
      | reference | union | intersection | literal => cases h
  | reference id =>
      cases u with
      | reference other => rw [show id = other by simpa [same] using h]
      | keyword | union | intersection | literal => cases h
  | union members ih =>
      cases u with
      | union others =>
          rw [hunion, hunion]
          exact (same_union_iff.mp h).exists_iff fun a ha b hab => ih a ha hab
      | keyword | reference | intersection | literal => cases h
  | intersection members ih =>
      cases u with
      | intersection others =>
          rw [hintersection, hintersection]
          exact (same_intersection_iff.mp h).forall_iff fun a ha b hab => ih a ha hab
      | keyword | reference | union | literal => cases h
  | literal a =>
      cases u with
      | literal b => exact hliteral h
      | keyword | reference | union | intersection => cases h

theorem exists_same_distinct {types : List FieldType} {t : FieldType} (ht : t ∈ types) :
    exists u, u ∈ distinctBy same types ∧ u.same t = true := by
  have hrelated : forall a b, a ∈ types -> b ∈ types -> a.same b = true -> b.same t = true ->
      a.same t = true := fun a b _ _ hab hb => same_trans hab hb
  exact (exists_mem_distinctBy same types hrelated).mpr ⟨t, ht, same_refl t⟩

/-!
# Missing fields

Whether a field may be missing is settled by the members of its type.
-/

theorem someAdmitUndefined_iff {types : List FieldType} :
    someAdmitUndefined types = true <-> exists t, t ∈ types ∧ t.admitsUndefined = true := by
  induction types with
  | nil => simp [someAdmitUndefined]
  | cons t rest ih => simp [someAdmitUndefined, ih]

theorem allAdmitUndefined_iff {types : List FieldType} :
    allAdmitUndefined types = true <-> forall t, t ∈ types -> t.admitsUndefined = true := by
  induction types with
  | nil => simp [allAdmitUndefined]
  | cons t rest ih => simp [allAdmitUndefined, ih]

@[simp] theorem admitsUndefined_union {members : List FieldType} :
    admitsUndefined (.union members) = true <->
      exists t, t ∈ members ∧ t.admitsUndefined = true :=
  someAdmitUndefined_iff

@[simp] theorem admitsUndefined_intersection {members : List FieldType} :
    admitsUndefined (.intersection members) = true <->
      forall t, t ∈ members -> t.admitsUndefined = true :=
  allAdmitUndefined_iff

theorem admitsUndefined_iff_of_same {t u : FieldType} (h : t.same u = true) :
    t.admitsUndefined = true <-> u.admitsUndefined = true :=
  @iff_of_same (fun t => t.admitsUndefined = true) (fun _ => admitsUndefined_union)
    (fun _ => admitsUndefined_intersection) (fun _ => Iff.rfl) t u h

/-!
# Unions in normal form

Opening unions, dropping `never` and collapsing identical members changes no
property that a union has through its members.
-/

/--
A property that a union has through its members, that `never` lacks and that
identical types share is one that the normal form has through the given types.
-/
theorem oneOf_iff {holds : FieldType -> Prop}
    (hunion : forall members, holds (.union members) <-> exists m, m ∈ members ∧ holds m)
    (hnever : ¬ holds (.keyword .never))
    (hsame : forall a b, a.same b = true -> (holds a <-> holds b)) (types : List FieldType) :
    holds (oneOf types) <-> exists t, t ∈ types ∧ holds t := by
  have hparts : forall t, holds t <-> exists p, p ∈ t.unionParts ∧ holds p := by
    intro t
    cases t with
    | union members => exact hunion members
    | keyword word =>
        cases word with
        | never => simp [unionParts, hnever]
        | string | number | boolean | null | undefined | any | unknown => simp [unionParts]
    | reference | intersection | literal => simp [unionParts]
  have hflat : (exists p, p ∈ types.flatMap unionParts ∧ holds p) <->
      exists t, t ∈ types ∧ holds t := by
    constructor
    · intro hfound
      rcases hfound with ⟨p, hp, hholds⟩
      rcases List.mem_flatMap.mp hp with ⟨t, ht, hpt⟩
      exact ⟨t, ht, (hparts t).mpr ⟨p, hpt, hholds⟩⟩
    · intro hfound
      rcases hfound with ⟨t, ht, hholds⟩
      rcases (hparts t).mp hholds with ⟨p, hp, hpholds⟩
      exact ⟨p, List.mem_flatMap.mpr ⟨t, ht, hp⟩, hpholds⟩
  rw [← hflat, ← exists_mem_distinctBy same _
    fun a b _ _ hab hb => (hsame a b hab).mpr hb]
  unfold oneOf
  split
  · rename_i hnone
    simp [hnone, hnever]
  · rename_i only honly
    simp [honly]
  · exact hunion _

theorem admitsUndefined_oneOf {types : List FieldType} :
    (oneOf types).admitsUndefined = true <-> exists t, t ∈ types ∧ t.admitsUndefined = true :=
  oneOf_iff (fun _ => admitsUndefined_union) (by simp [admitsUndefined, Keyword.isTop])
    (fun _ _ => admitsUndefined_iff_of_same) types

end FieldType
end Shapes
