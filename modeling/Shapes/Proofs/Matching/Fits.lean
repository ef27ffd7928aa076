import Shapes.Proofs.FieldType.Identity
import Shapes.Proofs.Matching.Literals
import Shapes.Registry.Matching

/-!
# Values that fit a type

What it means for a value to belong to a type or a shape, as a relation.  What a
reference stands for is left open: it is given by a relation between identifiers
and shapes.  As in the check that is run, a number of levels bounds how deep the
relation looks; more levels and more shapes to look up never hurt.
-/

namespace Shapes

/-- What references stand for. -/
abbrev Lookup := ShapeId -> Shape -> Prop

/-- A member of an object is as it has to be, or is missing where it may be. -/
def MemberFits (fits : Json -> Prop) (t : FieldType) : Option Json -> Prop
  | some value => fits value
  | none => t.admitsUndefined = true

theorem MemberFits.imp {fits fits' : Json -> Prop} {t : FieldType} {member : Option Json}
    (himp : forall value, fits value -> fits' value) (h : MemberFits fits t member) :
    MemberFits fits' t member := by
  cases member with
  | none => exact h
  | some value => exact himp value h

mutual

/-- A value belongs to a type, seen so many levels deep. -/
def TypeFits (find : Lookup) : Nat -> FieldType -> Json -> Prop
  | 0, _, _ => False
  | levels + 1, t, value =>
      match t with
      | .keyword word => word.matches value = true
      | .literal literal => literal.matches value = true
      | .reference id => exists s, find id s ∧ ShapeFits find levels s value
      | .union members => exists m, m ∈ members ∧ TypeFits find levels m value
      | .intersection members => forall m, m ∈ members -> TypeFits find levels m value

/-- A value belongs to a shape, seen so many levels deep. -/
def ShapeFits (find : Lookup) : Nat -> Shape -> Json -> Prop
  | 0, _, _ => False
  | levels + 1, s, value =>
      match s with
      | .object _ fields =>
          exists members, value = .obj members ∧
            forall key t, (key, t) ∈ fields.entries ->
              MemberFits (TypeFits find levels t) t (members.lookup key)
      | .union _ members => exists m, m ∈ members ∧ ShapeFits find levels m value
      | .keyword word => word.matches value = true
      | .literal literal => literal.matches value = true

end

/-!
# More levels and more shapes

The relation is monotone in the levels and in what references stand for.
-/

section Mono

variable {find find' : Lookup}

theorem fits_mono (hfind : forall id s, find id s -> find' id s) {levels more : Nat}
    (hle : levels ≤ more) :
    (forall {t : FieldType} {value : Json},
        TypeFits find levels t value -> TypeFits find' more t value) ∧
      forall {s : Shape} {value : Json},
        ShapeFits find levels s value -> ShapeFits find' more s value := by
  induction levels generalizing more with
  | zero =>
      constructor
      · intro t value h
        simp only [TypeFits] at h
      · intro s value h
        simp only [ShapeFits] at h
  | succ levels ih =>
      rcases Nat.exists_eq_add_of_le' hle with ⟨extra, rfl⟩
      rcases ih (Nat.le_add_left levels extra) with ⟨htype, hshape⟩
      constructor
      · intro t value h
        rw [← Nat.add_assoc]
        unfold TypeFits at h ⊢
        cases t with
        | keyword word => exact h
        | literal literal => exact h
        | reference id =>
            rcases h with ⟨s, hs, hfits⟩
            exact ⟨s, hfind id s hs, hshape hfits⟩
        | union members =>
            rcases h with ⟨m, hm, hfits⟩
            exact ⟨m, hm, htype hfits⟩
        | intersection members =>
            intro m hm
            exact htype (h m hm)
      · intro s value h
        rw [← Nat.add_assoc]
        unfold ShapeFits at h ⊢
        cases s with
        | object name fields =>
            rcases h with ⟨members, rfl, hmembers⟩
            refine ⟨members, rfl, ?_⟩
            intro key t ht
            exact (hmembers key t ht).imp fun _ hvalue => htype hvalue
        | union name members =>
            rcases h with ⟨m, hm, hfits⟩
            exact ⟨m, hm, hshape hfits⟩
        | keyword word => exact h
        | literal literal => exact h

theorem TypeFits.mono {levels more : Nat} {t : FieldType} {value : Json}
    (h : TypeFits find levels t value) (hle : levels ≤ more)
    (hfind : forall id s, find id s -> find' id s) : TypeFits find' more t value :=
  (fits_mono hfind hle).1 h

theorem ShapeFits.mono {levels more : Nat} {s : Shape} {value : Json}
    (h : ShapeFits find levels s value) (hle : levels ≤ more)
    (hfind : forall id s, find id s -> find' id s) : ShapeFits find' more s value :=
  (fits_mono hfind hle).2 h

end Mono

/-!
# Identical types

Identical types have the same values at every level, and a normal form costs one
level more than its members.
-/

section Identity

variable {find : Lookup} {levels : Nat} {value : Json}

theorem typeFits_union {members : List FieldType} :
    TypeFits find (levels + 1) (.union members) value <->
      exists m, m ∈ members ∧ TypeFits find levels m value := by
  rw [TypeFits]

theorem typeFits_intersection {members : List FieldType} :
    TypeFits find (levels + 1) (.intersection members) value <->
      forall m, m ∈ members -> TypeFits find levels m value := by
  rw [TypeFits]

theorem typeFits_iff_of_same {t u : FieldType} (h : t.same u = true) :
    TypeFits find levels t value <-> TypeFits find levels u value := by
  induction t using FieldType.memberInduction generalizing u levels with
  | keyword word =>
      cases u with
      | keyword other => rw [show word = other by simpa [FieldType.same] using h]
      | reference | union | intersection | literal => cases h
  | reference id =>
      cases u with
      | reference other => rw [show id = other by simpa [FieldType.same] using h]
      | keyword | union | intersection | literal => cases h
  | union members ih =>
      cases u with
      | union others =>
          cases levels with
          | zero => simp only [TypeFits]
          | succ levels =>
              rw [typeFits_union, typeFits_union]
              exact (FieldType.same_union_iff.mp h).exists_iff fun a ha b hab => ih a ha hab
      | keyword | reference | intersection | literal => cases h
  | intersection members ih =>
      cases u with
      | intersection others =>
          cases levels with
          | zero => simp only [TypeFits]
          | succ levels =>
              rw [typeFits_intersection, typeFits_intersection]
              exact (FieldType.same_intersection_iff.mp h).forall_iff fun a ha b hab => ih a ha hab
      | keyword | reference | union | literal => cases h
  | literal a =>
      cases u with
      | literal b =>
          cases levels with
          | zero => simp only [TypeFits]
          | succ levels => simp only [TypeFits, Literal.matches_eq_of_same h value]
      | keyword | reference | union | intersection => cases h

theorem typeFits_oneOf {types : List FieldType} {t : FieldType} (ht : t ∈ types)
    (h : TypeFits find levels t value) : TypeFits find (levels + 1) (.oneOf types) value := by
  cases levels with
  | zero => simp only [TypeFits] at h
  | succ levels =>
      -- Some part of the type fits, no deeper than the type itself.
      have hpart : exists p, p ∈ types.flatMap FieldType.unionParts ∧
          TypeFits find (levels + 1) p value := by
        have hparts : exists p, p ∈ t.unionParts ∧ TypeFits find (levels + 1) p value := by
          cases t with
          | union members =>
              rcases typeFits_union.mp h with ⟨m, hm, hfits⟩
              exact ⟨m, hm, hfits.mono (Nat.le_succ levels) fun _ _ hs => hs⟩
          | keyword word =>
              cases word with
              | never =>
                  rw [TypeFits] at h
                  cases h
              | string | number | boolean | null | undefined | any | unknown =>
                  exact ⟨_, List.mem_singleton_self _, h⟩
          | reference | intersection | literal => exact ⟨_, List.mem_singleton_self _, h⟩
        rcases hparts with ⟨p, hp, hfits⟩
        exact ⟨p, List.mem_flatMap.mpr ⟨t, ht, hp⟩, hfits⟩
      have hdistinct := (exists_mem_distinctBy FieldType.same _
        fun a b _ _ hab hb => (typeFits_iff_of_same hab).mpr hb).mpr hpart
      unfold FieldType.oneOf
      split
      · rename_i hnone
        rw [hnone] at hdistinct
        rcases hdistinct with ⟨p, hp, _⟩
        cases hp
      · rename_i only honly
        rw [honly] at hdistinct
        rcases hdistinct with ⟨p, hp, hfits⟩
        cases List.mem_singleton.mp hp
        exact hfits.mono (Nat.le_succ (levels + 1)) fun _ _ hs => hs
      · exact typeFits_union.mpr hdistinct

end Identity

end Shapes
