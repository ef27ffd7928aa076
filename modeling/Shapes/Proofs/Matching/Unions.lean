import Shapes.Proofs.FieldType.Every
import Shapes.Proofs.Matching.Depth

/-!
# Unions of listed types

The union of a list of types has the values of all of them, and may be missing where one
of them may be.  A check sees them with one level more or less, since a union is opened
or made on the way.

Unions in the list are opened once.  If there is nothing to open or to drop among their
members, the union is in normal form, and to unite it again changes nothing.  Deeper
unions, and a `never` inside a union, are left as they are.
-/

namespace Shapes
namespace FieldType

/-!
# Normal forms of unions

The parts of a flat union are its members, so nothing is left to be opened once
a union is in normal form.
-/

/-- A type that a union keeps as it is: neither a union nor `never`. -/
def Kept (t : FieldType) : Prop :=
  t.Single ∧ t ≠ keyword .never

/-- A union of types that are kept, or a type that is not a union. -/
def Flat : FieldType -> Prop
  | union members => forall m, m ∈ members -> m.Kept
  | _ => True

/-- A union of two types or more that are kept and not identical, or no union. -/
def Collected : FieldType -> Prop
  | union members =>
      2 ≤ members.length ∧ (forall m, m ∈ members -> m.Kept) ∧
        members.Pairwise fun a b => a.same b = false
  | _ => True

theorem Single.collected {t : FieldType} (h : t.Single) : t.Collected := by
  cases t with
  | union members => exact absurd rfl (h members)
  | keyword | reference | intersection | literal => trivial

theorem Flat.unionParts {t : FieldType} (h : t.Flat) :
    forall part, part ∈ t.unionParts -> part.Kept := by
  intro part hpart
  cases t with
  | union members => exact h part hpart
  | keyword word =>
      cases word with
      | never => cases hpart
      | string | number | boolean | null | undefined | any | unknown =>
          cases List.mem_singleton.mp hpart
          simp [Kept, Single]
  | reference | intersection | literal =>
      cases List.mem_singleton.mp hpart
      simp [Kept, Single]

section OneOf

variable {types : List FieldType}

theorem oneOf_eq_cases (types : List FieldType) :
    (distinctBy same (types.flatMap unionParts) = [] ∧ oneOf types = keyword .never) ∨
      distinctBy same (types.flatMap unionParts) = [oneOf types] ∨
      (2 ≤ (distinctBy same (types.flatMap unionParts)).length ∧
        oneOf types = union (distinctBy same (types.flatMap unionParts))) := by
  unfold oneOf
  split
  · rename_i hnone
    exact Or.inl ⟨hnone, rfl⟩
  · rename_i only honly
    exact Or.inr (Or.inl honly)
  · rename_i hnone hmany
    exact Or.inr (Or.inr ⟨two_le_length hnone hmany, rfl⟩)

theorem collected_oneOf (h : forall t, t ∈ types -> t.Flat) : (oneOf types).Collected := by
  have hparts : forall m, m ∈ distinctBy same (types.flatMap FieldType.unionParts) -> m.Kept := by
    intro m hm
    rcases List.mem_flatMap.mp (mem_of_mem_distinctBy hm) with ⟨t, ht, hmt⟩
    exact (h t ht).unionParts m hmt
  rcases oneOf_eq_cases types with ⟨_, hnever⟩ | honly | ⟨hmany, hunion⟩
  · rw [hnever]
    trivial
  · apply Single.collected
    apply (hparts _ _).1
    rw [honly]
    exact List.mem_singleton_self _
  · rw [hunion]
    exact ⟨hmany, hparts, pairwise_distinctBy same _⟩

theorem oneOf_of_single {t : FieldType} (h : t.Single) : oneOf [t] = t := by
  cases t with
  | union members => exact absurd rfl (h members)
  | keyword word => cases word <;> rfl
  | reference | intersection | literal => rfl

theorem oneOf_of_collected {t : FieldType} (h : t.Collected) : oneOf [t] = t := by
  cases t with
  | union members =>
      rcases h with ⟨hmany, _, hdistinct⟩
      have hparts : distinctBy same ([union members].flatMap FieldType.unionParts) = members := by
        rw [List.flatMap_singleton]
        exact distinctBy_eq_self hdistinct
      rcases oneOf_eq_cases [union members] with ⟨hnone, _⟩ | honly | ⟨_, hunion⟩
      · rw [hparts] at hnone
        rw [hnone] at hmany
        cases hmany
      · rw [hparts] at honly
        rw [honly] at hmany
        exact absurd hmany (by simp)
      · rw [hunion, hparts]
  | keyword | reference | intersection | literal => exact oneOf_of_single (by simp [Single])

end OneOf

end FieldType

/-!
# Values of unions

A member that is opened is seen one level earlier, and a member of the result
one level later.
-/

section Values

variable {find : Lookup} {value : Json} {levels : Nat}

theorem typeFits_of_unionParts {t part : FieldType} (hpart : part ∈ t.unionParts)
    (h : TypeFits find levels part value) : TypeFits find (levels + 1) t value := by
  cases t with
  | union members => exact typeFits_union.mpr ⟨part, hpart, h⟩
  | keyword word =>
      cases word with
      | never => cases hpart
      | string | number | boolean | null | undefined | any | unknown =>
          cases List.mem_singleton.mp hpart
          exact h.mono (Nat.le_succ levels) fun _ _ hs => hs
  | reference | intersection | literal =>
      cases List.mem_singleton.mp hpart
      exact h.mono (Nat.le_succ levels) fun _ _ hs => hs

theorem not_typeFits_never : ¬ TypeFits find levels (.keyword .never) value := by
  cases levels with
  | zero => simp only [TypeFits, not_false_eq_true]
  | succ levels => simp [TypeFits, Keyword.matches]

theorem exists_typeFits_of_oneOf {types : List FieldType}
    (h : TypeFits find levels (.oneOf types) value) :
    exists t, t ∈ types ∧ TypeFits find (levels + 1) t value := by
  have hpart : exists part, part ∈ distinctBy FieldType.same (types.flatMap FieldType.unionParts) ∧
      TypeFits find levels part value := by
    rcases FieldType.oneOf_eq_cases types with ⟨_, hnever⟩ | honly | ⟨_, hunion⟩
    · rw [hnever] at h
      exact absurd h not_typeFits_never
    · refine ⟨_, ?_, h⟩
      rw [honly]
      exact List.mem_singleton_self _
    · rw [hunion] at h
      cases levels with
      | zero => simp only [TypeFits] at h
      | succ levels =>
          rcases typeFits_union.mp h with ⟨part, hpart, hfits⟩
          exact ⟨part, hpart, hfits.mono (Nat.le_succ levels) fun _ _ hs => hs⟩
  rcases hpart with ⟨part, hpart, hfits⟩
  rcases List.mem_flatMap.mp (mem_of_mem_distinctBy hpart) with ⟨t, ht, hpartt⟩
  exact ⟨t, ht, typeFits_of_unionParts hpartt hfits⟩

end Values

namespace FieldType

/--
The union of a list of types has the values of the listed types, and where references
resolve, a check accepts them with one level more or less.  It is in normal form if no
union in the list has a union or `never` for a member, and then it is the union of itself.
-/
theorem union_has_the_values_of_its_members (types : List FieldType) :
    (forall find value, TypeHolds find (oneOf types) value <->
        exists t, t ∈ types ∧ TypeHolds find t value) ∧
      (forall r : Registry, r.Reachable -> (forall id, r.Resolves (.reference id)) ->
        forall levels value,
          ((exists t, t ∈ types ∧ ((Registry.typeMatches levels t value).run r).1 = true) ->
              ((Registry.typeMatches (levels + 1) (oneOf types) value).run r).1 = true) ∧
            (((Registry.typeMatches levels (oneOf types) value).run r).1 = true ->
              exists t, t ∈ types ∧
                ((Registry.typeMatches (levels + 1) t value).run r).1 = true)) ∧
      ((oneOf types).admitsUndefined = true <->
        exists t, t ∈ types ∧ t.admitsUndefined = true) ∧
      ((forall t, t ∈ types -> t.Flat) ->
        (oneOf types).Collected ∧ oneOf [oneOf types] = oneOf types) := by
  refine ⟨?_, ?_, admitsUndefined_oneOf, ?_⟩
  · intro find value
    exact (sense_typeHolds find value).branching.oneOf types
  · intro r hr hresolves levels value
    simp only [Registry.typeMatches_iff hr.faithful hresolves]
    constructor
    · intro hfound
      rcases hfound with ⟨t, ht, hfits⟩
      exact typeFits_oneOf ht hfits
    · exact exists_typeFits_of_oneOf
  · intro hflat
    have hcollected := collected_oneOf hflat
    exact ⟨hcollected, oneOf_of_collected hcollected⟩

/-- A text, a number or a text, nothing at all, and `null` by itself. -/
def scattered : List FieldType :=
  [keyword .string, union [keyword .number, keyword .string], keyword .never,
    union [keyword .null]]

theorem union_has_the_values_of_its_members_scattered :
    (forall t, t ∈ scattered -> t.Flat) ∧
      oneOf scattered = union [keyword .string, keyword .number, keyword .null] ∧
      ((Registry.typeMatches 3 (oneOf scattered) .null).run (Registry.empty .common)).1 = true ∧
      (oneOf scattered).Collected ∧ oneOf [oneOf scattered] = oneOf scattered := by
  have hflat : forall t, t ∈ scattered -> t.Flat := by
    simp [scattered, Flat, Kept, Single]
  have hreachable : (Registry.empty .common).Reachable := ⟨.common, .refl⟩
  have hresolves : forall id, (Registry.empty .common).Resolves (.reference id) := fun id =>
    Registry.resolves_of_small hreachable.faithful (by decide +kernel) (.reference id)
  have hmember : exists t, t ∈ scattered ∧
      ((Registry.typeMatches 2 t .null).run (Registry.empty .common)).1 = true :=
    ⟨union [keyword .null], by simp [scattered], by decide +kernel⟩
  have hunion := union_has_the_values_of_its_members scattered
  exact ⟨hflat, rfl, (hunion.2.1 _ hreachable hresolves 2 .null).1 hmember, hunion.2.2.2 hflat⟩

/--
A union in a union in the list stays where it is, and so does a `never` in a union.  A
union that stands alone in a union is left as it is written, and to unite it again
changes it.
-/
theorem nested_unions_are_left_alone :
    ¬ (oneOf [union [union [keyword .string, keyword .number], keyword .null]]).Collected ∧
      ¬ (oneOf [union [keyword .never, keyword .string]]).Collected ∧
      oneOf [union [union [keyword .string, keyword .string]]] =
        union [keyword .string, keyword .string] ∧
      oneOf [oneOf [union [union [keyword .string, keyword .string]]]] = keyword .string := by
  refine ⟨?_, ?_, rfl, rfl⟩
  · intro h
    have hkept := h.2.1 (union [keyword .string, keyword .number]) (by simp)
    exact hkept.1 _ rfl
  · intro h
    exact (h.2.1 (keyword .never) (by simp)).2 rfl

end FieldType
end Shapes
