import Mathlib.Data.List.Induction
import Shapes.Proofs.FieldType.Identity
import Shapes.Proofs.Table
import Shapes.Registry.Declare

/-!
# What contributions are accepted

A contribution by fields keeps the first type of each field, and it is free of
conflicts when all types of one field agree.  A definition accepts it in two cases
only: nothing is declared yet, or both are mergeable, the definition is open and
the fields agree with the ones that are there.
-/

namespace Shapes
namespace Contribution

/-!
# Fields that agree

To agree is to have one type up to identity for each field, and it is enough to
compare with the first one.
-/

/-- All types that entries give to one field are identical. -/
def Agree (entries : List (String × FieldType)) : Prop :=
  forall key t u, (key, t) ∈ entries -> (key, u) ∈ entries -> t.same u = true

theorem Agree.of_subset {entries others : List (String × FieldType)} (h : Agree entries)
    (hsubset : others ⊆ entries) : Agree others := by
  intro key t u ht hu
  exact h key t u (hsubset ht) (hsubset hu)

theorem mem_of_lookup {α : Type} {entries : List (String × α)} {key : String} {value : α}
    (h : entries.lookup key = some value) : (key, value) ∈ entries := by
  rcases List.lookup_eq_some_iff.mp h with ⟨before, after, rfl, _⟩
  simp

theorem exists_lookup_of_mem {α : Type} {entries : List (String × α)} {key : String} {value : α}
    (h : (key, value) ∈ entries) : exists first, entries.lookup key = some first :=
  Option.isSome_iff_exists.mp (List.lookup_isSome_iff.mpr ⟨_, h, BEq.rfl⟩)

theorem agree_iff {entries : List (String × FieldType)} :
    Agree entries <->
      forall key t, (key, t) ∈ entries ->
        forall first, entries.lookup key = some first -> first.same t = true := by
  constructor
  · intro h key t ht first hfirst
    exact h key first t (mem_of_lookup hfirst) ht
  · intro h key t u ht hu
    rcases exists_lookup_of_mem ht with ⟨first, hfirst⟩
    exact FieldType.same_trans (FieldType.same_symm (h key t ht first hfirst))
      (h key u hu first hfirst)

/-!
# Gathering fields

Entries are gathered from left to right.  The first type of a field is kept, and
a later one that is not identical to it is noted as a conflict.
-/

theorem gatherField_fst (found : Table FieldType × Option String) (e : String × FieldType) :
    (gatherField found e).1 = found.1.insertIfNew e.1 e.2 := by
  unfold gatherField
  cases hpresent : found.1.get? e.1 with
  | none =>
      have hnew := Table.get?_eq_none_iff.mp hpresent
      apply Table.ext_entries
      rw [Table.entries_insertIfNew hnew, Table.entries_insert hnew]
  | some present =>
      rw [Table.insertIfNew_of_contains (Table.contains_iff.mpr ⟨present, hpresent⟩)]
      dsimp only
      split <;> rfl

theorem foldl_gatherField_fst (found : Table FieldType × Option String)
    (entries : List (String × FieldType)) :
    (entries.foldl gatherField found).1 =
      entries.foldl (fun t e => t.insertIfNew e.1 e.2) found.1 := by
  induction entries generalizing found with
  | nil => rfl
  | cons e rest ih => rw [List.foldl_cons, List.foldl_cons, ih, gatherField_fst]

theorem gatherField_snd (found : Table FieldType × Option String) (e : String × FieldType) :
    (gatherField found e).2 = none <->
      found.2 = none ∧
        forall first, (gatherField found e).1.get? e.1 = some first -> first.same e.2 = true := by
  rw [gatherField_fst, Table.get?_insertIfNew, if_pos rfl]
  unfold gatherField
  cases found.1.get? e.1 with
  | none => simp [FieldType.same_refl]
  | some present => by_cases hsame : present.same e.2 = true <;> simp [hsame]

theorem foldl_gatherField_snd (found : Table FieldType × Option String)
    (entries : List (String × FieldType)) :
    (entries.foldl gatherField found).2 = none <->
      found.2 = none ∧
        forall e, e ∈ entries ->
          forall first, (entries.foldl gatherField found).1.get? e.1 = some first ->
            first.same e.2 = true := by
  induction entries generalizing found with
  | nil => simp
  | cons e rest ih =>
      -- What is kept for a field once it was met is what is kept in the end.
      have hkept : (rest.foldl gatherField (gatherField found e)).1.get? e.1 =
          (gatherField found e).1.get? e.1 := by
        rw [foldl_gatherField_fst, Table.get?_foldl_insertIfNew, gatherField_fst,
          Table.get?_insertIfNew, if_pos rfl]
        cases found.1.get? e.1 <;> rfl
      rw [List.foldl_cons, ih, gatherField_snd, List.forall_mem_cons, hkept, and_assoc]

theorem ofFields_fields (kind : NameKind) (parents : List String)
    (entries : List (String × FieldType)) :
    (ofFields kind parents entries).fields = .firsts entries :=
  foldl_gatherField_fst (.empty, none) entries

theorem ofFields_conflict_eq_none_iff {kind : NameKind} {parents : List String}
    {entries : List (String × FieldType)} :
    (ofFields kind parents entries).conflict = none <-> Agree entries := by
  have hconflict := foldl_gatherField_snd (.empty, none) entries
  rw [foldl_gatherField_fst] at hconflict
  simp only [Table.get?_foldl_insertIfNew, true_and, Prod.forall] at hconflict
  rw [agree_iff]
  exact hconflict

theorem gatherField_snd_eq_some {found : Table FieldType × Option String}
    {e : String × FieldType} {field : String} (h : (gatherField found e).2 = some field) :
    found.2 = some field ∨
      (field = e.1 ∧ exists first, found.1.get? e.1 = some first ∧ first.same e.2 = false) := by
  unfold gatherField at h
  split at h
  · exact Or.inl h
  · rename_i present hpresent
    split at h
    · exact Or.inl h
    · rename_i hsame
      rcases Option.or_eq_some_iff.mp h with hbefore | ⟨_, hfield⟩
      · exact Or.inl hbefore
      · cases hfield
        exact Or.inr ⟨rfl, present, hpresent, eq_false_of_ne_true hsame⟩

theorem exists_of_ofFields_conflict {kind : NameKind} {parents : List String}
    {entries : List (String × FieldType)} {field : String}
    (h : (ofFields kind parents entries).conflict = some field) :
    exists t first, (field, t) ∈ entries ∧ entries.lookup field = some first ∧
      first.same t = false := by
  change (entries.foldl gatherField (.empty, none)).2 = some field at h
  induction entries using List.reverseRecOn with
  | nil => cases h
  | append_singleton entries e ih =>
      rw [List.foldl_append] at h
      rcases gatherField_snd_eq_some h with hbefore | ⟨rfl, first, hfirst, hsame⟩
      · rcases ih hbefore with ⟨t, first, hmem, hfirst, hsame⟩
        exact ⟨t, first, List.mem_append_left _ hmem, by simp [List.lookup_append, hfirst], hsame⟩
      · -- What was gathered before the last entry are the first types before it.
        have hlookup : entries.lookup e.1 = some first := by
          rw [foldl_gatherField_fst] at hfirst
          exact (Table.get?_firsts entries e.1).symm.trans hfirst
        exact ⟨e.2, first, by simp, by simp [List.lookup_append, hlookup], hsame⟩

/-!
# Proper contributions

A contribution by fields may have parents, and one by a body has nothing else.
-/

/-- No parent is named twice, and only a single declaration has a body. -/
structure Proper (c : Contribution) : Prop where
  parents : c.parents.Nodup
  body : c.body.isSome = true -> c.kind = .single

theorem Proper.ofFields (kind : NameKind) (parents : List String)
    (entries : List (String × FieldType)) :
    (Contribution.ofFields kind parents entries).Proper := by
  refine ⟨nodup_distinctBy_beq parents, ?_⟩
  intro h
  cases h

theorem Proper.ofBody (body : FieldType) : (Contribution.ofBody body).Proper :=
  ⟨List.nodup_nil, fun _ => rfl⟩

end Contribution

/-!
# Acceptance

What is declared already, the kinds, the stage and the fields are compared in
this order.
-/

namespace Definition

theorem ofContribution_eq_ok_iff {name : String} {c : Contribution} {d : Definition} :
    ofContribution name c = .ok d <->
      c.conflict = none ∧ d = .declared name c.kind c.fields c.parents c.body := by
  unfold ofContribution
  cases c.conflict with
  | some field =>
      constructor
      · intro h
        cases h
      · intro h
        cases h.1
  | none =>
      constructor
      · intro h
        cases h
        exact ⟨rfl, rfl⟩
      · intro h
        rw [h.2]
        rfl

theorem clash?_eq_none_iff {d : Definition} {c : Contribution} :
    d.clash? c = none <->
      forall key t, (key, t) ∈ c.fields.entries ->
        forall present, d.fields.get? key = some present -> present.same t = true := by
  rw [clash?, Option.map_eq_none_iff, List.find?_eq_none, Prod.forall]
  refine forall_congr' fun key => forall_congr' fun t => imp_congr_right fun _ => ?_
  change ¬ ((d.fields.get? key).any fun present => !present.same t) = true <-> _
  cases d.fields.get? key <;> simp

theorem merge_eq_ok_iff {d d' : Definition} {c : Contribution} :
    d.merge c = .ok d' <->
      (d.kind = none ∧ ofContribution d.name c = .ok d') ∨
        (d.kind = some .mergeable ∧ c.kind = .mergeable ∧ d.stage.isOpen = true ∧
          c.conflict = none ∧ d.clash? c = none ∧ d' = d.absorb c) := by
  unfold merge isPending
  cases d.kind with
  | none => simp
  | some kind =>
      cases kind with
      | single => simp
      | mergeable =>
          cases c.kind with
          | single => simp
          | mergeable =>
              cases d.stage.isOpen with
              | false => simp
              | true =>
                  cases c.conflict with
                  | some field => simp
                  | none =>
                      cases d.clash? c with
                      | some field => simp
                      | none => simp [eq_comm, pure, Except.pure]

/-- A definition when it is registered: referenced only, or made by one contribution. -/
def New (d : Definition) : Prop :=
  d = .pending d.name ∨ exists c : Contribution, c.Proper ∧ ofContribution d.name c = .ok d

theorem New.resolved_eq_none {d : Definition} (h : d.New) : d.resolved = none := by
  rcases h with hpending | ⟨c, _, hd⟩
  · rw [hpending]
    rfl
  · rw [(ofContribution_eq_ok_iff.mp hd).2]
    rfl

end Definition
end Shapes
