import Mathlib.Data.List.Perm.Subperm
import Shapes.Proofs.FieldType.Identity
import Shapes.Proofs.Table
import Shapes.Shape.Basic

/-!
# Identical shapes

As for types, identity of shapes is said with membership here: the members of
identical unions match each other both ways, and so do the fields of identical
objects, since a table has no name twice.
-/

namespace Shapes
namespace Shape

/-!
# Induction

A shape is left for the members of a union, as a type is for its members.
-/

@[elab_as_elim]
theorem memberInduction {motive : Shape -> Prop}
    (object : forall name fields, motive (.object name fields))
    (union : forall name members, (forall m, m ∈ members -> motive m) ->
      motive (.union name members))
    (keyword : forall word, motive (.keyword word))
    (literal : forall value, motive (.literal value)) (s : Shape) : motive s := by
  refine @Shape.rec motive (fun shapes => forall m, m ∈ shapes -> motive m)
    object union keyword literal ?_ ?_ s
  · intro m hm
    cases hm
  · intro first rest hfirst hrest m hm
    rcases List.mem_cons.mp hm with rfl | hm
    · exact hfirst
    · exact hrest m hm

/-!
# Identity by membership

Members of unions match each other both ways, and so do the fields of objects,
which have no name twice.
-/

theorem eachIn_iff {as bs : List Shape} :
    eachIn as bs = true <-> forall a, a ∈ as -> exists b, b ∈ bs ∧ a.same b = true := by
  induction as with
  | nil => simp [eachIn]
  | cons a rest ih => simp [eachIn, ih]

theorem someSame_iff {as : List Shape} {b : Shape} :
    someSame as b = true <-> exists a, a ∈ as ∧ a.same b = true := by
  induction as with
  | nil => simp [someSame]
  | cons a rest ih => simp [someSame, ih]

theorem same_union_iff {name other : Option String} {as bs : List Shape} :
    same (.union name as) (.union other bs) = true <->
      (forall a, a ∈ as -> exists b, b ∈ bs ∧ a.same b = true) ∧
        forall b, b ∈ bs -> exists a, a ∈ as ∧ a.same b = true := by
  simp only [same, Bool.and_eq_true, List.all_eq_true, eachIn_iff, someSame_iff]

theorem sameFields_cases {a b : Table FieldType} (h : sameFields a b = true) :
    (forall key t, (key, t) ∈ a.entries ->
        exists u, (key, u) ∈ b.entries ∧ t.same u = true) ∧
      forall key u, (key, u) ∈ b.entries ->
        exists t, (key, t) ∈ a.entries ∧ t.same u = true := by
  simp only [sameFields, Bool.and_eq_true, decide_eq_true_eq, List.all_eq_true] at h
  rcases h with ⟨hsize, hall⟩
  have hforth : forall key t, (key, t) ∈ a.entries ->
      exists u, (key, u) ∈ b.entries ∧ t.same u = true := by
    intro key t ht
    rcases Option.any_eq_true_iff_get _ _ |>.mp (hall (key, t) ht) with ⟨hsome, hsame⟩
    exact ⟨_, Table.get?_eq_some_iff_mem.mp (Option.some_get hsome).symm, hsame⟩
  refine ⟨hforth, ?_⟩
  intro key u hu
  -- Distinct names, as many on both sides: the names are the same.
  have hsubset : a.keys ⊆ b.keys := by
    intro name hname
    rcases List.mem_map.mp hname with ⟨⟨name, t⟩, ht, rfl⟩
    rcases hforth name t ht with ⟨u, hu, _⟩
    exact List.mem_map.mpr ⟨(name, u), hu, rfl⟩
  have hperm : a.keys.Perm b.keys := by
    apply (List.subperm_of_subset a.distinct hsubset).perm_of_length_le
    simp only [Table.keys, List.length_map]
    exact Nat.le_of_eq hsize.symm
  have hkey : key ∈ a.keys := hperm.mem_iff.mpr (List.mem_map.mpr ⟨(key, u), hu, rfl⟩)
  rcases List.mem_map.mp hkey with ⟨⟨name, t⟩, ht, rfl⟩
  rcases hforth name t ht with ⟨v, hv, hsame⟩
  have huv := (Table.get?_eq_some_iff_mem.mpr hv).symm.trans (Table.get?_eq_some_iff_mem.mpr hu)
  cases huv
  exact ⟨t, ht, hsame⟩

theorem sameFields_iff {a b : Table FieldType} :
    sameFields a b = true <->
      forall key,
        Option.Rel (fun t u : FieldType => t.same u = true) (a.get? key) (b.get? key) := by
  constructor
  · intro h key
    rcases sameFields_cases h with ⟨hforth, hback⟩
    cases ha : a.get? key with
    | some t =>
        rcases hforth key t (Table.get?_eq_some_iff_mem.mp ha) with ⟨u, hu, hsame⟩
        rw [Table.get?_eq_some_iff_mem.mpr hu]
        exact Option.Rel.some hsame
    | none =>
        cases hb : b.get? key with
        | none => exact Option.Rel.none
        | some u =>
            rcases hback key u (Table.get?_eq_some_iff_mem.mp hb) with ⟨t, ht, _⟩
            rw [Table.get?_eq_some_iff_mem.mpr ht] at ha
            cases ha
  · intro h
    have hkeys : a.keys.Perm b.keys := by
      apply (List.perm_ext_iff_of_nodup a.distinct b.distinct).mpr
      intro key
      have hrel := h key
      have hmem : forall t : Table FieldType, key ∈ t.keys <-> exists u, t.get? key = some u := by
        intro t
        rw [← Table.contains_iff, Table.contains, List.contains_iff_mem]
      change key ∈ a.keys <-> key ∈ b.keys
      rw [hmem, hmem]
      generalize a.get? key = t at hrel
      generalize b.get? key = u at hrel
      cases hrel <;> simp
    have hsize : a.size = b.size := by
      simpa [Table.keys, Table.size] using hkeys.length_eq
    simp only [sameFields, hsize, decide_true, Bool.true_and, List.all_eq_true]
    intro e he
    have hrel := h e.1
    rw [Table.get?_eq_some_iff_mem.mpr he] at hrel
    generalize b.get? e.1 = u at hrel
    cases hrel with
    | some hsame => exact hsame

/-!
# Identity is an equivalence

The laws are those of types, carried through unions and objects.
-/

theorem same_refl (s : Shape) : s.same s = true := by
  induction s using memberInduction with
  | object name fields =>
      apply sameFields_iff.mpr
      intro key
      cases fields.get? key with
      | some t => exact Option.Rel.some (FieldType.same_refl t)
      | none => exact Option.Rel.none
  | union name members ih =>
      exact same_union_iff.mpr ⟨fun m hm => ⟨m, hm, ih m hm⟩, fun m hm => ⟨m, hm, ih m hm⟩⟩
  | keyword word => simp [same]
  | literal value => exact value.same_refl

theorem same_symm {s t : Shape} (h : s.same t = true) : t.same s = true := by
  induction s using memberInduction generalizing t with
  | object name fields =>
      cases t with
      | object other others =>
          apply sameFields_iff.mpr
          intro key
          have hrel := sameFields_iff.mp h key
          generalize fields.get? key = t at hrel ⊢
          generalize others.get? key = u at hrel ⊢
          cases hrel with
          | some hsame => exact Option.Rel.some (FieldType.same_symm hsame)
          | none => exact Option.Rel.none
      | union | keyword | literal => cases h
  | union name members ih =>
      cases t with
      | union other others =>
          rcases same_union_iff.mp h with ⟨hforth, hback⟩
          apply same_union_iff.mpr
          constructor
          · intro b hb
            rcases hback b hb with ⟨a, ha, hab⟩
            exact ⟨a, ha, ih a ha hab⟩
          · intro a ha
            rcases hforth a ha with ⟨b, hb, hab⟩
            exact ⟨b, hb, ih a ha hab⟩
      | object | keyword | literal => cases h
  | keyword word =>
      cases t with
      | keyword other => simpa [same, eq_comm] using h
      | object | union | literal => cases h
  | literal value =>
      cases t with
      | literal other => exact Literal.same_symm (a := value) h
      | object | union | keyword => cases h

theorem same_trans {s t u : Shape} (h : s.same t = true) (h' : t.same u = true) :
    s.same u = true := by
  induction s using memberInduction generalizing t u with
  | object name fields =>
      cases t with
      | object other others =>
          cases u with
          | object last ends =>
              apply sameFields_iff.mpr
              intro key
              have hrel := sameFields_iff.mp h key
              have hrel' := sameFields_iff.mp h' key
              generalize fields.get? key = t at hrel ⊢
              generalize others.get? key = u at hrel hrel'
              generalize ends.get? key = v at hrel' ⊢
              cases hrel with
              | some hsame =>
                  cases hrel' with
                  | some hsame' => exact Option.Rel.some (FieldType.same_trans hsame hsame')
              | none =>
                  cases hrel'
                  exact Option.Rel.none
          | union | keyword | literal => cases h'
      | union | keyword | literal => cases h
  | union name members ih =>
      cases t with
      | union other others =>
          cases u with
          | union last ends =>
              rcases same_union_iff.mp h with ⟨hforth, hback⟩
              rcases same_union_iff.mp h' with ⟨hforth', hback'⟩
              apply same_union_iff.mpr
              constructor
              · intro a ha
                rcases hforth a ha with ⟨b, hb, hab⟩
                rcases hforth' b hb with ⟨c, hc, hbc⟩
                exact ⟨c, hc, ih a ha hab hbc⟩
              · intro c hc
                rcases hback' c hc with ⟨b, hb, hbc⟩
                rcases hback b hb with ⟨a, ha, hab⟩
                exact ⟨a, ha, ih a ha hab hbc⟩
          | object | keyword | literal => cases h'
      | object | keyword | literal => cases h
  | keyword word =>
      cases t with
      | keyword other =>
          rw [show word = other by simpa [same] using h]
          exact h'
      | object | union | literal => cases h
  | literal value =>
      cases t with
      | literal other =>
          cases u with
          | literal last => exact Literal.same_trans (a := value) (b := other) h h'
          | object | union | keyword => cases h'
      | object | union | keyword => cases h

end Shape
end Shapes
