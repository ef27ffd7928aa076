import Shapes.Proofs.Matching.Holds
import Shapes.Proofs.Shape.Every

/-!
# The sense of the algebra of shapes

Identical shapes have the same values, a union has the values of its operands,
and an intersection that succeeds has the values that its operands share.  The
last is for shapes that do not mention `any`.
-/

namespace Shapes
namespace Shape

/-- A shape that does not mention `any`. -/
def AnyFree : Shape -> Prop :=
  Every fun t => t ≠ .keyword .any

variable {find : Lookup} {value : Json}

/-!
# Identity

Identical unions have branches in common, and identical objects the same fields.
-/

theorem shapeHolds_iff_of_same {s t : Shape} (h : s.same t = true) :
    ShapeHolds find s value <-> ShapeHolds find t value := by
  induction s using memberInduction generalizing t with
  | object name fields =>
      cases t with
      | object other others =>
          rcases sameFields_cases h with ⟨hforth, hback⟩
          rw [shapeHolds_object, shapeHolds_object]
          constructor
          · intro hfound
            rcases hfound with ⟨members, rfl, hmembers⟩
            refine ⟨members, rfl, ?_⟩
            intro key u hu
            rcases hback key u hu with ⟨t, ht, hsame⟩
            exact ((FieldType.sense_memberHolds find _).same hsame).mp (hmembers key t ht)
          · intro hfound
            rcases hfound with ⟨members, rfl, hmembers⟩
            refine ⟨members, rfl, ?_⟩
            intro key t ht
            rcases hforth key t ht with ⟨u, hu, hsame⟩
            exact ((FieldType.sense_memberHolds find _).same hsame).mpr (hmembers key u hu)
      | union | keyword | literal => cases h
  | union name members ih =>
      cases t with
      | union other others =>
          rcases same_union_iff.mp h with ⟨hforth, hback⟩
          rw [shapeHolds_union, shapeHolds_union]
          constructor
          · intro hfound
            rcases hfound with ⟨a, ha, hholds⟩
            rcases hforth a ha with ⟨b, hb, hab⟩
            exact ⟨b, hb, (ih a ha hab).mp hholds⟩
          · intro hfound
            rcases hfound with ⟨b, hb, hholds⟩
            rcases hback b hb with ⟨a, ha, hab⟩
            exact ⟨a, ha, (ih a ha hab).mpr hholds⟩
      | object | keyword | literal => cases h
  | keyword word =>
      cases t with
      | keyword other => rw [show word = other by simpa [same] using h]
      | object | union | literal => cases h
  | literal a =>
      cases t with
      | literal b =>
          rw [shapeHolds_literal, shapeHolds_literal, Literal.matches_eq_of_same h value]
      | object | union | keyword => cases h

/-!
# Unions

A union has the values of the parts that it is made of.
-/

theorem shapeHolds_unionParts {s : Shape} :
    (exists part, part ∈ s.unionParts ∧ ShapeHolds find part value) <->
      ShapeHolds find s value := by
  cases s with
  | union name members => exact shapeHolds_union.symm
  | object | keyword | literal => simp [unionParts]

theorem shapeHolds_unite {shapes : List Shape} {s : Shape} (h : unite shapes = .ok s) :
    ShapeHolds find s value <-> exists x, x ∈ shapes ∧ ShapeHolds find x value := by
  have hparts : (exists part, part ∈ shapes.flatMap unionParts ∧ ShapeHolds find part value) <->
      exists x, x ∈ shapes ∧ ShapeHolds find x value := by
    constructor
    · intro hfound
      rcases hfound with ⟨part, hpart, hholds⟩
      rcases List.mem_flatMap.mp hpart with ⟨x, hx, hpx⟩
      exact ⟨x, hx, shapeHolds_unionParts.mp ⟨part, hpx, hholds⟩⟩
    · intro hfound
      rcases hfound with ⟨x, hx, hholds⟩
      rcases shapeHolds_unionParts.mpr hholds with ⟨part, hpart, hpholds⟩
      exact ⟨part, List.mem_flatMap.mpr ⟨x, hx, hpart⟩, hpholds⟩
  rw [← hparts, ← exists_mem_distinctBy same _
    fun a b _ _ hab hb => (shapeHolds_iff_of_same hab).mpr hb]
  unfold unite at h
  split at h
  · cases h
  · split at h
    · rename_i only honly
      cases h
      simp [honly]
    · cases h
      exact shapeHolds_union

/-!
# Objects together

A value has the fields of two objects if it has those that they get when they
are added one by one.
-/

/-- The members of an object belong to the fields of a table. -/
def FieldsHold (find : Lookup) (fields : Table FieldType) (members : List (String × Json)) :
    Prop :=
  forall key t, (key, t) ∈ fields.entries -> MemberHolds find t (members.lookup key)

/-- The members of an object belong to the fields of a table, except for one field. -/
def OthersHold (find : Lookup) (fields : Table FieldType) (key : String)
    (members : List (String × Json)) : Prop :=
  forall name t, name ≠ key -> (name, t) ∈ fields.entries ->
    MemberHolds find t (members.lookup name)

section Fields

variable {fields : Table FieldType} {key : String} {members : List (String × Json)}

theorem fieldsHold_insert {t : FieldType} :
    FieldsHold find (fields.insert key t) members <->
      MemberHolds find t (members.lookup key) ∧ OthersHold find fields key members := by
  constructor
  · intro hall
    refine ⟨hall key t (Table.mem_insert.mpr (Or.inl ⟨rfl, rfl⟩)), ?_⟩
    intro name u hne hu
    exact hall name u (Table.mem_insert.mpr (Or.inr ⟨hne, hu⟩))
  · intro hboth name u hu
    rcases hboth with ⟨ht, hothers⟩
    rcases Table.mem_insert.mp hu with ⟨rfl, rfl⟩ | ⟨hne, hu⟩
    · exact ht
    · exact hothers name u hne hu

theorem fieldsHold_iff_others (h : fields.get? key = none) :
    FieldsHold find fields members <-> OthersHold find fields key members := by
  constructor
  · intro hall name u _ hu
    exact hall name u hu
  · intro hothers name u hu
    refine hothers name u ?_ hu
    intro heq
    subst heq
    rw [Table.get?_eq_some_iff_mem.mpr hu] at h
    cases h

theorem fieldsHold_iff_both {t : FieldType} (h : fields.get? key = some t) :
    FieldsHold find fields members <->
      MemberHolds find t (members.lookup key) ∧ OthersHold find fields key members := by
  constructor
  · intro hall
    exact ⟨hall key t (Table.get?_eq_some_iff_mem.mp h), fun name u _ hu => hall name u hu⟩
  · intro hboth name u hu
    rcases hboth with ⟨ht, hothers⟩
    by_cases hname : name = key
    · subst hname
      rw [Table.get?_eq_some_iff_mem.mpr hu] at h
      cases h
      exact ht
    · exact hothers name u hname hu

theorem fieldsHold_meetField {fields' : Table FieldType} {t : FieldType}
    (hfields : fields.All FieldType.AnyFree) (ht : t.AnyFree)
    (h : meetField fields (key, t) = .ok fields') :
    FieldsHold find fields' members <->
      FieldsHold find fields members ∧ MemberHolds find t (members.lookup key) := by
  unfold meetField at h
  cases hpresent : fields.get? key with
  | none =>
      simp only [hpresent] at h
      cases h
      rw [fieldsHold_insert, fieldsHold_iff_others hpresent, and_comm]
  | some present =>
      have hfree := hfields key present (Table.get?_eq_some_iff_mem.mp hpresent)
      have hmeet := (FieldType.sense_memberHolds find (members.lookup key)).meet? hfree ht
      cases hu : present.meet? t with
      | none =>
          simp only [hpresent, hu] at h
          cases h
      | some u =>
          simp only [hpresent, hu] at h
          cases h
          rw [hu] at hmeet
          have hiff : MemberHolds find u (members.lookup key) <-> _ := hmeet
          rw [fieldsHold_insert, fieldsHold_iff_both hpresent, hiff]
          exact and_right_comm

end Fields

theorem fieldsHold_foldlM {entries : List (String × FieldType)}
    {fields fields' : Table FieldType} {members : List (String × Json)}
    (hfields : fields.All FieldType.AnyFree)
    (hentries : forall e, e ∈ entries -> FieldType.AnyFree e.2)
    (h : entries.foldlM meetField fields = .ok fields') :
    FieldsHold find fields' members <->
      FieldsHold find fields members ∧
        forall key t, (key, t) ∈ entries -> MemberHolds find t (members.lookup key) := by
  induction entries generalizing fields with
  | nil =>
      cases h
      simp
  | cons e rest ih =>
      rcases e with ⟨key, t⟩
      rw [List.foldlM_cons] at h
      rcases bind_eq_ok h with ⟨between, hbetween, hrest⟩
      have ht := hentries (key, t) List.mem_cons_self
      have hfree := every_meetField FieldType.closed_anyFree hfields ht hbetween
      rw [ih hfree (fun e he => hentries e (List.mem_cons_of_mem _ he)) hrest,
        fieldsHold_meetField hfields ht hbetween, and_assoc]
      simp only [List.mem_cons, Prod.mk.injEq]
      constructor
      · intro hboth
        rcases hboth with ⟨hall, hfirst, hothers⟩
        refine ⟨hall, ?_⟩
        intro name u hcases
        rcases hcases with ⟨rfl, rfl⟩ | hu
        · exact hfirst
        · exact hothers name u hu
      · intro hboth
        rcases hboth with ⟨hall, hentries⟩
        exact ⟨hall, hentries key t (Or.inl ⟨rfl, rfl⟩),
          fun name u hu => hentries name u (Or.inr hu)⟩

theorem shapeHolds_mergeFields {a b : Table FieldType} {s : Shape} {name other : Option String}
    (ha : a.All FieldType.AnyFree) (hb : b.All FieldType.AnyFree)
    (h : mergeFields a b = .ok s) :
    ShapeHolds find s value <->
      ShapeHolds find (.object name a) value ∧ ShapeHolds find (.object other b) value := by
  rcases bind_eq_ok h with ⟨fields, hfields, hdone⟩
  cases hdone
  have hboth : forall members, FieldsHold find fields members <->
      FieldsHold find a members ∧ FieldsHold find b members := by
    intro members
    exact fieldsHold_foldlM ha (fun e he => hb e.1 e.2 he) hfields
  rw [shapeHolds_object, shapeHolds_object, shapeHolds_object]
  constructor
  · intro hfound
    rcases hfound with ⟨members, rfl, hmembers⟩
    rcases (hboth members).mp hmembers with ⟨hma, hmb⟩
    exact ⟨⟨members, rfl, hma⟩, ⟨members, rfl, hmb⟩⟩
  · intro hfound
    rcases hfound with ⟨⟨members, rfl, hma⟩, ⟨others, heq, hmb⟩⟩
    cases heq
    exact ⟨members, rfl, (hboth members).mpr ⟨hma, hmb⟩⟩

/-!
# Intersections

Simple shapes share what their leaves or their fields share, and a distributed
union has the values of its branches.
-/

theorem shapeHolds_leaf? {s : Shape} {t : FieldType} (h : s.leaf? = some t) :
    ShapeHolds find s value <-> TypeHolds find t value := by
  cases s with
  | keyword word =>
      cases h
      rw [shapeHolds_keyword, typeHolds_keyword]
  | literal literal =>
      cases h
      rw [shapeHolds_literal, typeHolds_literal]
  | object | union => cases h

theorem shapeHolds_ofLeaf? {s : Shape} {t : FieldType} (h : ofLeaf? t = some s) :
    ShapeHolds find s value <-> TypeHolds find t value := by
  cases t with
  | keyword word =>
      cases h
      rw [shapeHolds_keyword, typeHolds_keyword]
  | literal literal =>
      cases h
      rw [shapeHolds_literal, typeHolds_literal]
  | reference | union | intersection => cases h

theorem shapeHolds_meetLeaves {a b s : Shape} (ha : a.AnyFree) (hb : b.AnyFree)
    (h : meetLeaves a b = .ok s) :
    ShapeHolds find s value <-> ShapeHolds find a value ∧ ShapeHolds find b value := by
  unfold meetLeaves at h
  split at h
  · rename_i t u ht hu
    split at h
    · rename_i shape hshape
      cases h
      rcases Option.bind_eq_some_iff.mp hshape with ⟨m, hm, hleaf⟩
      have hboth := (FieldType.sense_typeHolds find value).meet?
        ((every_leaf? ht).mpr ha) ((every_leaf? hu).mpr hb)
      rw [hm] at hboth
      rw [shapeHolds_ofLeaf? hleaf, shapeHolds_leaf? ht, shapeHolds_leaf? hu]
      exact hboth
    · cases h
  · cases h

theorem shapeHolds_unknown : ShapeHolds find (.keyword .unknown) value :=
  shapeHolds_keyword.mpr rfl

theorem shapeHolds_intersectSimple {a b s : Shape} (ha : a.AnyFree) (hb : b.AnyFree)
    (h : intersectSimple a b = .ok s) :
    ShapeHolds find s value <-> ShapeHolds find a value ∧ ShapeHolds find b value := by
  unfold intersectSimple at h
  split at h
  · cases h
    simp [shapeHolds_unknown]
  · cases h
    simp [shapeHolds_unknown]
  · exact absurd rfl hb
  · exact absurd rfl ha
  · exact shapeHolds_mergeFields ha hb h
  · exact shapeHolds_meetLeaves ha hb h

theorem shapeHolds_branches {name : Option String} {members : List Shape} {other s : Shape}
    {meet : Shape -> Except Failure Shape}
    (hmembers : forall m, m ∈ members -> forall x, meet m = .ok x ->
      (ShapeHolds find x value <-> ShapeHolds find m value ∧ ShapeHolds find other value))
    (h : members.mapM meet >>= unite = .ok s) :
    ShapeHolds find s value <->
      ShapeHolds find (.union name members) value ∧ ShapeHolds find other value := by
  rcases bind_eq_ok h with ⟨branches, hbranches, hunite⟩
  rw [shapeHolds_unite hunite, shapeHolds_union]
  constructor
  · intro hfound
    rcases hfound with ⟨x, hx, hholds⟩
    rcases (mem_of_mapM_eq_ok hbranches).mp hx with ⟨m, hm, hmeet⟩
    rcases (hmembers m hm x hmeet).mp hholds with ⟨hholdsm, hother⟩
    exact ⟨⟨m, hm, hholdsm⟩, hother⟩
  · intro hfound
    rcases hfound with ⟨⟨m, hm, hholdsm⟩, hother⟩
    rcases exists_of_mapM_eq_ok hbranches m hm with ⟨x, hmeet⟩
    exact ⟨x, (mem_of_mapM_eq_ok hbranches).mpr ⟨m, hm, hmeet⟩,
      (hmembers m hm x hmeet).mpr ⟨hholdsm, hother⟩⟩

theorem shapeHolds_intersectPair {a b s : Shape} (ha : a.AnyFree) (hb : b.AnyFree)
    (h : intersectPair a b = .ok s) :
    ShapeHolds find s value <-> ShapeHolds find a value ∧ ShapeHolds find b value := by
  have hall : a.AnyFree -> b.AnyFree -> forall s, intersectPair a b = .ok s ->
      (ShapeHolds find s value <-> ShapeHolds find a value ∧ ShapeHolds find b value) := by
    refine intersectPair_induction
      (motive := fun a b result => a.AnyFree -> b.AnyFree -> forall s, result = .ok s ->
        (ShapeHolds find s value <-> ShapeHolds find a value ∧ ShapeHolds find b value))
      ?_ ?_ ?_ ?_ ?_ a b
    · intro a b _ _ ha hb s hsimple
      exact shapeHolds_intersectSimple ha hb hsimple
    · intro a _ _ s hs
      cases hs
      simp [shapeHolds_unknown]
    · intro name members b meet hmembers ha hb s hs
      refine shapeHolds_branches ?_ hs
      intro m hm
      exact hmembers m hm (every_union_iff.mp ha m hm) hb
    · intro b _ _ s hs
      cases hs
      simp [shapeHolds_unknown]
    · intro a name members meet hmembers ha hb s hs
      rw [and_comm]
      refine shapeHolds_branches ?_ hs
      intro m hm
      exact hmembers m hm (every_union_iff.mp hb m hm) ha
  exact hall ha hb s h

theorem shapeHolds_intersect {shapes : List Shape} {s : Shape}
    (hshapes : forall x, x ∈ shapes -> x.AnyFree) (h : intersect shapes = .ok s) :
    ShapeHolds find s value <-> forall x, x ∈ shapes -> ShapeHolds find x value := by
  cases shapes with
  | nil => cases h
  | cons first rest =>
      rw [intersect] at h
      rw [List.forall_mem_cons] at hshapes
      rcases hshapes with ⟨hfirst, hrest⟩
      induction rest generalizing first with
      | nil =>
          cases h
          simp
      | cons next rest ih =>
          rw [List.foldlM_cons] at h
          rcases bind_eq_ok h with ⟨between, hbetween, hdone⟩
          rw [List.forall_mem_cons] at hrest
          have hfree := every_intersectPair FieldType.closed_anyFree hfirst hrest.1 hbetween
          rw [ih between hdone hfree hrest.2]
          simp only [List.forall_mem_cons, shapeHolds_intersectPair hfirst hrest.1 hbetween,
            and_assoc]

end Shape
end Shapes
