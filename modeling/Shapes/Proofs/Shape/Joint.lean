import Shapes.Proofs.FieldType.Joint
import Shapes.Proofs.Shape.Every

/-!
# What is left of shapes that were intersected

Shapes that are not unions are intersected field by field.  `Shape.Joint` describes
the result by the shapes that went into it: it has the fields of all of them, and
what was met at each field is described by a `FieldType.Gathering`.  Whether there is
a result at all is decided by `Shape.Compatible`, which does not know an order either.
-/

namespace Shapes
namespace Shape

/-!
# Fields together

Two objects are merged name by name, so what becomes of one field can be looked
at by itself.
-/

/-- What two objects have for a field, together; `none` if the types have no meet. -/
def meetEntries? : Option FieldType -> Option FieldType -> Option (Option FieldType)
  | some t, some u => (t.meet? u).map some
  | some t, none => some (some t)
  | none, u => some u

theorem meetEntries?_none (t : Option FieldType) : meetEntries? t none = some t := by
  cases t <;> rfl

theorem ends_meetField_entries (fields : Table FieldType) (key : String) (t : FieldType) :
    Ends
      (fun fields' => exists u, meetEntries? (fields.get? key) (some t) = some (some u) ∧
        fields' = fields.insert key u)
      (fun _ => meetEntries? (fields.get? key) (some t) = none) (meetField fields (key, t)) := by
  unfold meetField
  cases hpresent : fields.get? key with
  | none =>
      dsimp only
      exact ⟨t, rfl, rfl⟩
  | some present =>
      dsimp only
      cases hmeet : present.meet? t with
      | none =>
          dsimp only [meetEntries?]
          rw [hmeet]
          rfl
      | some u =>
          dsimp only [meetEntries?]
          rw [hmeet]
          exact ⟨u, rfl, rfl⟩

theorem ends_foldlM_meetField_entries {entries : List (String × FieldType)}
    (hdistinct : (entries.map Prod.fst).Nodup) (fields : Table FieldType) :
    Ends
      (fun fields' => forall key,
        meetEntries? (fields.get? key) (entries.lookup key) = some (fields'.get? key))
      (fun _ => exists key, meetEntries? (fields.get? key) (entries.lookup key) = none)
      (entries.foldlM meetField fields) := by
  induction entries generalizing fields with
  | nil => exact fun key => meetEntries?_none _
  | cons e rest ih =>
      rcases e with ⟨key, t⟩
      rw [List.map_cons, List.nodup_cons] at hdistinct
      have hrest : rest.lookup key = none := by
        rw [Option.eq_none_iff_forall_ne_some]
        intro u hu
        have hmem := (Table.lookup_eq_some_iff_mem hdistinct.2).mp hu
        exact hdistinct.1 (List.mem_map.mpr ⟨_, hmem, rfl⟩)
      rw [List.foldlM_cons]
      have hstep := ends_meetField_entries fields key t
      cases hbetween : meetField fields (key, t) with
      | error failure =>
          rw [hbetween] at hstep
          refine ⟨key, ?_⟩
          rw [List.lookup_cons_self]
          exact hstep
      | ok between =>
          rw [hbetween] at hstep
          rcases hstep with ⟨u, hmeet, rfl⟩
          have hothers : forall name,
              meetEntries? ((fields.insert key u).get? name) (rest.lookup name) =
                meetEntries? (fields.get? name) (((key, t) :: rest).lookup name) := by
            intro name
            rw [Table.get?_insert, List.lookup_cons]
            by_cases hname : name = key
            · subst hname
              simp [hrest, meetEntries?_none, hmeet]
            · simp [hname, beq_eq_false_iff_ne.mpr hname]
          have hfolded := ih hdistinct.2 (fields.insert key u)
          simp only [hothers] at hfolded
          exact hfolded

theorem ends_mergeFields (a b : Table FieldType) :
    Ends
      (fun s => exists fields, s = .object none fields ∧
        forall key, meetEntries? (a.get? key) (b.get? key) = some (fields.get? key))
      (fun _ => exists key, meetEntries? (a.get? key) (b.get? key) = none) (mergeFields a b) := by
  have hfields := ends_foldlM_meetField_entries b.distinct a
  unfold mergeFields
  cases hfolded : b.entries.foldlM meetField a with
  | error failure =>
      rw [hfolded] at hfields
      exact hfields
  | ok fields =>
      rw [hfolded] at hfields
      exact ⟨fields, rfl, hfields⟩

/-!
# Shapes by what went into them

Leaves, types of a field and compatibility are read off the list of shapes that
were intersected.  All of them stay the same when the list is rearranged.
-/

/-- The leaves among shapes, as types. -/
def leavesOf (shapes : List Shape) : List FieldType :=
  shapes.filterMap leaf?

/-- The types that shapes have for a field. -/
def typesAt (key : String) (shapes : List Shape) : List FieldType :=
  shapes.filterMap fun s => s.fields?.bind fun fields => fields.get? key

def AllLeaves (shapes : List Shape) : Prop :=
  forall s, s ∈ shapes -> exists t, s.leaf? = some t

/-- Shapes that are objects, apart from those that say nothing. -/
def AllObjects (shapes : List Shape) : Prop :=
  forall s, s ∈ shapes -> s = .keyword .unknown ∨ exists fields, s.fields? = some fields

/-- Shapes that have an intersection, if they are not unions. -/
def Compatible (shapes : List Shape) : Prop :=
  (AllLeaves shapes ∧ exists point, forall t, t ∈ leavesOf shapes -> FieldType.Clear point t) ∨
    (AllObjects shapes ∧
      forall key, exists point, forall t, t ∈ typesAt key shapes -> FieldType.Clear point t)

/-- A field by the types that went into it; without types there is no field. -/
def JointAt (joint : List FieldType -> FieldType -> Prop) (types : List FieldType) :
    Option FieldType -> Prop
  | some t => joint types t
  | none => types = []

/-- A leaf or an object by the shapes that went into it. -/
inductive Joint (joint : List FieldType -> FieldType -> Prop) : List Shape -> Shape -> Prop where
  | leaf {shapes s t} : s.leaf? = some t -> AllLeaves shapes -> joint (leavesOf shapes) t ->
      Joint joint shapes s
  | object {shapes name fields} : AllObjects shapes ->
      (exists s, s ∈ shapes ∧ exists fields, s.fields? = some fields) ->
      (forall key, JointAt joint (typesAt key shapes) (fields.get? key)) ->
      Joint joint shapes (.object name fields)

mutual

/-- All types of a shape have a property, and none of its unions is empty. -/
def Made (good : FieldType -> Prop) : Shape -> Prop
  | object _ fields => fields.All good
  | union _ members => members ≠ [] ∧ AllMade good members
  | keyword word => good (.keyword word)
  | literal value => good (.literal value)

def AllMade (good : FieldType -> Prop) : List Shape -> Prop
  | [] => True
  | s :: rest => Made good s ∧ AllMade good rest

end

section Decidable

variable (good : FieldType -> Prop) [DecidablePred good]

mutual

def decideMade : (s : Shape) -> Decidable (Made good s)
  | object _ fields => inferInstanceAs (Decidable (fields.All good))
  | union _ members =>
      have := decideAllMade members
      inferInstanceAs (Decidable (members ≠ [] ∧ AllMade good members))
  | keyword word => inferInstanceAs (Decidable (good (.keyword word)))
  | literal value => inferInstanceAs (Decidable (good (.literal value)))

def decideAllMade : (shapes : List Shape) -> Decidable (AllMade good shapes)
  | [] => inferInstanceAs (Decidable True)
  | s :: rest =>
      have := decideMade s
      have := decideAllMade rest
      inferInstanceAs (Decidable (Made good s ∧ AllMade good rest))

end

instance : DecidablePred (Made good) :=
  decideMade good

end Decidable

section Lists

variable {shapes others : List Shape}

theorem leavesOf_append : leavesOf (shapes ++ others) = leavesOf shapes ++ leavesOf others :=
  List.filterMap_append

theorem typesAt_append (key : String) :
    typesAt key (shapes ++ others) = typesAt key shapes ++ typesAt key others :=
  List.filterMap_append

theorem leavesOf_perm (hperm : shapes.Perm others) : (leavesOf shapes).Perm (leavesOf others) :=
  hperm.filterMap leaf?

theorem typesAt_perm (key : String) (hperm : shapes.Perm others) :
    (typesAt key shapes).Perm (typesAt key others) :=
  hperm.filterMap _

theorem AllLeaves.append (h : AllLeaves shapes) (h' : AllLeaves others) :
    AllLeaves (shapes ++ others) :=
  List.forall_mem_append.mpr ⟨h, h'⟩

theorem AllObjects.append (h : AllObjects shapes) (h' : AllObjects others) :
    AllObjects (shapes ++ others) :=
  List.forall_mem_append.mpr ⟨h, h'⟩

theorem AllLeaves.perm (hperm : shapes.Perm others) (h : AllLeaves shapes) : AllLeaves others :=
  fun s hs => h s (hperm.mem_iff.mpr hs)

theorem AllObjects.perm (hperm : shapes.Perm others) (h : AllObjects shapes) :
    AllObjects others :=
  fun s hs => h s (hperm.mem_iff.mpr hs)

theorem Compatible.perm (hperm : shapes.Perm others) (h : Compatible shapes) :
    Compatible others := by
  rcases h with ⟨hleaves, point, hclear⟩ | ⟨hobjects, hfields⟩
  · apply Or.inl
    constructor
    · exact hleaves.perm hperm
    · exact ⟨point, fun t ht => hclear t ((leavesOf_perm hperm).mem_iff.mpr ht)⟩
  · apply Or.inr
    constructor
    · exact hobjects.perm hperm
    · intro key
      rcases hfields key with ⟨point, hclear⟩
      exact ⟨point, fun t ht => hclear t ((typesAt_perm key hperm).mem_iff.mpr ht)⟩

theorem Compatible.parts (h : Compatible (shapes ++ others)) :
    Compatible shapes ∧ Compatible others := by
  rcases h with ⟨hleaves, point, hclear⟩ | ⟨hobjects, hfields⟩
  · rw [AllLeaves, List.forall_mem_append] at hleaves
    rw [leavesOf_append, List.forall_mem_append] at hclear
    exact ⟨Or.inl ⟨hleaves.1, point, hclear.1⟩, Or.inl ⟨hleaves.2, point, hclear.2⟩⟩
  · rw [AllObjects, List.forall_mem_append] at hobjects
    simp only [typesAt_append, List.forall_mem_append] at hfields
    constructor
    · apply Or.inr
      exact ⟨hobjects.1, fun key => (hfields key).imp fun _ h => h.1⟩
    · apply Or.inr
      exact ⟨hobjects.2, fun key => (hfields key).imp fun _ h => h.2⟩

theorem AllLeaves.fields?_ne_some (h : AllLeaves shapes) {s : Shape} (hs : s ∈ shapes)
    (fields : Table FieldType) : s.fields? ≠ some fields := by
  intro hfields
  rcases h s hs with ⟨t, ht⟩
  cases s with
  | object => cases ht
  | union | keyword | literal => cases hfields

theorem eq_unknown_of_leaf {s : Shape} {t : FieldType} (hleaf : s.leaf? = some t)
    (hobject : s = .keyword .unknown ∨ exists fields, s.fields? = some fields) :
    s = .keyword .unknown := by
  rcases hobject with heq | ⟨fields, hfields⟩
  · exact heq
  · cases s with
    | object | union => cases hleaf
    | keyword | literal => cases hfields

end Lists

theorem single_of_leaf? {s : Shape} {t : FieldType} (h : s.leaf? = some t) : s.Single := by
  rintro name members rfl
  cases h

theorem made_iff_of_leaf? {good : FieldType -> Prop} {s : Shape} {t : FieldType}
    (h : s.leaf? = some t) : Made good s <-> good t := by
  cases s with
  | keyword | literal =>
      cases h
      rfl
  | object | union => cases h

theorem exists_same_leaf {s s' : Shape} {t : FieldType} (ht : s.leaf? = some t)
    (h : s.same s' = true) : exists u, s'.leaf? = some u ∧ t.same u = true := by
  cases s with
  | keyword word =>
      cases s' with
      | keyword other =>
          cases ht
          exact ⟨_, rfl, h⟩
      | object | union | literal => cases h
  | literal value =>
      cases s' with
      | literal other =>
          cases ht
          exact ⟨_, rfl, h⟩
      | object | union | keyword => cases h
  | object | union => cases ht

theorem same_of_leaves {s s' : Shape} {t u : FieldType} (ht : s.leaf? = some t)
    (hu : s'.leaf? = some u) (h : t.same u = true) : s.same s' = true := by
  cases s with
  | keyword word =>
      cases s' with
      | keyword other =>
          cases ht
          cases hu
          exact h
      | literal other =>
          cases ht
          cases hu
          cases h
      | object | union => cases hu
  | literal value =>
      cases s' with
      | literal other =>
          cases ht
          cases hu
          exact h
      | keyword other =>
          cases ht
          cases hu
          cases h
      | object | union => cases hu
  | object | union => cases ht

theorem eq_unknown_of_allObjects {shapes : List Shape} (hobjects : AllObjects shapes) :
    forall t, t ∈ leavesOf shapes -> t = .keyword .unknown := by
  intro t ht
  rcases List.mem_filterMap.mp ht with ⟨s, hs, hst⟩
  have heq := eq_unknown_of_leaf hst (hobjects s hs)
  subst heq
  cases hst
  rfl

theorem clear_leaf_iff {t : FieldType} (hleaf : t.isLeaf = true) :
    FieldType.Clear ⟨.keyword .unknown, []⟩ t <-> t = .keyword .unknown := by
  rw [FieldType.clear_iff_at (FieldType.single_of_isLeaf hleaf)]
  constructor
  · intro h
    apply FieldType.eq_unknown_of_at _ h
    rintro members rfl
    cases hleaf
  · rintro rfl
    exact (FieldType.reading_at _).unknown

theorem intersectSimple_of_leaves {x y : Shape} {t u : FieldType} (ht : x.leaf? = some t)
    (hu : y.leaf? = some u) :
    intersectSimple x y =
      match (t.meet? u).bind ofLeaf? with
      | some z => .ok z
      | none => .error (.incompatible none) := by
  have hleaves : intersectSimple x y = meetLeaves x y := by
    cases x with
    | keyword word =>
        cases y with
        | keyword other => cases word <;> cases other <;> rfl
        | literal value => cases word <;> rfl
        | object | union => cases hu
    | literal value =>
        cases y with
        | keyword other => cases other <;> rfl
        | literal other => rfl
        | object | union => cases hu
    | object | union => cases ht
  rw [hleaves]
  simp only [meetLeaves, ht, hu]
  rfl

theorem intersectSimple_leaf_object {x : Shape} {t : FieldType} (ht : x.leaf? = some t)
    (hany : t ≠ .keyword .any) (name : Option String) (fields : Table FieldType) :
    (t = .keyword .unknown ∧ intersectSimple x (.object name fields) = .ok (.object name fields) ∧
        intersectSimple (.object name fields) x = .ok (.object name fields)) ∨
      (t ≠ .keyword .unknown ∧
        intersectSimple x (.object name fields) = .error (.incompatible none) ∧
        intersectSimple (.object name fields) x = .error (.incompatible none)) := by
  cases x with
  | keyword word =>
      cases ht
      cases word with
      | unknown => exact Or.inl ⟨rfl, rfl, rfl⟩
      | any => exact absurd rfl hany
      | string | number | boolean | null | undefined | never =>
          exact Or.inr ⟨by simp, rfl, rfl⟩
  | literal value =>
      cases ht
      exact Or.inr ⟨by simp, rfl, rfl⟩
  | object | union => cases ht

theorem exists_ofLeaf? {t : FieldType} (h : t.isLeaf = true) :
    exists z, ofLeaf? t = some z ∧ z.leaf? = some t := by
  cases t with
  | keyword | literal => exact ⟨_, rfl, rfl⟩
  | reference | union | intersection => cases h

section Joint

variable {good : FieldType -> Prop} {joint : List FieldType -> FieldType -> Prop}
  (hg : FieldType.Gathering good joint) {shapes others : List Shape} {s : Shape}

include hg

theorem joint_unit (hsingle : s.Single) (hmade : Made good s) : Joint joint [s] s := by
  cases s with
  | object name fields =>
      apply Joint.object
      · intro s hs
        cases List.mem_singleton.mp hs
        exact Or.inr ⟨fields, rfl⟩
      · exact ⟨_, List.mem_singleton_self _, fields, rfl⟩
      · intro key
        simp only [typesAt, List.filterMap_cons, List.filterMap_nil, fields?, Option.bind_some]
        cases hfield : fields.get? key with
        | none => rfl
        | some t => exact hg.unit (hmade key t (Table.get?_eq_some_iff_mem.mp hfield))
  | union name members => exact absurd rfl (hsingle name members)
  | keyword | literal =>
      apply Joint.leaf rfl
      · intro s hs
        cases List.mem_singleton.mp hs
        exact ⟨_, rfl⟩
      · exact hg.unit hmade

theorem Joint.perm (hperm : shapes.Perm others) (h : Joint joint shapes s) :
    Joint joint others s := by
  cases h with
  | leaf hleaf hleaves hjoint =>
      exact Joint.leaf hleaf (hleaves.perm hperm) (hg.perm (leavesOf_perm hperm) hjoint)
  | object hobjects hsome hfields =>
      apply Joint.object (hobjects.perm hperm)
      · rcases hsome with ⟨s, hs, hfields⟩
        exact ⟨s, hperm.mem_iff.mp hs, hfields⟩
      · intro key
        have htypes := typesAt_perm key hperm
        have hjoint := hfields key
        cases hfield : Table.get? _ key with
        | none =>
            rw [hfield] at hjoint
            change typesAt key shapes = [] at hjoint
            rw [hjoint] at htypes
            exact htypes.nil_eq.symm
        | some t =>
            rw [hfield] at hjoint
            exact hg.perm htypes hjoint

theorem Joint.compatible (hmade : Made good s) (h : Joint joint shapes s) : Compatible shapes := by
  cases h with
  | leaf hleaf hleaves hjoint =>
      rcases (hg.viable ((made_iff_of_leaf? hleaf).mp hmade)).exists_clear with ⟨point, hclear⟩
      exact Or.inl ⟨hleaves, point, (hg.clear hjoint point).mp hclear⟩
  | object hobjects _ hfields =>
      apply Or.inr
      refine ⟨hobjects, ?_⟩
      intro key
      have hjoint := hfields key
      cases hfield : Table.get? _ key with
      | none =>
          rw [hfield] at hjoint
          change typesAt key shapes = [] at hjoint
          rw [hjoint]
          exact ⟨⟨.keyword .unknown, []⟩, by simp⟩
      | some t =>
          rw [hfield] at hjoint
          have hviable := hg.viable (hmade key t (Table.get?_eq_some_iff_mem.mp hfield))
          rcases hviable.exists_clear with ⟨point, hclear⟩
          exact ⟨point, (hg.clear hjoint point).mp hclear⟩

theorem Joint.same {s' : Shape} (hsame : s.same s' = true) (h : Joint joint shapes s) :
    Joint joint shapes s' := by
  cases h with
  | leaf hleaf hleaves hjoint =>
      rcases exists_same_leaf hleaf hsame with ⟨u, hu, htu⟩
      exact Joint.leaf hu hleaves (hg.same htu hjoint)
  | object hobjects hsome hfields =>
      cases s' with
      | object name others =>
          apply Joint.object hobjects hsome
          intro key
          have hjoint := hfields key
          have hrel := sameFields_iff.mp hsame key
          generalize Table.get? _ key = t at hrel hjoint
          generalize others.get? key = u at hrel
          cases hrel with
          | some hsame => exact hg.same hsame hjoint
          | none => exact hjoint
      | union | keyword | literal => cases hsame

omit hg in
theorem joint_of_leaf? {t : FieldType} (hleaf : s.leaf? = some t) (h : Joint joint shapes s) :
    AllLeaves shapes ∧ joint (leavesOf shapes) t := by
  cases h with
  | leaf hleaf' hleaves hjoint =>
      rw [hleaf] at hleaf'
      cases hleaf'
      exact ⟨hleaves, hjoint⟩
  | object => cases hleaf

omit hg in
theorem joint_of_object {name : Option String} {fields : Table FieldType}
    (h : Joint joint shapes (.object name fields)) :
    AllObjects shapes ∧ (exists s, s ∈ shapes ∧ exists fields, s.fields? = some fields) ∧
      forall key, JointAt joint (typesAt key shapes) (fields.get? key) := by
  cases h with
  | leaf hleaf => cases hleaf
  | object hobjects hsome hfields => exact ⟨hobjects, hsome, hfields⟩

/-!
# Entries

What a gathering says of a meet is what is left of two fields.
-/

section Entries

variable {types types' : List FieldType} {t u v : Option FieldType}
  (ht : forall x, t = some x -> good x) (hu : forall x, u = some x -> good x)

include ht hu

theorem good_meetEntries? (h : meetEntries? t u = some v) : forall x, v = some x -> good x := by
  cases t with
  | none =>
      cases h
      exact hu
  | some a =>
      cases u with
      | none =>
          cases h
          exact ht
      | some b =>
          rcases Option.map_eq_some_iff.mp h with ⟨c, hc, rfl⟩
          intro x hx
          cases hx
          exact hg.good_meet (ht a rfl) (hu b rfl) hc

theorem jointAt_meetEntries? (h : meetEntries? t u = some v) (hjoint : JointAt joint types t)
    (hjoint' : JointAt joint types' u) : JointAt joint (types ++ types') v := by
  cases t with
  | none =>
      cases h
      change types = [] at hjoint
      rw [hjoint, List.nil_append]
      exact hjoint'
  | some a =>
      cases u with
      | none =>
          cases h
          change types' = [] at hjoint'
          rw [hjoint', List.append_nil]
          exact hjoint
      | some b =>
          rcases Option.map_eq_some_iff.mp h with ⟨c, hc, rfl⟩
          exact hg.joint_meet (ht a rfl) (hu b rfl) hc hjoint hjoint'

theorem not_clear_of_meetEntries? (h : meetEntries? t u = none) (hjoint : JointAt joint types t)
    (hjoint' : JointAt joint types' u) (point : FieldType.Point) :
    ¬ forall x, x ∈ types ++ types' -> FieldType.Clear point x := by
  cases t with
  | none => cases h
  | some a =>
      cases u with
      | none => cases h
      | some b =>
          have hmeet := FieldType.clear_meet? point (hg.viable (ht a rfl)) (hg.viable (hu b rfl))
          rw [Option.map_eq_none_iff.mp h] at hmeet
          rw [List.forall_mem_append, ← hg.clear hjoint point, ← hg.clear hjoint' point]
          exact hmeet

end Entries

/-!
# Simple intersections

Of two shapes that are not unions, either the intersection is left of everything
that went into both, or what went into them was incompatible.
-/

/-- The meet of types that went into two shapes is left of all of them. -/
def Meets (joint : List FieldType -> FieldType -> Prop) (x y z : Shape) : Prop :=
  forall shapes others, Joint joint shapes x -> Joint joint others y ->
    Joint joint (shapes ++ others) z

/-- Shapes that went into two others are not compatible. -/
def Clashes (joint : List FieldType -> FieldType -> Prop) (x y : Shape) : Prop :=
  forall shapes others, Joint joint shapes x -> Joint joint others y ->
    ¬ Compatible (shapes ++ others)

theorem Meets.symm {x y z : Shape} (h : Meets joint x y z) : Meets joint y x z := by
  intro shapes others hy hx
  exact Joint.perm hg List.perm_append_comm (h others shapes hx hy)

omit hg in
theorem Clashes.symm {x y : Shape} (h : Clashes joint x y) : Clashes joint y x := by
  intro shapes others hy hx hcompatible
  exact h others shapes hx hy (hcompatible.perm List.perm_append_comm)

/-- How the intersection of two shapes that are not unions ends. -/
def Answers (good : FieldType -> Prop) (joint : List FieldType -> FieldType -> Prop)
    (x y : Shape) : Except Failure Shape -> Prop :=
  Ends (fun z => z.Single ∧ Made good z ∧ Meets joint x y z) fun _ => Clashes joint x y

theorem answers_mergeFields {a b : Table FieldType} {name other : Option String}
    (ha : a.All good) (hb : b.All good) :
    Answers good joint (.object name a) (.object other b) (mergeFields a b) := by
  have hvalues : forall {fields : Table FieldType}, fields.All good -> forall key t,
      fields.get? key = some t -> good t :=
    fun h key t ht => h key t (Table.get?_eq_some_iff_mem.mp ht)
  have hends := ends_mergeFields a b
  cases hmerged : mergeFields a b with
  | ok z =>
      rw [hmerged] at hends
      rcases hends with ⟨fields, rfl, hfields⟩
      refine ⟨by simp [Single], ?_, ?_⟩
      · intro key t ht
        exact good_meetEntries? hg (hvalues ha key) (hvalues hb key) (hfields key) t
          (Table.get?_eq_some_iff_mem.mpr ht)
      · intro shapes others hx hy
        rcases joint_of_object hx with ⟨hobjects, ⟨s, hs, hsome⟩, hentries⟩
        rcases joint_of_object hy with ⟨hobjects', _, hentries'⟩
        apply Joint.object (hobjects.append hobjects')
        · exact ⟨s, List.mem_append_left _ hs, hsome⟩
        · intro key
          rw [typesAt_append]
          exact jointAt_meetEntries? hg (hvalues ha key) (hvalues hb key) (hfields key)
            (hentries key) (hentries' key)
  | error failure =>
      rw [hmerged] at hends
      rcases hends with ⟨key, hnone⟩
      intro shapes others hx hy hcompatible
      rcases joint_of_object hx with ⟨_, ⟨s, hs, fields, hsome⟩, hentries⟩
      rcases joint_of_object hy with ⟨_, _, hentries'⟩
      rcases hcompatible with ⟨hleaves, _⟩ | ⟨_, hfields⟩
      · exact hleaves.fields?_ne_some (List.mem_append_left _ hs) fields hsome
      · rcases hfields key with ⟨point, hclear⟩
        rw [typesAt_append] at hclear
        exact not_clear_of_meetEntries? hg (hvalues ha key) (hvalues hb key) hnone
          (hentries key) (hentries' key) point hclear

/-!
# Leaves

Leaves are met as types, and a leaf and an object are compatible only if one of
them says nothing.
-/

theorem leaf_eq_unknown_iff {t : FieldType} (hleaf : s.leaf? = some t)
    (h : Joint joint shapes s) : t = .keyword .unknown <-> AllObjects shapes := by
  rcases joint_of_leaf? hleaf h with ⟨hleaves, hjoint⟩
  rw [← clear_leaf_iff (isLeaf_of_leaf? hleaf), hg.clear hjoint]
  constructor
  · intro hclear s hs
    rcases hleaves s hs with ⟨u, hu⟩
    have hunknown := hclear u (List.mem_filterMap.mpr ⟨s, hs, hu⟩)
    rw [clear_leaf_iff (isLeaf_of_leaf? hu)] at hunknown
    subst hunknown
    cases s with
    | keyword word =>
        cases hu
        exact Or.inl rfl
    | object | union | literal => cases hu
  · intro hobjects u hu
    rw [eq_unknown_of_allObjects hobjects u hu]
    exact (FieldType.branching_clear _).unknown

section Leaves

variable {x y : Shape} {t : FieldType}

theorem answers_leaves {u : FieldType} (ht : x.leaf? = some t) (hu : y.leaf? = some u)
    (hx : Made good x) (hy : Made good y) : Answers good joint x y (intersectSimple x y) := by
  rw [made_iff_of_leaf? ht] at hx
  rw [made_iff_of_leaf? hu] at hy
  have htleaf := isLeaf_of_leaf? ht
  have huleaf := isLeaf_of_leaf? hu
  rw [intersectSimple_of_leaves ht hu]
  cases hc : t.meet? u with
  | some c =>
      have hleaf : c.isLeaf = true := by
        rw [FieldType.meet?_of_isLeaf htleaf huleaf] at hc
        rcases FieldType.leafMeet?_mem hc with rfl | rfl
        · exact htleaf
        · exact huleaf
      rcases exists_ofLeaf? hleaf with ⟨z, hz, hzleaf⟩
      rw [Option.bind_some, hz]
      refine ⟨single_of_leaf? hzleaf, (made_iff_of_leaf? hzleaf).mpr (hg.good_meet hx hy hc), ?_⟩
      intro shapes others hjoint hjoint'
      rcases joint_of_leaf? ht hjoint with ⟨hleaves, htypes⟩
      rcases joint_of_leaf? hu hjoint' with ⟨hleaves', htypes'⟩
      apply Joint.leaf hzleaf (hleaves.append hleaves')
      rw [leavesOf_append]
      exact hg.joint_meet hx hy hc htypes htypes'
  | none =>
      rw [Option.bind_none]
      intro shapes others hjoint hjoint' hcompatible
      have hnever := fun point => FieldType.clear_meet? point (hg.viable hx) (hg.viable hy)
      rw [hc] at hnever
      rcases joint_of_leaf? ht hjoint with ⟨hleaves, htypes⟩
      rcases joint_of_leaf? hu hjoint' with ⟨hleaves', htypes'⟩
      rcases hcompatible with ⟨_, point, hclear⟩ | ⟨hobjects, _⟩
      · rw [leavesOf_append, List.forall_mem_append, ← hg.clear htypes,
          ← hg.clear htypes'] at hclear
        exact hnever point hclear
      · -- Without an object in sight the shapes say nothing, and then there is a meet.
        rw [AllObjects, List.forall_mem_append] at hobjects
        rw [(leaf_eq_unknown_iff hg ht hjoint).mpr hobjects.1,
          (leaf_eq_unknown_iff hg hu hjoint').mpr hobjects.2] at hnever
        have hunknown := (FieldType.branching_clear ⟨.keyword .unknown, []⟩).unknown
        exact hnever _ ⟨hunknown, hunknown⟩

theorem clashes_of_leaf {name : Option String} {fields : Table FieldType}
    (ht : x.leaf? = some t) (hunknown : t ≠ .keyword .unknown) :
    Clashes joint x (.object name fields) := by
  intro shapes others hjoint hjoint' hcompatible
  rcases joint_of_object hjoint' with ⟨_, ⟨s, hs, fields, hsome⟩, _⟩
  rcases hcompatible with ⟨hleaves, _⟩ | ⟨hobjects, _⟩
  · exact hleaves.fields?_ne_some (List.mem_append_right _ hs) fields hsome
  · rw [AllObjects, List.forall_mem_append] at hobjects
    exact hunknown ((leaf_eq_unknown_iff hg ht hjoint).mpr hobjects.1)

theorem meets_unknown {name : Option String} {fields : Table FieldType}
    (hx : x.leaf? = some (.keyword .unknown)) :
    Meets joint x (.object name fields) (.object name fields) := by
  intro shapes others hjoint hjoint'
  rcases joint_of_object hjoint' with ⟨hobjects, ⟨s, hs, hsome⟩, hentries⟩
  have hunknown := (leaf_eq_unknown_iff hg hx hjoint).mp rfl
  have hleaves := (joint_of_leaf? hx hjoint).1
  apply Joint.object (hunknown.append hobjects)
  · exact ⟨s, List.mem_append_right _ hs, hsome⟩
  · intro key
    have hnone : typesAt key shapes = [] := by
      apply List.filterMap_eq_nil_iff.mpr
      intro s hs
      rcases hleaves s hs with ⟨u, hu⟩
      rw [eq_unknown_of_leaf hu (hunknown s hs)]
      rfl
    rw [typesAt_append, hnone, List.nil_append]
    exact hentries key

end Leaves

omit hg in
theorem Made.ne_any (hviable : forall {t}, good t -> t.Viable) {t : FieldType}
    (hleaf : s.leaf? = some t) (h : Made good s) : t ≠ .keyword .any :=
  (hviable ((made_iff_of_leaf? hleaf).mp h)).anyFree.self

/-- The intersection of two shapes that are not unions, whether it succeeds or not. -/
theorem answers_intersectSimple {x y : Shape} (hxsingle : x.Single) (hysingle : y.Single)
    (hx : Made good x) (hy : Made good y) : Answers good joint x y (intersectSimple x y) := by
  rcases hxsingle.cases with ⟨name, fields, rfl⟩ | ⟨t, ht⟩
  · rcases hysingle.cases with ⟨other, others, rfl⟩ | ⟨u, hu⟩
    · exact answers_mergeFields hg hx hy
    · rcases intersectSimple_leaf_object hu (hy.ne_any hg.viable hu) name fields with
        ⟨rfl, _, hobject⟩ | ⟨hunknown, _, hfails⟩
      · rw [hobject]
        exact ⟨hxsingle, hx, (meets_unknown hg hu).symm hg⟩
      · rw [hfails]
        exact (clashes_of_leaf hg hu hunknown).symm
  · rcases hysingle.cases with ⟨other, others, rfl⟩ | ⟨u, hu⟩
    · rcases intersectSimple_leaf_object ht (hx.ne_any hg.viable ht) other others with
        ⟨rfl, hobject, _⟩ | ⟨hunknown, hfails, _⟩
      · rw [hobject]
        exact ⟨hysingle, hy, meets_unknown hg ht⟩
      · rw [hfails]
        exact clashes_of_leaf hg ht hunknown
    · exact answers_leaves hg ht hu hx hy

end Joint

theorem jointAt_unique {types : List FieldType} {t u : Option FieldType}
    (ht : forall x, t = some x -> x.Orderly) (hu : forall x, u = some x -> x.Orderly)
    (h : JointAt FieldType.Exact types t) (h' : JointAt FieldType.Exact types u) :
    Option.Rel (fun a b : FieldType => a.same b = true) t u := by
  cases t with
  | none =>
      cases u with
      | none => exact Option.Rel.none
      | some b => exact absurd h h'.common.nonempty
  | some a =>
      cases u with
      | none => exact absurd h' h.common.nonempty
      | some b => exact Option.Rel.some (h.unique (ht a rfl) (hu b rfl) h')

/-- What is left of the same shapes is identical. -/
theorem Joint.unique {shapes : List Shape} {s s' : Shape} (hs : Made FieldType.Orderly s)
    (hs' : Made FieldType.Orderly s') (h : Joint FieldType.Exact shapes s)
    (h' : Joint FieldType.Exact shapes s') : s.same s' = true := by
  cases h with
  | leaf ht hleaves hjoint =>
      cases h' with
      | leaf hu _ hjoint' =>
          rw [made_iff_of_leaf? ht] at hs
          rw [made_iff_of_leaf? hu] at hs'
          exact same_of_leaves ht hu (hjoint.unique hs hs' hjoint')
      | object _ hsome _ =>
          rcases hsome with ⟨x, hx, fields, hfields⟩
          exact absurd hfields (hleaves.fields?_ne_some hx fields)
  | object _ hsome hentries =>
      cases h' with
      | leaf _ hleaves _ =>
          rcases hsome with ⟨x, hx, fields, hfields⟩
          exact absurd hfields (hleaves.fields?_ne_some hx fields)
      | object _ _ hentries' =>
          apply sameFields_iff.mpr
          intro key
          apply jointAt_unique _ _ (hentries key) (hentries' key)
          · exact fun t ht => hs key t (Table.get?_eq_some_iff_mem.mp ht)
          · exact fun t ht => hs' key t (Table.get?_eq_some_iff_mem.mp ht)

end Shape
end Shapes
