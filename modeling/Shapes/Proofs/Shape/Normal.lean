import Shapes.Proofs.Shape.Branches

/-!
# Shapes in normal form

Unions are written flat and without identical members.  Intersections keep shapes in
this form, and two shapes in this form are identical when their branches are.

`Shape.Formed` asks for two different members of a union, and that is enough to compare
shapes.  `Shape.Canonical` asks for members that all differ, at every depth.
-/

namespace Shapes
namespace Shape

/-- A union of different members that are not unions, or a shape that is not a union. -/
def Formed : Shape -> Prop
  | union _ members => (forall m, m ∈ members -> m.Single) ∧ Diverse same members
  | _ => True

instance : DecidablePred Formed
  | union _ members =>
      inferInstanceAs (Decidable ((forall m, m ∈ members -> m.Single) ∧ Diverse same members))
  | object _ _ | keyword _ | literal _ => inferInstanceAs (Decidable True)

theorem Single.formed {s : Shape} (h : s.Single) : s.Formed := by
  cases s with
  | union name members => exact absurd rfl (h name members)
  | object | keyword | literal => trivial

theorem Formed.unionParts {s : Shape} (h : s.Formed) :
    s.unionParts ≠ [] ∧ forall part, part ∈ s.unionParts -> part.Single := by
  cases s with
  | union name members =>
      rcases h with ⟨hsingle, x, hx, _⟩
      exact ⟨List.ne_nil_of_mem hx, hsingle⟩
  | object | keyword | literal => simp [Shape.unionParts, Single]

theorem unite_flat {shapes : List Shape} {s : Shape}
    (hshapes : forall x, x ∈ shapes ->
      x.unionParts ≠ [] ∧ forall part, part ∈ x.unionParts -> part.Single)
    (h : unite shapes = .ok s) :
    s.Single ∨ exists members, s = .union none members ∧
      members = distinctBy same (shapes.flatMap Shape.unionParts) ∧
      (forall m, m ∈ members -> m.Single) ∧ members ≠ [] ∧ forall only, members ≠ [only] := by
  have hsingle : forall m, m ∈ distinctBy same (shapes.flatMap Shape.unionParts) -> m.Single := by
    intro m hm
    rcases List.mem_flatMap.mp (mem_of_mem_distinctBy hm) with ⟨x, hx, hmx⟩
    exact (hshapes x hx).2 m hmx
  rcases unite_cases h with ⟨hsome, honly | ⟨heq, hmany⟩⟩
  · apply Or.inl
    apply hsingle
    rw [honly]
    exact List.mem_singleton_self s
  · refine Or.inr ⟨_, heq, rfl, hsingle, ?_, hmany⟩
    intro hnone
    rw [distinctBy_eq_nil_iff, List.flatMap_eq_nil_iff] at hnone
    rcases List.exists_mem_of_ne_nil shapes hsome with ⟨x, hx⟩
    exact (hshapes x hx).1 (hnone x hx)

theorem formed_unite {shapes : List Shape} {s : Shape}
    (hshapes : forall x, x ∈ shapes -> x.Formed) (h : unite shapes = .ok s) : s.Formed := by
  rcases unite_flat (fun x hx => (hshapes x hx).unionParts) h with
    hsingle | ⟨members, rfl, rfl, hsingle, hsome, hmany⟩
  · exact hsingle.formed
  · exact ⟨hsingle, diverse_distinctBy hsome hmany⟩

theorem single_of_ofLeaf? {t : FieldType} {s : Shape} (h : ofLeaf? t = some s) : s.Single := by
  cases t with
  | keyword | literal =>
      cases h
      simp [Single]
  | reference | union | intersection => cases h

theorem single_intersectSimple {a b s : Shape} (ha : a.Single) (hb : b.Single)
    (h : intersectSimple a b = .ok s) : s.Single := by
  unfold intersectSimple at h
  split at h
  · cases h
    exact hb
  · cases h
    exact ha
  · cases h
    exact ha
  · cases h
    exact hb
  · rcases bind_eq_ok h with ⟨fields, _, hdone⟩
    cases hdone
    simp [Single]
  · unfold meetLeaves at h
    split at h
    · split at h
      · rename_i shape hshape
        cases h
        rcases Option.bind_eq_some_iff.mp hshape with ⟨t, _, hleaf⟩
        exact single_of_ofLeaf? hleaf
      · cases h
    · cases h

/-!
# What unions and intersections keep

A property that unions take over and hand on is one that every intersection
keeps, since an intersection is made of unions of simple shapes.
-/

/--
A property of shapes that are not unions, which unions take over from their operands and
hand on to their members.
-/
structure Stable (p : Shape -> Prop) : Prop where
  single : forall {s : Shape}, s.Single -> p s
  unite : forall {shapes : List Shape} {s : Shape}, (forall x, x ∈ shapes -> p x) ->
    Shape.unite shapes = .ok s -> p s
  member : forall {name : Option String} {members : List Shape}, p (union name members) ->
    forall m, m ∈ members -> p m

namespace Stable

variable {p : Shape -> Prop}

theorem branches (hp : Stable p) {members : List Shape} {meet : Shape -> Except Failure Shape}
    (hmembers : forall m, m ∈ members -> Succeeds p (meet m)) :
    Succeeds p (members.mapM meet >>= Shape.unite) := by
  apply (ends_mapM hmembers).bind
  intro found hfound
  apply ends_iff.mpr
  exact ⟨fun s hs => hp.unite hfound hs, fun _ _ => trivial⟩

theorem intersectPair (hp : Stable p) {a b : Shape} (ha : p a) (hb : p b) :
    Succeeds p (Shape.intersectPair a b) := by
  have hall : p a -> p b -> Succeeds p (Shape.intersectPair a b) := by
    refine intersectPair_induction
      (motive := fun a b result => p a -> p b -> Succeeds p result) ?_ ?_ ?_ ?_ ?_ a b
    · intro a b hasingle hbsingle _ _
      apply ends_iff.mpr
      constructor
      · intro s hs
        exact hp.single (single_intersectSimple hasingle hbsingle hs)
      · intro _ _
        trivial
    · intro a ha _
      exact ha
    · intro name members b meet hmembers ha hb
      exact hp.branches fun m hm => hmembers m hm (hp.member ha m hm) hb
    · intro b _ hb
      exact hb
    · intro a name members meet hmembers ha hb
      exact hp.branches fun m hm => hmembers m hm (hp.member hb m hm) ha
  exact hall ha hb

theorem intersect (hp : Stable p) {shapes : List Shape} {s : Shape}
    (hshapes : forall x, x ∈ shapes -> p x) (h : Shape.intersect shapes = .ok s) : p s := by
  have hends : Succeeds p (Shape.intersect shapes) := by
    cases shapes with
    | nil => trivial
    | cons first rest =>
        rw [List.forall_mem_cons] at hshapes
        apply ends_foldlM _ hshapes.1
        intro next hnext shape hshape
        exact hp.intersectPair hshape (hshapes.2 next hnext)
  rw [h] at hends
  exact hends

end Stable

theorem stable_formed : Stable Formed :=
  ⟨Single.formed, formed_unite, fun h m hm => (h.1 m hm).formed⟩

/-!
# Identity from branches

Shapes in normal form are determined by their branches, up to order.
-/

theorem branches_of_singles {name : Option String} {members : List Shape}
    (h : forall m, m ∈ members -> m.Single) : branches (union name members) = members := by
  rw [branches]
  induction members with
  | nil => rfl
  | cons m rest ih =>
      rw [List.forall_mem_cons] at h
      rw [allBranches, h.1.branches, ih h.2]
      rfl

theorem Formed.branches_cases {s : Shape} (h : s.Formed) :
    s.branches = [s] ∨ ((exists name, s = union name s.branches) ∧ Diverse same s.branches) := by
  cases s with
  | union name members =>
      rw [branches_of_singles h.1]
      exact Or.inr ⟨⟨name, rfl⟩, h.2⟩
  | object | keyword | literal => exact Or.inl rfl

theorem Formed.same_of_branches {s t : Shape} (hs : s.Formed) (ht : t.Formed)
    (hforth : forall x, x ∈ s.branches -> exists y, y ∈ t.branches ∧ x.same y = true)
    (hback : forall y, y ∈ t.branches -> exists x, x ∈ s.branches ∧ x.same y = true) :
    s.same t = true := by
  apply related_of_members same same_symm same_trans hs.branches_cases ht.branches_cases
    hforth hback
  rintro ⟨name, hseq⟩ ⟨other, hteq⟩
  rw [hseq, hteq]
  exact same_union_iff.mpr ⟨hforth, hback⟩

/-!
# Canonical shapes

Members that are no unions have nothing below them, so a canonical union is
canonical at every depth.
-/

/-- Two members of a union at least, no unions among them, and no two of them identical. -/
structure Separate (members : List Shape) : Prop where
  several : 2 ≤ members.length
  flat : forall m, m ∈ members -> m.Single
  distinct : members.Pairwise fun a b => a.same b = false

mutual

/-- Every union has separate members, and every object has distinct names. -/
def Canonical : Shape -> Prop
  | object _ fields => fields.keys.Nodup
  | union _ members => Separate members ∧ AllCanonical members
  | keyword _ | literal _ => True

def AllCanonical : List Shape -> Prop
  | [] => True
  | s :: rest => Canonical s ∧ AllCanonical rest

end

theorem Single.canonical {s : Shape} (h : s.Single) : s.Canonical := by
  cases s with
  | object name fields => exact fields.distinct
  | union name members => exact absurd rfl (h name members)
  | keyword | literal => trivial

theorem canonical_union_iff {name : Option String} {members : List Shape} :
    Canonical (union name members) <-> Separate members := by
  constructor
  · intro h
    exact h.1
  · intro h
    refine ⟨h, ?_⟩
    have hflat := h.flat
    clear h
    induction members with
    | nil => trivial
    | cons m rest ih =>
        rw [List.forall_mem_cons] at hflat
        exact ⟨hflat.1.canonical, ih hflat.2⟩

theorem Canonical.unionParts {s : Shape} (h : s.Canonical) :
    s.unionParts ≠ [] ∧ forall part, part ∈ s.unionParts -> part.Single := by
  cases s with
  | union name members =>
      have hmembers := canonical_union_iff.mp h
      constructor
      · apply List.ne_nil_of_length_pos
        exact Nat.lt_of_lt_of_le Nat.zero_lt_two hmembers.several
      · exact hmembers.flat
  | object | keyword | literal => simp [Shape.unionParts, Single]

theorem canonical_unite {shapes : List Shape} {s : Shape}
    (hshapes : forall x, x ∈ shapes -> x.Canonical) (h : unite shapes = .ok s) :
    s.Canonical := by
  rcases unite_flat (fun x hx => (hshapes x hx).unionParts) h with
    hsingle | ⟨members, rfl, hmembers, hsingle, hsome, hmany⟩
  · exact hsingle.canonical
  · refine canonical_union_iff.mpr ⟨two_le_length hsome hmany, hsingle, ?_⟩
    rw [hmembers]
    exact pairwise_distinctBy same _

theorem stable_canonical : Stable Canonical :=
  ⟨Single.canonical, canonical_unite,
    fun h m hm => ((canonical_union_iff.mp h).flat m hm).canonical⟩

theorem canonical_rename {s : Shape} (h : s.Canonical) (name : String) :
    (s.rename name).Canonical := by
  cases s with
  | object | keyword | literal => exact h
  | union other members => exact canonical_union_iff.mpr (canonical_union_iff.mp h)

end Shape
end Shapes
