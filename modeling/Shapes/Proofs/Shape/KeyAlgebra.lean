import Shapes.Proofs.Shape.Every
import Shapes.Proofs.Shape.Keys

/-!
# Keys of unions and intersections

The keys of a union come from those of its operands in the way that the policy for
unions says, and the keys of an intersection are all keys of its operands.  The
intersection distributes over unions, so this takes the law that `p or q` holds of
all members when `p` does or `q` does, and likewise of some member; for the latter
there has to be a member.  A union without members would break it, and
`Shape.Filled` rules such unions out.
-/

namespace Shapes

/-- What counts for a union under a policy: that all members have a property, or some. -/
def KeyPolicy.Among {α : Type} (policy : KeyPolicy) (members : List α) (p : α -> Prop) : Prop :=
  match policy with
  | .common => forall m, m ∈ members -> p m
  | .any => exists m, m ∈ members ∧ p m

namespace KeyPolicy

variable {α : Type} {members : List α} {p : α -> Prop}

theorem among_iff {β : Type} (policy : KeyPolicy) {others : List β} {q : β -> Prop}
    (hforth : forall a, a ∈ members -> exists b, b ∈ others ∧ (p a <-> q b))
    (hback : forall b, b ∈ others -> exists a, a ∈ members ∧ (p a <-> q b)) :
    policy.Among members p <-> policy.Among others q := by
  cases policy with
  | common =>
      constructor
      · intro hall b hb
        rcases hback b hb with ⟨a, ha, hab⟩
        exact hab.mp (hall a ha)
      · intro hall a ha
        rcases hforth a ha with ⟨b, hb, hab⟩
        exact hab.mpr (hall b hb)
  | any =>
      constructor
      · intro hfound
        rcases hfound with ⟨a, ha, hp⟩
        rcases hforth a ha with ⟨b, hb, hab⟩
        exact ⟨b, hb, hab.mp hp⟩
      · intro hfound
        rcases hfound with ⟨b, hb, hq⟩
        rcases hback b hb with ⟨a, ha, hab⟩
        exact ⟨a, ha, hab.mpr hq⟩

theorem among_or (policy : KeyPolicy) (hsome : members ≠ []) (q : Prop) :
    policy.Among members (fun m => p m ∨ q) <-> policy.Among members p ∨ q := by
  rcases List.exists_mem_of_ne_nil members hsome with ⟨first, hfirst⟩
  cases policy with
  | common =>
      constructor
      · intro hall
        by_cases hq : q
        · exact Or.inr hq
        · left
          intro m hm
          exact (hall m hm).resolve_right hq
      · intro hcases m hm
        exact hcases.imp_left fun hall => hall m hm
  | any =>
      constructor
      · intro hfound
        rcases hfound with ⟨m, hm, hp | hq⟩
        · exact Or.inl ⟨m, hm, hp⟩
        · exact Or.inr hq
      · intro hcases
        rcases hcases with ⟨m, hm, hp⟩ | hq
        · exact ⟨m, hm, Or.inl hp⟩
        · exact ⟨first, hfirst, Or.inr hq⟩

theorem among_flatMap {β : Type} (policy : KeyPolicy) {f : α -> List β} {p : β -> Prop} :
    policy.Among (members.flatMap f) p <->
      policy.Among members fun m => policy.Among (f m) p := by
  cases policy with
  | common =>
      simp only [Among, List.mem_flatMap]
      constructor
      · intro hall m hm b hb
        exact hall b ⟨m, hm, hb⟩
      · intro hall b hfound
        rcases hfound with ⟨m, hm, hb⟩
        exact hall m hm b hb
  | any =>
      simp only [Among, List.mem_flatMap]
      constructor
      · intro hfound
        rcases hfound with ⟨b, ⟨m, hm, hb⟩, hp⟩
        exact ⟨m, hm, b, hb, hp⟩
      · intro hfound
        rcases hfound with ⟨m, hm, b, hb, hp⟩
        exact ⟨b, ⟨m, hm, hb⟩, hp⟩

theorem among_distinctBy (policy : KeyPolicy) {related : α -> α -> Bool}
    (h : forall a b, related a b = true -> (p a <-> p b)) :
    policy.Among (distinctBy related members) p <-> policy.Among members p := by
  cases policy with
  | common => exact forall_mem_distinctBy related members fun a b _ _ hab => (h a b hab).mp
  | any => exact exists_mem_distinctBy related members fun a b _ _ hab => (h a b hab).mpr

theorem among_singleton (policy : KeyPolicy) {a : α} : policy.Among [a] p <-> p a := by
  cases policy <;> simp [Among]

end KeyPolicy

namespace Shape

/-!
# Unions that have members

Everything that unions and intersections make has members again wherever a union
occurs.
-/

mutual

/-- No union in a shape is without members. -/
def Filled : Shape -> Prop
  | union _ members => members ≠ [] ∧ AllFilled members
  | object _ _ | keyword _ | literal _ => True

def AllFilled : List Shape -> Prop
  | [] => True
  | s :: rest => Filled s ∧ AllFilled rest

end

theorem allFilled_iff {shapes : List Shape} :
    AllFilled shapes <-> forall s, s ∈ shapes -> s.Filled := by
  induction shapes with
  | nil => simp [AllFilled]
  | cons s rest ih => simp [AllFilled, ih]

theorem filled_union_iff {name : Option String} {members : List Shape} :
    Filled (.union name members) <-> members ≠ [] ∧ forall m, m ∈ members -> m.Filled := by
  rw [Filled, allFilled_iff]

theorem Filled.unionParts {s : Shape} (h : s.Filled) :
    s.unionParts ≠ [] ∧ forall part, part ∈ s.unionParts -> part.Filled := by
  cases s with
  | union name members => exact filled_union_iff.mp h
  | object | keyword | literal => simp [Shape.unionParts, Filled]

/-!
# Unions

The policy decides which keys of the members are keys of the union.
-/

variable {policy : KeyPolicy} {key : String}

theorem hasKey_union {name : Option String} {members : List Shape} (hsome : members ≠ []) :
    hasKey policy key (.union name members) = true <->
      policy.Among members fun m => m.hasKey policy key = true := by
  cases policy with
  | common => simp [hasKey_union_common, hsome, KeyPolicy.Among]
  | any => exact hasKey_union_any

theorem hasKey_iff_of_same {s t : Shape} (h : s.same t = true) :
    s.hasKey policy key = true <-> t.hasKey policy key = true := by
  induction s using memberInduction generalizing t with
  | object name fields =>
      cases t with
      | object other others =>
          rcases sameFields_cases h with ⟨hforth, hback⟩
          simp only [hasKey, Table.contains_iff, Table.get?_eq_some_iff_mem]
          constructor
          · intro hfound
            rcases hfound with ⟨t, ht⟩
            rcases hforth key t ht with ⟨u, hu, _⟩
            exact ⟨u, hu⟩
          · intro hfound
            rcases hfound with ⟨u, hu⟩
            rcases hback key u hu with ⟨t, ht, _⟩
            exact ⟨t, ht⟩
      | union | keyword | literal => cases h
  | union name members ih =>
      cases t with
      | union other others =>
          rcases same_union_iff.mp h with ⟨hforth, hback⟩
          by_cases hnone : members = []
          · have hothers : others = [] := by
              apply List.eq_nil_iff_forall_not_mem.mpr
              intro b hb
              rcases hback b hb with ⟨a, ha, _⟩
              rw [hnone] at ha
              cases ha
            rw [hnone, hothers]
            cases policy <;> rfl
          · have hothers : others ≠ [] := by
              rcases List.exists_mem_of_ne_nil members hnone with ⟨a, ha⟩
              rcases hforth a ha with ⟨b, hb, _⟩
              exact List.ne_nil_of_mem hb
            rw [hasKey_union hnone, hasKey_union hothers]
            apply policy.among_iff
            · intro a ha
              rcases hforth a ha with ⟨b, hb, hab⟩
              exact ⟨b, hb, ih a ha hab⟩
            · intro b hb
              rcases hback b hb with ⟨a, ha, hab⟩
              exact ⟨a, ha, ih a ha hab⟩
      | object | keyword | literal => cases h
  | keyword word =>
      cases t with
      | keyword other => rw [show word = other by simpa [same] using h]
      | object | union | literal => cases h
  | literal a =>
      cases t with
      | literal b => rfl
      | object | union | keyword => cases h

theorem hasKey_unionParts {s : Shape} (h : s.Filled) :
    policy.Among s.unionParts (fun part => part.hasKey policy key = true) <->
      s.hasKey policy key = true := by
  cases s with
  | union name members => exact (hasKey_union (filled_union_iff.mp h).1).symm
  | object | keyword | literal => exact policy.among_singleton

theorem exists_unite {shapes : List Shape} (hsome : shapes ≠ [])
    (hfilled : forall s, s ∈ shapes -> s.Filled) :
    exists u, unite shapes = .ok u ∧ u.Filled ∧
      forall policy key, u.hasKey policy key = true <->
        policy.Among shapes fun s => s.hasKey policy key = true := by
  have hmembers : distinctBy same (shapes.flatMap unionParts) ≠ [] := by
    rcases List.exists_mem_of_ne_nil shapes hsome with ⟨s, hs⟩
    rcases List.exists_mem_of_ne_nil _ (hfilled s hs).unionParts.1 with ⟨part, hpart⟩
    rw [Ne, distinctBy_eq_nil_iff]
    exact List.ne_nil_of_mem (List.mem_flatMap.mpr ⟨s, hs, hpart⟩)
  have hmembersFilled : forall m, m ∈ distinctBy same (shapes.flatMap unionParts) -> m.Filled := by
    intro m hm
    rcases List.mem_flatMap.mp (mem_of_mem_distinctBy hm) with ⟨s, hs, hpart⟩
    exact (hfilled s hs).unionParts.2 m hpart
  have hkeys : forall (policy : KeyPolicy) key,
      policy.Among (distinctBy same (shapes.flatMap unionParts))
          (fun m => m.hasKey policy key = true) <->
        policy.Among shapes fun s => s.hasKey policy key = true := by
    intro policy key
    apply (policy.among_distinctBy fun _ _ hsame => hasKey_iff_of_same hsame).trans
    rw [policy.among_flatMap]
    apply policy.among_iff
    · intro s hs
      exact ⟨s, hs, hasKey_unionParts (hfilled s hs)⟩
    · intro s hs
      exact ⟨s, hs, hasKey_unionParts (hfilled s hs)⟩
  unfold unite
  rw [if_neg (by simp [hsome])]
  split
  · rename_i only honly
    rw [honly] at hmembersFilled hkeys
    refine ⟨only, rfl, hmembersFilled only List.mem_cons_self, ?_⟩
    intro policy key
    rw [← hkeys, policy.among_singleton]
  · refine ⟨_, rfl, filled_union_iff.mpr ⟨hmembers, hmembersFilled⟩, ?_⟩
    intro policy key
    rw [← hkeys, hasKey_union hmembers]

/-!
# Intersections

An intersection of simple shapes has the keys of both, or their types clash.
Unions are distributed, and the policy says the same of the branches as of the
operands.
-/

/-- A shape has the keys of two others together. -/
structure HasKeysOf (a b s : Shape) : Prop where
  filled : s.Filled
  hasKey_iff : forall policy key,
    s.hasKey policy key = true <-> a.hasKey policy key = true ∨ b.hasKey policy key = true

theorem HasKeysOf.symm {a b s : Shape} (h : HasKeysOf a b s) : HasKeysOf b a s :=
  ⟨h.filled, fun policy key => (h.hasKey_iff policy key).trans or_comm⟩

/-- A shape with the keys of two others is found, or else they are incompatible. -/
def Combines (a b : Shape) : Except Failure Shape -> Prop :=
  Ends (HasKeysOf a b) fun failure => exists key, failure = .incompatible key

theorem ends_meetField_keys (fields : Table FieldType) (e : String × FieldType) :
    Ends (fun fields' => forall key,
        fields'.contains key = true <-> key = e.1 ∨ fields.contains key = true)
      (fun failure => exists key, failure = .incompatible key) (meetField fields e) := by
  unfold meetField
  split
  · intro key
    exact Table.contains_insert
  · split
    · intro key
      exact Table.contains_insert
    · exact ⟨_, rfl⟩

theorem ends_meetFields (fields : Table FieldType) (entries : List (String × FieldType)) :
    Ends (fun fields' => forall key, fields'.contains key = true <->
        fields.contains key = true ∨ key ∈ entries.map Prod.fst)
      (fun failure => exists key, failure = .incompatible key)
      (entries.foldlM meetField fields) := by
  induction entries generalizing fields with
  | nil =>
      intro key
      simp
  | cons e rest ih =>
      rw [List.foldlM_cons]
      apply (ends_meetField_keys fields e).bind
      intro between hbetween
      apply (ih between).imp
      intro fields' hfields' key
      rw [hfields', hbetween, List.map_cons, List.mem_cons, or_comm (a := key = e.1), or_assoc]

theorem combines_mergeFields (name other : Option String) (a b : Table FieldType) :
    Combines (.object name a) (.object other b) (mergeFields a b) := by
  apply (ends_meetFields a b.entries).bind
  intro fields hfields
  refine ⟨trivial, ?_⟩
  intro policy key
  rw [hasKey, hfields]
  simp [hasKey, Table.contains, Table.keys]

theorem leaf?_of_ofLeaf? {s : Shape} {t : FieldType} (h : ofLeaf? t = some s) :
    s.leaf? = some t := by
  cases t with
  | keyword | literal =>
      cases h
      rfl
  | reference | union | intersection => cases h

theorem of_leaf? {s : Shape} {t : FieldType} (h : s.leaf? = some t) :
    s.Filled ∧ forall policy key, s.hasKey policy key = false := by
  cases s with
  | keyword | literal => exact ⟨trivial, fun _ _ => rfl⟩
  | object | union => cases h

theorem combines_meetLeaves (a b : Shape) : Combines a b (meetLeaves a b) := by
  unfold meetLeaves
  split
  · rename_i t u ht hu
    split
    · rename_i s hs
      rcases Option.bind_eq_some_iff.mp hs with ⟨c, _, hc⟩
      rcases of_leaf? (leaf?_of_ofLeaf? hc) with ⟨hfilled, hkeys⟩
      refine ⟨hfilled, ?_⟩
      intro policy key
      simp [hkeys, (of_leaf? ht).2, (of_leaf? hu).2]
    · exact ⟨none, rfl⟩
  · exact ⟨none, rfl⟩

theorem combines_intersectSimple {a b : Shape} (ha : a.Filled) (hb : b.Filled) :
    Combines a b (intersectSimple a b) := by
  unfold intersectSimple
  split
  · exact ⟨hb, by simp [hasKey]⟩
  · exact ⟨ha, by simp [hasKey]⟩
  · exact ⟨ha, by simp [hasKey]⟩
  · exact ⟨hb, by simp [hasKey]⟩
  · exact combines_mergeFields _ _ _ _
  · exact combines_meetLeaves _ _

theorem combines_branches {name : Option String} {members : List Shape} {b : Shape}
    {meet : Shape -> Except Failure Shape} (hfilled : Filled (.union name members))
    (hmembers : forall m, m ∈ members -> Combines m b (meet m)) :
    Combines (.union name members) b (members.mapM meet >>= unite) := by
  rcases filled_union_iff.mp hfilled with ⟨hsome, _⟩
  have hends := ends_mapM fun m hm => (hmembers m hm).imp fun _ hx => hx.filled
  cases hbranches : members.mapM meet with
  | error failure =>
      rw [hbranches] at hends
      exact hends
  | ok branches =>
      rw [hbranches] at hends
      have hbranch : forall m, m ∈ members -> forall x, meet m = .ok x -> HasKeysOf m b x := by
        intro m hm x hx
        have hcombines := hmembers m hm
        rw [hx] at hcombines
        exact hcombines
      have hbranchesSome : branches ≠ [] := by
        rcases List.exists_mem_of_ne_nil members hsome with ⟨m, hm⟩
        rcases exists_of_mapM_eq_ok hbranches m hm with ⟨x, hx⟩
        exact List.ne_nil_of_mem ((mem_of_mapM_eq_ok hbranches).mpr ⟨m, hm, hx⟩)
      rcases exists_unite hbranchesSome hends with ⟨u, hu, hufilled, hkeys⟩
      change Combines _ b (unite branches)
      rw [hu]
      refine ⟨hufilled, ?_⟩
      intro policy key
      rw [hkeys, hasKey_union hsome, ← policy.among_or hsome]
      apply policy.among_iff
      · intro x hx
        rcases (mem_of_mapM_eq_ok hbranches).mp hx with ⟨m, hm, hmeet⟩
        exact ⟨m, hm, (hbranch m hm x hmeet).hasKey_iff policy key⟩
      · intro m hm
        rcases exists_of_mapM_eq_ok hbranches m hm with ⟨x, hx⟩
        exact ⟨x, (mem_of_mapM_eq_ok hbranches).mpr ⟨m, hm, hx⟩,
          (hbranch m hm x hx).hasKey_iff policy key⟩

theorem combines_intersectPair {a b : Shape} (ha : a.Filled) (hb : b.Filled) :
    Combines a b (intersectPair a b) := by
  have hall : a.Filled -> b.Filled -> Combines a b (intersectPair a b) := by
    refine intersectPair_induction
      (motive := fun a b result => a.Filled -> b.Filled -> Combines a b result) ?_ ?_ ?_ ?_ ?_ a b
    · intro a b _ _ ha hb
      exact combines_intersectSimple ha hb
    · intro a ha _
      exact ⟨ha, by simp [hasKey]⟩
    · intro name members b meet hmembers ha hb
      apply combines_branches ha
      intro m hm
      exact hmembers m hm ((filled_union_iff.mp ha).2 m hm) hb
    · intro b _ hb
      exact ⟨hb, by simp [hasKey]⟩
    · intro a name members meet hmembers ha hb
      have hbranches : Combines (.union name members) a (members.mapM meet >>= unite) := by
        apply combines_branches hb
        intro m hm
        exact hmembers m hm ((filled_union_iff.mp hb).2 m hm) ha
      exact hbranches.imp fun _ hs => hs.symm
  exact hall ha hb

theorem ends_intersect {first : Shape} {rest : List Shape} (hfirst : first.Filled)
    (hrest : forall s, s ∈ rest -> s.Filled) :
    Ends (fun s => forall policy key, s.hasKey policy key = true <->
        exists x, x ∈ first :: rest ∧ x.hasKey policy key = true)
      (fun failure => exists key, failure = .incompatible key) (intersect (first :: rest)) := by
  rw [intersect]
  induction rest generalizing first with
  | nil =>
      intro policy key
      simp
  | cons next rest ih =>
      rw [List.forall_mem_cons] at hrest
      rw [List.foldlM_cons]
      apply (combines_intersectPair hfirst hrest.1).bind
      intro between hbetween
      apply (ih hbetween.filled hrest.2).imp
      intro s hs policy key
      rw [hs]
      simp only [List.mem_cons, exists_eq_or_imp, hbetween.hasKey_iff, or_assoc]

/-!
# Keys and the algebra

Both laws are stated for lists of shapes of any length.
-/

/--
The union of shapes has the keys that all of them have, or that some of them have,
depending on the policy.  The intersection has the keys of all of them under both
policies, unless the shapes are incompatible.
-/
theorem keys_follow_the_algebra {shapes : List Shape} (hsome : shapes ≠ [])
    (hfilled : forall s, s ∈ shapes -> s.Filled) :
    (exists u, unite shapes = .ok u ∧
        (forall key, key ∈ u.keys .common <-> forall s, s ∈ shapes -> key ∈ s.keys .common) ∧
        forall key, key ∈ u.keys .any <-> exists s, s ∈ shapes ∧ key ∈ s.keys .any) ∧
      (forall s, intersect shapes = .ok s -> forall policy key,
        key ∈ s.keys policy <-> exists x, x ∈ shapes ∧ key ∈ x.keys policy) ∧
      forall failure, intersect shapes = .error failure ->
        exists key, failure = .incompatible key := by
  simp only [mem_keys_iff]
  constructor
  · rcases exists_unite hsome hfilled with ⟨u, hu, _, hkeys⟩
    exact ⟨u, hu, hkeys .common, hkeys .any⟩
  · cases shapes with
    | nil => exact absurd rfl hsome
    | cons first rest =>
        rw [List.forall_mem_cons] at hfilled
        exact ends_iff.mp (ends_intersect hfilled.1 hfilled.2)

def lidded : Shape :=
  .object none (.ofList [("lid", .keyword .boolean), ("size", .keyword .number)])

theorem keys_follow_the_algebra_nested :
    exists u s, unite [nested, lidded] = .ok u ∧ ¬ "id" ∈ u.keys .common ∧ "id" ∈ u.keys .any ∧
      intersect [nested, lidded] = .ok s ∧ "id" ∈ s.keys .common ∧ "lid" ∈ s.keys .common ∧
      ¬ "tag" ∈ s.keys .common ∧ "tag" ∈ s.keys .any := by
  have hfilled : forall x, x ∈ [nested, lidded] -> x.Filled := by
    simp [nested, lidded, Filled, AllFilled]
  rcases keys_follow_the_algebra (by simp) hfilled with ⟨⟨u, hu, hcommon, hany⟩, hboth, _⟩
  have hs : exists s, intersect [nested, lidded] = .ok s := ⟨_, rfl⟩
  rcases hs with ⟨s, hs⟩
  have hnested : nested.keys .common = ["id"] ∧ nested.keys .any = ["id", "tag", "size"] :=
    ⟨rfl, rfl⟩
  have hlidded : forall policy, lidded.keys policy = ["lid", "size"] := by
    intro policy
    cases policy <;> rfl
  refine ⟨u, s, hu, ?_, ?_, hs, ?_, ?_, ?_, ?_⟩ <;>
    simp [hcommon, hany, hboth s hs, hnested, hlidded]

end Shape
end Shapes
