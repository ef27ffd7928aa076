import Shapes.Proofs.Shape.Normal
import Shapes.Proofs.Shape.Sense

/-!
# The order of an intersection

To intersect several shapes is to intersect one branch of each, in all ways, and all
of these intersections have to succeed.  What is chosen from the operands does not
depend on their order, and neither does what is left of a choice, so the order decides
nothing: an intersection succeeds in every order or in none, and its results are
identical.

This needs operands without `any` and without impossible types, and for identical
results operands in normal form whose types are settled.  The last theorem lists what
happens otherwise.
-/

namespace Shapes

namespace Shape

/-!
# Pairs

The branches of an intersection of two shapes are the intersections of their
branches, and it fails if one of these does.
-/

section Pairs

variable {good : FieldType -> Prop} {joint : List FieldType -> FieldType -> Prop}
  (hg : FieldType.Gathering good joint) {a b : Shape}

/-- The branches of an intersection are the intersections of the branches. -/
structure Spread (joint : List FieldType -> FieldType -> Prop) (a b s : Shape) : Prop where
  onto : forall x, x ∈ a.branches -> forall y, y ∈ b.branches ->
    exists z, z ∈ s.branches ∧ Meets joint x y z
  into : forall z, z ∈ s.branches ->
    exists x, x ∈ a.branches ∧ exists y, y ∈ b.branches ∧ Meets joint x y z

/-- How the intersection of two shapes ends: all branches have one, or some do not. -/
def Distributes (good : FieldType -> Prop) (joint : List FieldType -> FieldType -> Prop)
    (a b : Shape) : Except Failure Shape -> Prop :=
  Ends (fun s => Made good s ∧ Spread joint a b s)
    fun _ => exists x, x ∈ a.branches ∧ exists y, y ∈ b.branches ∧ Clashes joint x y

include hg

theorem Distributes.symm {result : Except Failure Shape} (h : Distributes good joint a b result) :
    Distributes good joint b a result := by
  cases result with
  | ok s =>
      rcases h with ⟨hmade, hspread⟩
      constructor
      · exact hmade
      · constructor
        · intro y hy x hx
          rcases hspread.onto x hx y hy with ⟨z, hz, hmeets⟩
          exact ⟨z, hz, hmeets.symm hg⟩
        · intro z hz
          rcases hspread.into z hz with ⟨x, hx, y, hy, hmeets⟩
          exact ⟨y, hy, x, hx, hmeets.symm hg⟩
  | error failure =>
      rcases h with ⟨x, hx, y, hy, hclashes⟩
      exact ⟨y, hy, x, hx, hclashes.symm⟩

theorem distributes_intersectSimple (hasingle : a.Single) (hbsingle : b.Single)
    (ha : Made good a) (hb : Made good b) :
    Distributes good joint a b (intersectSimple a b) := by
  have hanswers := answers_intersectSimple hg hasingle hbsingle ha hb
  cases hmeet : intersectSimple a b with
  | ok z =>
      rw [hmeet] at hanswers
      rcases hanswers with ⟨hsingle, hmade, hmeets⟩
      constructor
      · exact hmade
      · constructor
        · intro x hx y hy
          rw [hasingle.branches] at hx
          rw [hbsingle.branches] at hy
          cases List.mem_singleton.mp hx
          cases List.mem_singleton.mp hy
          exact ⟨z, by simp [hsingle.branches], hmeets⟩
        · intro z' hz'
          rw [hsingle.branches] at hz'
          cases List.mem_singleton.mp hz'
          exact ⟨a, by simp [hasingle.branches], b, by simp [hbsingle.branches], hmeets⟩
  | error failure =>
      rw [hmeet] at hanswers
      exact ⟨a, by simp [hasingle.branches], b, by simp [hbsingle.branches], hanswers⟩

omit hg in
theorem intersectSimple_unknown (s : Shape) : intersectSimple s (.keyword .unknown) = .ok s := by
  cases s with
  | keyword word => cases word <;> rfl
  | object | union | literal => rfl

theorem distributes_unknown (ha : Made good a) (hunknown : good (.keyword .unknown)) :
    Distributes good joint a (.keyword .unknown) (.ok a) := by
  have hmeets : forall x, x ∈ a.branches -> Meets joint x (.keyword .unknown) x := by
    intro x hx
    have hanswers := answers_intersectSimple hg (single_of_mem_branches hx)
      (by simp [Single] : Single (.keyword .unknown)) (ha.branch hx) hunknown
    rw [intersectSimple_unknown] at hanswers
    exact hanswers.2.2
  constructor
  · exact ha
  · constructor
    · intro x hx y hy
      cases List.mem_singleton.mp hy
      exact ⟨x, hx, hmeets x hx⟩
    · intro x hx
      exact ⟨x, hx, _, List.mem_singleton_self _, hmeets x hx⟩

section Distribution

variable {name : Option String} {members : List Shape} {meet : Shape -> Except Failure Shape}

theorem spread_unite {found : List Shape} {s : Shape} (hmap : members.mapM meet = .ok found)
    (hmembers : forall m, m ∈ members -> forall f, meet m = .ok f -> Spread joint m b f)
    (h : unite found = .ok s) : Spread joint (.union name members) b s := by
  constructor
  · intro x hx y hy
    rcases mem_branches_union.mp hx with ⟨m, hm, hxm⟩
    rcases exists_of_mapM_eq_ok hmap m hm with ⟨f, hmeet⟩
    rcases (hmembers m hm f hmeet).onto x hxm y hy with ⟨z, hz, hmeets⟩
    have hf := (mem_of_mapM_eq_ok hmap).mpr ⟨m, hm, hmeet⟩
    rcases exists_branch_unite h hf hz with ⟨z', hz', hsame⟩
    exists z'
    constructor
    · exact hz'
    · intro shapes others hjoint hjoint'
      exact Joint.same hg hsame (hmeets shapes others hjoint hjoint')
  · intro z hz
    rcases exists_of_branch_unite h hz with ⟨f, hf, hzf⟩
    rcases (mem_of_mapM_eq_ok hmap).mp hf with ⟨m, hm, hmeet⟩
    rcases (hmembers m hm f hmeet).into z hzf with ⟨x, hx, y, hy, hmeets⟩
    exact ⟨x, mem_branches_union.mpr ⟨m, hm, hx⟩, y, hy, hmeets⟩

theorem distributes_branches (hsome : members ≠ [])
    (hmembers : forall m, m ∈ members -> Distributes good joint m b (meet m)) :
    Distributes good joint (.union name members) b (members.mapM meet >>= unite) := by
  have hfound : forall m, m ∈ members -> forall f, meet m = .ok f ->
      Made good f ∧ Spread joint m b f := by
    intro m hm f hmeet
    have hends := hmembers m hm
    rw [hmeet] at hends
    exact hends
  cases hmap : members.mapM meet with
  | error failure =>
      rcases exists_of_mapM_eq_error hmap with ⟨m, hm, hfails⟩
      have hends := hmembers m hm
      rw [hfails] at hends
      rcases hends with ⟨x, hx, y, hy, hclashes⟩
      exact ⟨x, mem_branches_union.mpr ⟨m, hm, hx⟩, y, hy, hclashes⟩
  | ok found =>
      change Distributes good joint (.union name members) b (unite found)
      cases hunite : unite found with
      | error failure =>
          -- Only nothing at all cannot be united, and each member has left something.
          rcases List.exists_mem_of_ne_nil members hsome with ⟨m, hm⟩
          rcases exists_of_mapM_eq_ok hmap m hm with ⟨f, hmeet⟩
          have hf := (mem_of_mapM_eq_ok hmap).mpr ⟨m, hm, hmeet⟩
          rw [eq_nil_of_unite_eq_error hunite] at hf
          cases hf
      | ok s =>
          constructor
          · apply made_unite _ hunite
            intro f hf
            rcases (mem_of_mapM_eq_ok hmap).mp hf with ⟨m, hm, hmeet⟩
            exact (hfound m hm f hmeet).1
          · exact spread_unite hg hmap (fun m hm f hmeet => (hfound m hm f hmeet).2) hunite

end Distribution

theorem distributes_intersectPair (ha : Made good a) (hb : Made good b) :
    Distributes good joint a b (intersectPair a b) := by
  have hall : Made good a -> Made good b -> Distributes good joint a b (intersectPair a b) := by
    refine intersectPair_induction
      (motive := fun a b result => Made good a -> Made good b -> Distributes good joint a b result)
      ?_ ?_ ?_ ?_ ?_ a b
    · intro a b hasingle hbsingle ha hb
      exact distributes_intersectSimple hg hasingle hbsingle ha hb
    · intro a ha hunknown
      exact distributes_unknown hg ha hunknown
    · intro name members b meet hmembers ha hb
      rcases made_union_iff.mp ha with ⟨hsome, hmade⟩
      exact distributes_branches hg hsome fun m hm => hmembers m hm (hmade m hm) hb
    · intro b hunknown hb
      exact (distributes_unknown hg hb hunknown).symm hg
    · intro a name members meet hmembers ha hb
      rcases made_union_iff.mp hb with ⟨hsome, hmade⟩
      apply Distributes.symm hg
      exact distributes_branches hg hsome fun m hm => hmembers m hm (hmade m hm) ha
  exact hall ha hb

end Pairs

/-!
# Several operands

What remains of a list of operands is said by choices of one branch from each,
which a rearrangement of the operands only rearranges.
-/

section Several

variable {good : FieldType -> Prop} {joint : List FieldType -> FieldType -> Prop}
  (hg : FieldType.Gathering good joint) {shapes others : List Shape} {s s' : Shape}

/-- One branch of each of several shapes. -/
def Selected (picks shapes : List Shape) : Prop :=
  Chosen picks (shapes.map branches)

/-- Every choice of branches has an intersection, and a shape has these as its branches. -/
structure Remains (good : FieldType -> Prop) (joint : List FieldType -> FieldType -> Prop)
    (shapes : List Shape) (s : Shape) : Prop where
  made : Made good s
  compatible : forall picks, Selected picks shapes -> Compatible picks
  gathers : Gathers (Joint joint) Compatible (shapes.map branches) s.branches

/-- Some choice of branches has no intersection. -/
def Refused (shapes : List Shape) : Prop :=
  exists picks, Selected picks shapes ∧ ¬ Compatible picks

theorem Refused.append (hothers : forall s, s ∈ others -> Made good s) (h : Refused shapes) :
    Refused (shapes ++ others) := by
  rcases h with ⟨picks, hpicks, hrefused⟩
  have hlists : forall list, list ∈ others.map branches -> list ≠ [] := by
    intro list hlist
    rcases List.mem_map.mp hlist with ⟨s, hs, rfl⟩
    exact (hothers s hs).branches_ne_nil
  rcases exists_chosen hlists with ⟨more, hmore⟩
  exists picks ++ more
  constructor
  · rw [Selected, List.map_append]
    exact chosen_append hpicks hmore
  · intro hcompatible
    exact hrefused hcompatible.parts.1

theorem Refused.perm (hperm : shapes.Perm others) (h : Refused shapes) : Refused others := by
  rcases h with ⟨picks, hpicks, hrefused⟩
  rcases exists_chosen_of_perm hpicks (hperm.map branches) with ⟨picks', hpicks', hchosen⟩
  exact ⟨picks', hchosen, fun hcompatible => hrefused (hcompatible.perm hpicks'.symm)⟩

theorem Remains.not_refused (h : Remains good joint shapes s) : ¬ Refused shapes := by
  intro hrefused
  rcases hrefused with ⟨picks, hpicks, hincompatible⟩
  exact hincompatible (h.compatible picks hpicks)

include hg

theorem Remains.perm (hperm : shapes.Perm others) (h : Remains good joint shapes s) :
    Remains good joint others s := by
  constructor
  · exact h.made
  · intro picks hpicks
    rcases exists_chosen_of_perm hpicks (hperm.map branches).symm with ⟨picks', hpicks', hchosen⟩
    exact (h.compatible picks' hchosen).perm hpicks'.symm
  · exact h.gathers.perm (hperm.map branches) (Joint.perm hg) Compatible.perm

theorem remains_singleton (hs : Made good s) : Remains good joint [s] s := by
  have hjoint : forall x, x ∈ s.branches -> Joint joint [x] x :=
    fun x hx => joint_unit hg (single_of_mem_branches hx) (hs.branch hx)
  constructor
  · exact hs
  · intro picks hpicks
    rcases chosen_singleton.mp hpicks with ⟨x, hx, rfl⟩
    exact (hjoint x hx).compatible hg (hs.branch hx)
  · exact gathers_singleton hjoint

theorem ends_intersectPair (h : Remains good joint shapes s) (hs' : Made good s') :
    Ends (Remains good joint (shapes ++ [s'])) (fun _ => Refused (shapes ++ [s']))
      (intersectPair s s') := by
  have hends := distributes_intersectPair hg h.made hs'
  have hsingle := (remains_singleton hg hs').gathers
  cases hmeet : intersectPair s s' with
  | error failure =>
      rw [hmeet] at hends
      rcases hends with ⟨x, hx, y, hy, hclashes⟩
      rcases h.gathers.into x hx with ⟨picks, hpicks, hjoint⟩
      exists picks ++ [y]
      constructor
      · rw [Selected, List.map_append]
        exact chosen_append hpicks (chosen_singleton.mpr ⟨y, hy, rfl⟩)
      · exact hclashes _ _ hjoint (joint_unit hg (single_of_mem_branches hy) (hs'.branch hy))
  | ok r =>
      rw [hmeet] at hends
      rcases hends with ⟨hmade, hspread⟩
      constructor
      · exact hmade
      · intro picks hpicks
        rw [Selected, List.map_append] at hpicks
        rcases chosen_append_cases hpicks with ⟨ps, qs, rfl, hps, hqs⟩
        rcases h.gathers.onto ps hps (h.compatible ps hps) with ⟨x, hx, hjoint⟩
        rcases chosen_singleton.mp hqs with ⟨y, hy, rfl⟩
        rcases hspread.onto x hx y hy with ⟨z, hz, hmeets⟩
        have hunit := joint_unit hg (single_of_mem_branches hy) (hs'.branch hy)
        exact (hmeets _ _ hjoint hunit).compatible hg (hmade.branch hz)
      · rw [List.map_append]
        apply h.gathers.append hsingle
        · intro ps qs hcompatible
          exact hcompatible.parts
        · intro x hx y hy ps qs hjoint hjoint' _
          rcases hspread.onto x hx y hy with ⟨z, hz, hmeets⟩
          exact ⟨z, hz, hmeets ps qs hjoint hjoint'⟩
        · exact hspread.into

theorem ends_foldlM_intersectPair (h : Remains good joint shapes s)
    (hothers : forall x, x ∈ others -> Made good x) :
    Ends (Remains good joint (shapes ++ others)) (fun _ => Refused (shapes ++ others))
      (others.foldlM intersectPair s) := by
  induction others generalizing shapes s with
  | nil =>
      rw [List.append_nil]
      exact h
  | cons next rest ih =>
      rw [List.forall_mem_cons] at hothers
      rw [List.foldlM_cons, List.append_cons]
      have hends := ends_intersectPair hg h hothers.1
      cases hmeet : intersectPair s next with
      | error failure =>
          rw [hmeet] at hends
          exact hends.append hothers.2
      | ok between =>
          rw [hmeet] at hends
          exact ih hends hothers.2

/-- What an intersection comes to, said without the order of its operands. -/
theorem ends_intersect_remains (hsome : shapes ≠ [])
    (hshapes : forall x, x ∈ shapes -> Made good x) :
    Ends (Remains good joint shapes) (fun _ => Refused shapes) (intersect shapes) := by
  cases shapes with
  | nil => exact absurd rfl hsome
  | cons first rest =>
      rw [List.forall_mem_cons] at hshapes
      exact ends_foldlM_intersectPair hg (remains_singleton hg hshapes.1) hshapes.2

end Several

theorem Remains.unique {shapes : List Shape} {s s' : Shape} (hs : s.Formed) (hs' : s'.Formed)
    (h : Remains FieldType.Orderly FieldType.Exact shapes s)
    (h' : Remains FieldType.Orderly FieldType.Exact shapes s') : s.same s' = true := by
  have hcompatible : forall {t : Shape}, Made FieldType.Orderly t -> forall z, z ∈ t.branches ->
      forall picks, Joint FieldType.Exact picks z -> Compatible picks :=
    fun ht z hz picks hjoint => hjoint.compatible FieldType.gathering_exact (ht.branch hz)
  apply hs.same_of_branches hs'
  · intro x hx
    rcases h.gathers.exists_joint h'.gathers (hcompatible h.made) hx with
      ⟨y, hy, picks, hjointx, hjointy⟩
    exact ⟨y, hy, hjointx.unique (h.made.branch hx) (h'.made.branch hy) hjointy⟩
  · intro y hy
    rcases h'.gathers.exists_joint h.gathers (hcompatible h'.made) hy with
      ⟨x, hx, picks, hjointy, hjointx⟩
    exact ⟨x, hx, hjointx.unique (h.made.branch hx) (h'.made.branch hy) hjointy⟩

/-!
# Operands in any order

Operands that are viable have a result in all orders or in none, and regular
ones have the same result.  Each condition is needed: there are three operands
for every one of them whose order matters.
-/

/-- A shape whose types are viable and whose unions are not empty. -/
def Viable (s : Shape) : Prop :=
  s.Made FieldType.Viable

/-- A shape in normal form whose types are in normal form and settled. -/
def Regular (s : Shape) : Prop :=
  s.Formed ∧ s.Made fun t => t.Normal ∧ t.Settled

instance : DecidablePred Viable := fun s =>
  inferInstanceAs (Decidable (s.Made FieldType.Viable))

instance : DecidablePred Regular := fun s =>
  inferInstanceAs (Decidable (s.Formed ∧ s.Made fun t => t.Normal ∧ t.Settled))

theorem Viable.anyFree {s : Shape} (h : s.Viable) : s.AnyFree := by
  induction s using memberInduction with
  | object name fields => exact fun key t ht => (h key t ht).anyFree
  | union name members ih =>
      apply every_union_iff.mpr
      intro m hm
      exact ih m hm ((made_union_iff.mp h).2 m hm)
  | keyword word => exact FieldType.Viable.anyFree h
  | literal value => exact FieldType.Viable.anyFree h

theorem Regular.orderly {s : Shape} (h : s.Regular) (hviable : s.Viable) :
    s.Made FieldType.Orderly :=
  Made.and (fun _ ht h => FieldType.orderly_of_settled ht h.1 h.2) hviable h.2

/-- Two results that are related, or two failures. -/
def Agree (related : Shape -> Shape -> Prop) :
    Except Failure Shape -> Except Failure Shape -> Prop
  | .ok s, .ok s' => related s s'
  | .error _, .error _ => True
  | _, _ => False

instance {related : Shape -> Shape -> Prop} [DecidableRel related] : DecidableRel (Agree related)
  | .ok s, .ok s' => inferInstanceAs (Decidable (related s s'))
  | .error _, .error _ => inferInstanceAs (Decidable True)
  | .ok _, .error _ | .error _, .ok _ => inferInstanceAs (Decidable False)

section Order

variable {shapes others : List Shape}

theorem agree_iff {related : Shape -> Shape -> Prop} {result result' : Except Failure Shape} :
    Agree related result result' <->
      ((exists s, result = .ok s) <-> exists s, result' = .ok s) ∧
        forall s s', result = .ok s -> result' = .ok s' -> related s s' := by
  cases result <;> cases result' <;> simp [Agree]

theorem exists_intersect_iff (hsome : shapes ≠ []) (hshapes : forall s, s ∈ shapes -> s.Viable) :
    (exists s, intersect shapes = .ok s) <-> ¬ Refused shapes := by
  have hends := ends_intersect_remains FieldType.gathering_common hsome hshapes
  constructor
  · intro hfound
    rcases hfound with ⟨s, hs⟩
    rw [hs] at hends
    exact hends.not_refused
  · intro hnot
    cases hmeet : intersect shapes with
    | ok s => exact ⟨s, rfl⟩
    | error failure =>
        rw [hmeet] at hends
        exact absurd hends hnot

theorem exists_intersect_perm (hperm : shapes.Perm others)
    (hshapes : forall s, s ∈ shapes -> s.Viable) :
    (exists s, intersect shapes = .ok s) <-> exists s, intersect others = .ok s := by
  by_cases hnone : shapes = []
  · subst hnone
    rw [hperm.nil_eq]
  · have hsome : others ≠ [] := fun h => hnone (h ▸ hperm).eq_nil
    have hothers : forall s, s ∈ others -> s.Viable :=
      fun s hs => hshapes s (hperm.mem_iff.mpr hs)
    rw [exists_intersect_iff hnone hshapes, exists_intersect_iff hsome hothers, not_iff_not]
    exact ⟨Refused.perm hperm, Refused.perm hperm.symm⟩

theorem shapeHolds_intersect_perm (hperm : shapes.Perm others)
    (hshapes : forall s, s ∈ shapes -> s.AnyFree) {s s' : Shape} (hs : intersect shapes = .ok s)
    (hs' : intersect others = .ok s') (find : Lookup) (value : Json) :
    ShapeHolds find s value <-> ShapeHolds find s' value := by
  rw [shapeHolds_intersect hshapes hs,
    shapeHolds_intersect (fun x hx => hshapes x (hperm.mem_iff.mpr hx)) hs']
  exact forall_congr' fun x => by rw [hperm.mem_iff]

theorem remains_intersect (hshapes : forall s, s ∈ shapes -> s.Viable ∧ s.Regular) {s : Shape}
    (h : intersect shapes = .ok s) :
    s.Formed ∧ Remains FieldType.Orderly FieldType.Exact shapes s := by
  have hsome : shapes ≠ [] := by
    rintro rfl
    cases h
  have hends := ends_intersect_remains FieldType.gathering_exact hsome
    fun x hx => (hshapes x hx).2.orderly (hshapes x hx).1
  rw [h] at hends
  exact ⟨stable_formed.intersect (fun x hx => (hshapes x hx).2.1) h, hends⟩

theorem same_intersect_perm (hperm : shapes.Perm others)
    (hshapes : forall s, s ∈ shapes -> s.Viable ∧ s.Regular) {s s' : Shape}
    (hs : intersect shapes = .ok s) (hs' : intersect others = .ok s') : s.same s' = true := by
  have hothers : forall s, s ∈ others -> s.Viable ∧ s.Regular :=
    fun s hs => hshapes s (hperm.mem_iff.mpr hs)
  rcases remains_intersect hshapes hs with ⟨hformed, hremains⟩
  rcases remains_intersect hothers hs' with ⟨hformed', hremains'⟩
  exact hremains.unique hformed hformed' (hremains'.perm FieldType.gathering_exact hperm.symm)

/--
Operands without `any` have intersections with the same values in every order in which
they have one at all.  If nothing about them is impossible, they have one in every order
or in none, and if they are in normal form as well, the results are identical.
-/
theorem intersection_ignores_order (hperm : shapes.Perm others) :
    ((forall s, s ∈ shapes -> s.AnyFree) -> forall s s', intersect shapes = .ok s ->
        intersect others = .ok s' ->
          forall find value, ShapeHolds find s value <-> ShapeHolds find s' value) ∧
      ((forall s, s ∈ shapes -> s.Viable) ->
        Agree (fun s s' => forall find value, ShapeHolds find s value <-> ShapeHolds find s' value)
          (intersect shapes) (intersect others)) ∧
      ((forall s, s ∈ shapes -> s.Viable ∧ s.Regular) ->
        Agree (fun s s' => s.same s' = true) (intersect shapes) (intersect others)) := by
  constructor
  · intro hshapes s s' hs hs'
    exact shapeHolds_intersect_perm hperm hshapes hs hs'
  · constructor
    · intro hshapes
      apply agree_iff.mpr
      constructor
      · exact exists_intersect_perm hperm hshapes
      · intro s s' hs hs'
        exact shapeHolds_intersect_perm hperm (fun x hx => (hshapes x hx).anyFree) hs hs'
    · intro hshapes
      apply agree_iff.mpr
      constructor
      · exact exists_intersect_perm hperm fun x hx => (hshapes x hx).1
      · intro s s' hs hs'
        exact same_intersect_perm hperm hshapes hs hs'

end Order

def account : Shape :=
  .object none ((Table.empty.insert "id" (.union [.keyword .string, .keyword .null])).insert
    "holder" (.reference ⟨1⟩))

def holding : Shape :=
  .object none ((Table.empty.insert "holder" (.reference ⟨2⟩)).insert
    "id" (.union [.keyword .string, .keyword .number]))

def entry : Shape :=
  .union none [.object none (Table.empty.insert "id" (.literal (.string "main"))),
    .object none (Table.empty.insert "label" (.keyword .string))]

theorem intersection_ignores_order_account :
    (forall s, s ∈ [account, entry, holding] -> s.AnyFree ∧ s.Viable ∧ s.Regular) ∧
      (forall s s', intersect [account, entry, holding] = .ok s ->
        intersect [holding, account, entry] = .ok s' ->
          forall find value, ShapeHolds find s value <-> ShapeHolds find s' value) ∧
      Agree (fun s s' => forall find value, ShapeHolds find s value <-> ShapeHolds find s' value)
        (intersect [account, entry, holding]) (intersect [holding, account, entry]) ∧
      Agree (fun s s' => s.same s' = true)
        (intersect [account, entry, holding]) (intersect [holding, account, entry]) ∧
      (intersect [account, entry, holding]).isOk = true := by
  have hperm : [account, entry, holding].Perm [holding, account, entry] :=
    List.perm_append_singleton holding [account, entry]
  have hregular : forall s, s ∈ [account, entry, holding] -> s.Viable ∧ s.Regular := by
    decide +kernel
  have hfree : forall s, s ∈ [account, entry, holding] -> s.AnyFree :=
    fun s hs => (hregular s hs).1.anyFree
  have horder := intersection_ignores_order hperm
  exact ⟨fun s hs => ⟨hfree s hs, hregular s hs⟩, horder.1 hfree,
    horder.2.1 fun s hs => (hregular s hs).1, horder.2.2 hregular, by decide +kernel⟩

def ofField (t : FieldType) : Shape :=
  .object none (Table.empty.insert "x" t)

/-- Three operands whose last two cannot change places. -/
def OrderMatters (a b c : Shape) : Prop :=
  ¬ Agree (fun s s' => s.same s' = true) (intersect [a, b, c]) (intersect [a, c, b])

instance (a b c : Shape) : Decidable (OrderMatters a b c) :=
  inferInstanceAs (Decidable (¬ Agree (fun s s' => s.same s' = true)
    (intersect [a, b, c]) (intersect [a, c, b])))

/--
The order decides whether there is a result where operands mention `any` or `never`,
where unions or intersections are empty, and where intersections clash or have nothing
but one union.  It decides which result there is where the branches of a union meet
outside of it, where unions are nested or have one member, and where an intersection
mentions `unknown`.
-/
theorem intersection_depends_on_order :
    ¬ (forall shapes others : List Shape, shapes ≠ [] -> shapes.Perm others ->
        Agree (fun s s' => s.same s' = true) (intersect shapes) (intersect others)) ∧
      OrderMatters (.keyword .string) (.keyword .any) (.keyword .number) ∧
      OrderMatters (.keyword .any) (.keyword .string) (.object none Table.empty) ∧
      OrderMatters (.keyword .string) (.keyword .never) (.keyword .number) ∧
      OrderMatters (.keyword .unknown) (.union none [.keyword .unknown]) (.union none []) ∧
      OrderMatters (ofField (.intersection [])) (ofField (.intersection [.intersection []]))
        (ofField (.intersection [.keyword .string, .keyword .number])) ∧
      OrderMatters
        (ofField (.intersection [.intersection [.union [.keyword .number, .keyword .null]]]))
        (ofField (.intersection [.union [.keyword .number, .keyword .null]]))
        (ofField (.keyword .string)) ∧
      OrderMatters (ofField (.union [.reference ⟨1⟩, .keyword .null]))
        (ofField (.union [.reference ⟨1⟩, .keyword .null]))
        (ofField (.union [.reference ⟨2⟩, .keyword .null])) ∧
      OrderMatters (.keyword .unknown) (.union none [.keyword .unknown])
        (.union none [.union none [.keyword .string]]) ∧
      OrderMatters (.union none [.keyword .unknown]) (.union none [.keyword .unknown])
        (.union none [.keyword .string]) ∧
      OrderMatters (ofField (.intersection [.keyword .unknown]))
        (ofField (.intersection [.intersection [.keyword .unknown]]))
        (ofField (.reference ⟨1⟩)) := by
  have hany : OrderMatters (.keyword .string) (.keyword .any) (.keyword .number) := by
    decide +kernel
  constructor
  · intro h
    apply hany
    apply h
    · simp
    · exact (List.Perm.swap _ _ _).cons _
  · exact ⟨hany, by decide +kernel⟩

end Shape
end Shapes
