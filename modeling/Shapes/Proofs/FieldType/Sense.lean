import Shapes.Proofs.FieldType.Every

/-!
# The sense of a meet

A value can be taken for the set of types that it belongs to, and so can a
member that is missing, for the set of types that admit it.  `FieldType.Sense`
says what the two have in common: unions and intersections are read as usual,
and leaves rule each other out.  The meet of two types then holds exactly where
both of them do, and where there is no meet they never hold together.

None of this is true of `any`, which meets other types like `never` does and
holds of every value like `unknown`.

Meets are shown in two halves that use different rules: `FieldType.Reading` for
types that are not unions, and `FieldType.Branching` for unions, whatever the
reading of the types that are not.
-/

namespace Shapes

theorem Literal.isTop_widened (value : Literal) : value.widened.isTop = false := by
  cases value <;> rfl

namespace FieldType

/-- The types that something belongs to. -/
structure Sense (holds : FieldType -> Prop) : Prop where
  union : forall members, holds (.union members) <-> exists m, m ∈ members ∧ holds m
  intersection : forall members,
    holds (.intersection members) <-> forall m, m ∈ members -> holds m
  never : ¬ holds (.keyword .never)
  unknown : holds (.keyword .unknown)
  same : forall {a b : FieldType}, a.same b = true -> (holds a <-> holds b)
  keyword : forall {a b : Keyword}, a.isTop = false -> b.isTop = false ->
    holds (.keyword a) -> holds (.keyword b) -> a = b
  literal : forall {a b : Literal}, holds (.literal a) -> holds (.literal b) ->
    a.same b = true
  widened : forall {a : Literal}, holds (.literal a) -> holds (.keyword a.widened)

/-- The rules for intersections and leaves. -/
structure Reading (holds : FieldType -> Prop) : Prop where
  intersection : forall members,
    holds (.intersection members) <-> forall m, m ∈ members -> holds m
  never : ¬ holds (.keyword .never)
  unknown : holds (.keyword .unknown)
  same : forall {a b : FieldType}, a.same b = true -> (holds a <-> holds b)
  keyword : forall {a b : Keyword}, a.isTop = false -> b.isTop = false ->
    holds (.keyword a) -> holds (.keyword b) -> a = b
  literal : forall {a b : Literal}, holds (.literal a) -> holds (.literal b) ->
    a.same b = true
  widened : forall {a : Literal}, holds (.literal a) -> holds (.keyword a.widened)

/-- The rules for unions. -/
structure Branching (holds : FieldType -> Prop) : Prop where
  union : forall members, holds (.union members) <-> exists m, m ∈ members ∧ holds m
  never : ¬ holds (.keyword .never)
  unknown : holds (.keyword .unknown)
  same : forall {a b : FieldType}, a.same b = true -> (holds a <-> holds b)

theorem Sense.reading {holds : FieldType -> Prop} (hs : Sense holds) : Reading holds where
  intersection := hs.intersection
  never := hs.never
  unknown := hs.unknown
  same := hs.same
  keyword := hs.keyword
  literal := hs.literal
  widened := hs.widened

theorem Sense.branching {holds : FieldType -> Prop} (hs : Sense holds) : Branching holds where
  union := hs.union
  never := hs.never
  unknown := hs.unknown
  same := hs.same

instance decidableNeAny : DecidablePred fun t : FieldType => t ≠ .keyword .any
  | .keyword word => decidable_of_iff (word ≠ .any) (by simp)
  | .reference _ | .union _ | .intersection _ | .literal _ => isTrue (by simp)

/-- A type that does not mention `any`. -/
def AnyFree : FieldType -> Prop :=
  Every fun t => t ≠ .keyword .any

instance : DecidablePred AnyFree :=
  inferInstanceAs (DecidablePred (Every fun t => t ≠ .keyword .any))

theorem closed_anyFree : Closed fun t => t ≠ .keyword .any := by
  refine ⟨?_, ?_, ?_, ?_⟩
  · intro h
    cases h
  · intro members h
    cases h
  · intro members _ h
    cases h
  · intro _ h
    cases h

/-- The type that is found holds where both do, and none is found where they never do. -/
def IsMeet (holds : FieldType -> Prop) (both : Prop) : Option FieldType -> Prop
  | some t => holds t <-> both
  | none => ¬ both

theorem isTop_eq_false {word : Keyword} (hany : keyword word ≠ .keyword .any)
    (hunknown : keyword word ≠ .keyword .unknown) : word.isTop = false := by
  cases word with
  | any => exact absurd rfl hany
  | unknown => exact absurd rfl hunknown
  | string | number | boolean | null | undefined | never => rfl

theorem of_plainMeet?_eq_none {a b : FieldType} (h : plainMeet? a b = none) :
    a.same b = false ∧ a ≠ .keyword .unknown ∧ b ≠ .keyword .unknown := by
  unfold plainMeet? at h
  split at h
  · cases h
  · rename_i hsame
    refine ⟨by simpa using hsame, ?_, ?_⟩
    · intro heq
      subst heq
      cases h
    · intro heq
      subst heq
      split at h <;> simp_all

theorem isMeet_plainMeet? {holds : FieldType -> Prop} (hnever : ¬ holds (.keyword .never))
    (hunknown : holds (.keyword .unknown))
    (hsame : forall {a b : FieldType}, a.same b = true -> (holds a <-> holds b))
    {a b t : FieldType} (ha : a ≠ .keyword .any) (hb : b ≠ .keyword .any)
    (h : plainMeet? a b = some t) : holds t <-> holds a ∧ holds b := by
  rcases plainMeet?_cases h with ⟨hab, rfl⟩ | ⟨rfl, rfl⟩ | ⟨rfl, rfl⟩ | ⟨hcases, rfl⟩ | ⟨hcases, _⟩
  · simp [hsame hab]
  · simp [hunknown]
  · simp [hunknown]
  · rcases hcases with rfl | rfl <;> simp [hnever]
  · rcases hcases with rfl | rfl
    · exact absurd rfl ha
    · exact absurd rfl hb

namespace Reading

variable {holds : FieldType -> Prop} (hr : Reading holds)

include hr

theorem allOf (types : List FieldType) :
    holds (FieldType.allOf types) <-> forall t, t ∈ types -> holds t := by
  unfold FieldType.allOf
  split
  · simp [hr.unknown]
  · simp
  · exact hr.intersection _

/-!
# Leaves

Leaves that hold together are one leaf, or a literal and its keyword; in both
cases their meet is the narrower one.
-/

theorem leaves_of_plainMeet?_eq_none {a b : FieldType} (ha : a ≠ .keyword .any)
    (hb : b ≠ .keyword .any) (haleaf : a.isLeaf = true) (hbleaf : b.isLeaf = true)
    (h : FieldType.plainMeet? a b = none) (hboth : holds a ∧ holds b) :
    (exists value, a = .keyword value.widened ∧ b = .literal value) ∨
      exists value, a = .literal value ∧ b = .keyword value.widened := by
  rcases of_plainMeet?_eq_none h with ⟨hsame, haunknown, hbunknown⟩
  rcases hboth with ⟨hholdsa, hholdsb⟩
  cases a with
  | keyword x =>
      have hx : x.isTop = false := isTop_eq_false ha haunknown
      cases b with
      | keyword y =>
          have hxy := hr.keyword hx (isTop_eq_false hb hbunknown) hholdsa hholdsb
          simp [FieldType.same, hxy] at hsame
      | literal value =>
          have hxy := hr.keyword hx value.isTop_widened hholdsa (hr.widened hholdsb)
          exact Or.inl ⟨value, by rw [hxy], rfl⟩
      | reference | union | intersection => cases hbleaf
  | literal value =>
      cases b with
      | keyword y =>
          have hxy := hr.keyword value.isTop_widened (isTop_eq_false hb hbunknown)
            (hr.widened hholdsa) hholdsb
          exact Or.inr ⟨value, rfl, by rw [hxy]⟩
      | literal other =>
          have hxy := hr.literal hholdsa hholdsb
          simp [FieldType.same, hxy] at hsame
      | reference | union | intersection => cases hbleaf
  | reference | union | intersection => cases haleaf

theorem leafMeet? {a b : FieldType} (ha : a ≠ .keyword .any) (hb : b ≠ .keyword .any)
    (haleaf : a.isLeaf = true) (hbleaf : b.isLeaf = true) :
    IsMeet holds (holds a ∧ holds b) (FieldType.leafMeet? a b) := by
  unfold FieldType.leafMeet?
  cases hplain : FieldType.plainMeet? a b with
  | some t => exact isMeet_plainMeet? hr.never hr.unknown hr.same ha hb hplain
  | none =>
      have hleaves := hr.leaves_of_plainMeet?_eq_none ha hb haleaf hbleaf hplain
      simp only
      split
      · rename_i word value
        split
        · rename_i hword
          subst hword
          exact ⟨fun h => ⟨hr.widened h, h⟩, fun h => h.2⟩
        · rename_i hword
          intro hboth
          rcases hleaves hboth with ⟨other, hkeyword, hliteral⟩ | ⟨other, hliteral, _⟩
          · cases hliteral
            cases hkeyword
            exact hword rfl
          · cases hliteral
      · rename_i value word
        split
        · rename_i hword
          subst hword
          exact ⟨fun h => ⟨h, hr.widened h⟩, fun h => h.1⟩
        · rename_i hword
          intro hboth
          rcases hleaves hboth with ⟨other, hkeyword, _⟩ | ⟨other, hliteral, hkeyword⟩
          · cases hkeyword
          · cases hliteral
            cases hkeyword
            exact hword rfl
      · rename_i hkeyword hliteral
        intro hboth
        rcases hleaves hboth with ⟨value, rfl, rfl⟩ | ⟨value, rfl, rfl⟩
        · exact hkeyword _ _ rfl rfl
        · exact hliteral _ _ rfl rfl

theorem foldlM_leafMeet? {leaves : List FieldType} {a : FieldType} (ha : a ≠ .keyword .any)
    (haleaf : a.isLeaf = true)
    (hleaves : forall t, t ∈ leaves -> t ≠ .keyword .any ∧ t.isLeaf = true) :
    IsMeet holds (holds a ∧ forall t, t ∈ leaves -> holds t)
      (leaves.foldlM FieldType.leafMeet? a) := by
  induction leaves generalizing a with
  | nil => exact ⟨fun h => ⟨h, by simp⟩, fun h => h.1⟩
  | cons b rest ih =>
      rcases hleaves b List.mem_cons_self with ⟨hb, hbleaf⟩
      have hpair := hr.leafMeet? ha hb haleaf hbleaf
      rw [List.foldlM_cons]
      simp only [List.forall_mem_cons]
      cases hmeet : FieldType.leafMeet? a b with
      | none =>
          rw [hmeet] at hpair
          intro hboth
          rcases hboth with ⟨hholdsa, hholdsb, _⟩
          exact hpair ⟨hholdsa, hholdsb⟩
      | some t =>
          rw [hmeet] at hpair
          have ht : t ≠ .keyword .any ∧ t.isLeaf = true := by
            rcases leafMeet?_mem hmeet with rfl | rfl
            · exact ⟨ha, haleaf⟩
            · exact ⟨hb, hbleaf⟩
          have hrest := ih ht.1 ht.2 fun u hu => hleaves u (List.mem_cons_of_mem b hu)
          have hboth : (holds t ∧ forall u, u ∈ rest -> holds u) <->
              holds a ∧ holds b ∧ forall u, u ∈ rest -> holds u := by
            rw [show holds t <-> holds a ∧ holds b from hpair, and_assoc]
          rw [← hboth]
          exact hrest

theorem leavesMeet? {leaves : List FieldType}
    (hleaves : forall t, t ∈ leaves -> t ≠ .keyword .any ∧ t.isLeaf = true) :
    match FieldType.leavesMeet? leaves with
    | some leaf => (forall t, t ∈ leaf.toList -> holds t) <-> forall t, t ∈ leaves -> holds t
    | none => ¬ forall t, t ∈ leaves -> holds t := by
  cases leaves with
  | nil => simp [FieldType.leavesMeet?]
  | cons first rest =>
      rcases hleaves first List.mem_cons_self with ⟨hfirst, hleaf⟩
      have hfold := hr.foldlM_leafMeet? hfirst hleaf
        fun t ht => hleaves t (List.mem_cons_of_mem first ht)
      simp only [FieldType.leavesMeet?, List.forall_mem_cons]
      cases hmeet : rest.foldlM FieldType.leafMeet? first with
      | none =>
          rw [hmeet] at hfold
          exact hfold
      | some t =>
          rw [hmeet] at hfold
          have hiff : holds t <-> _ := hfold
          simpa using hiff

/-!
# Intersections that stay

An intersection holds where its parts do, and keeping the parts of both operands
keeps that.
-/

theorem intersectionParts (t : FieldType) :
    (forall part, part ∈ t.intersectionParts -> holds part) <-> holds t := by
  induction t using memberInduction with
  | intersection members ih =>
      rw [hr.intersection, FieldType.intersectionParts]
      constructor
      · intro h m hm
        apply (ih m hm).mp
        intro part hpart
        exact h part (mem_allIntersectionParts.mpr ⟨m, hm, hpart⟩)
      · intro h part hpart
        rcases mem_allIntersectionParts.mp hpart with ⟨m, hm, hmpart⟩
        exact (ih m hm).mpr (h m hm) part hmpart
  | keyword | reference | union | literal => simp [FieldType.intersectionParts]

theorem keptMeet? {a b : FieldType} (ha : a.AnyFree) (hb : b.AnyFree) :
    IsMeet holds (holds a ∧ holds b) (FieldType.keptMeet? a b) := by
  have hparts : (forall part, part ∈ a.intersectionParts ++ b.intersectionParts -> holds part) <->
      holds a ∧ holds b := by
    rw [List.forall_mem_append, hr.intersectionParts, hr.intersectionParts]
  have hfree : forall part, part ∈ a.intersectionParts ++ b.intersectionParts ->
      part ≠ .keyword .any := by
    intro part hpart
    rcases List.mem_append.mp hpart with hpart | hpart
    · exact (every_intersectionParts ha part hpart).self
    · exact (every_intersectionParts hb part hpart).self
  rw [← hparts]
  unfold FieldType.keptMeet?
  dsimp only
  generalize a.intersectionParts ++ b.intersectionParts = parts at hfree
  -- The parts hold when those that are leaves do and those that are not.
  have hsplit : (forall part, part ∈ parts -> holds part) <->
      (forall t, t ∈ distinctBy FieldType.same (parts.filter fun t => !t.isLeaf) -> holds t) ∧
        forall t, t ∈ parts.filter FieldType.isLeaf -> holds t := by
    rw [forall_mem_distinctBy FieldType.same _
      fun a b _ _ hab hholds => (hr.same hab).mp hholds]
    constructor
    · intro h
      exact ⟨fun t ht => h t (List.mem_filter.mp ht).1, fun t ht => h t (List.mem_filter.mp ht).1⟩
    · intro hboth part hpart
      rcases hboth with ⟨hkept, hleaves⟩
      cases hleaf : part.isLeaf with
      | true => exact hleaves part (List.mem_filter.mpr ⟨hpart, hleaf⟩)
      | false => exact hkept part (List.mem_filter.mpr ⟨hpart, by simp [hleaf]⟩)
  have hleafs : forall t, t ∈ parts.filter FieldType.isLeaf ->
      t ≠ .keyword .any ∧ t.isLeaf = true := by
    intro t ht
    rcases List.mem_filter.mp ht with ⟨hmem, hleaf⟩
    exact ⟨hfree t hmem, hleaf⟩
  have hleaves := hr.leavesMeet? hleafs
  rw [hsplit]
  cases hmeet : FieldType.leavesMeet? (parts.filter FieldType.isLeaf) with
  | none =>
      rw [hmeet] at hleaves
      rw [Option.map_none]
      intro hboth
      rcases hboth with ⟨_, hall⟩
      exact hleaves hall
  | some leaf =>
      rw [hmeet] at hleaves
      have hiff : (forall t, t ∈ leaf.toList -> holds t) <-> _ := hleaves
      rw [Option.map_some]
      show holds _ <-> _
      rw [hr.allOf, List.forall_mem_append, hiff]

theorem simpleMeet? {a b : FieldType} (ha : a.AnyFree) (hb : b.AnyFree) :
    IsMeet holds (holds a ∧ holds b) (FieldType.simpleMeet? a b) := by
  unfold FieldType.simpleMeet?
  split
  · rename_i hleaf
    simp only [Bool.and_eq_true] at hleaf
    exact hr.leafMeet? ha.self hb.self hleaf.1 hleaf.2
  · cases hplain : FieldType.plainMeet? a b with
    | some t => exact isMeet_plainMeet? hr.never hr.unknown hr.same ha.self hb.self hplain
    | none => exact hr.keptMeet? ha hb

end Reading

/-!
# Unions

A union is met member by member, and the branches that are dropped hold nowhere.
-/

namespace Branching

variable {holds : FieldType -> Prop} (hr : Branching holds)

include hr

theorem oneOf (types : List FieldType) :
    holds (FieldType.oneOf types) <-> exists t, t ∈ types ∧ holds t :=
  oneOf_iff hr.union hr.never (fun _ _ => hr.same) types

theorem branches? {members : List FieldType} {other : FieldType}
    {meet : FieldType -> Option FieldType}
    (hmembers : forall m, m ∈ members -> IsMeet holds (holds m ∧ holds other) (meet m)) :
    IsMeet holds (holds (.union members) ∧ holds other)
      (FieldType.branches? (members.flatMap fun m => (meet m).toList)) := by
  have hfound : (exists t, t ∈ (members.flatMap fun m => (meet m).toList) ∧ holds t) <->
      holds (.union members) ∧ holds other := by
    rw [hr.union]
    constructor
    · intro hfound
      rcases hfound with ⟨t, ht, hholds⟩
      rcases mem_flatMap_toList.mp ht with ⟨m, hm, hmeet⟩
      have hpair := hmembers m hm
      rw [hmeet] at hpair
      rcases hpair.mp hholds with ⟨hholdsm, hother⟩
      exact ⟨⟨m, hm, hholdsm⟩, hother⟩
    · intro hfound
      rcases hfound with ⟨⟨m, hm, hholdsm⟩, hother⟩
      have hpair := hmembers m hm
      cases hmeet : meet m with
      | none =>
          rw [hmeet] at hpair
          exact absurd ⟨hholdsm, hother⟩ hpair
      | some t =>
          rw [hmeet] at hpair
          exact ⟨t, mem_flatMap_toList.mpr ⟨m, hm, hmeet⟩, hpair.mpr ⟨hholdsm, hother⟩⟩
  rw [← hfound]
  unfold FieldType.branches?
  split
  · rename_i hnone
    rw [List.isEmpty_iff.mp hnone]
    intro hfound
    rcases hfound with ⟨t, ht, _⟩
    cases ht
  · exact hr.oneOf _

theorem meet? {good : FieldType -> Prop} (hany : forall t, good t -> t ≠ .keyword .any)
    (hmembers : forall members, good (.union members) -> forall m, m ∈ members -> good m)
    (hsimple : forall a b, a.Single -> b.Single -> good a -> good b ->
      IsMeet holds (holds a ∧ holds b) (FieldType.simpleMeet? a b))
    {a b : FieldType} (ha : good a) (hb : good b) :
    IsMeet holds (holds a ∧ holds b) (FieldType.meet? a b) := by
  have hall : good a -> good b -> IsMeet holds (holds a ∧ holds b) (FieldType.meet? a b) := by
    refine meet?_induction
      (motive := fun a b result => good a -> good b ->
        IsMeet holds (holds a ∧ holds b) result) ?_ hsimple ?_ ?_ a b
    · intro a b t hplain ha hb
      exact isMeet_plainMeet? hr.never hr.unknown hr.same (hany a ha) (hany b hb) hplain
    · intro members b meet hmeet ha hb
      apply hr.branches?
      intro m hm
      exact hmeet m hm (hmembers members ha m hm) hb
    · intro a members meet hmeet ha hb
      rw [and_comm]
      apply hr.branches?
      intro m hm
      exact hmeet m hm (hmembers members hb m hm) ha
  exact hall ha hb

end Branching

/-- The meet of two types holds where both do. -/
theorem Sense.meet? {holds : FieldType -> Prop} (hs : Sense holds) {a b : FieldType}
    (ha : a.AnyFree) (hb : b.AnyFree) :
    IsMeet holds (holds a ∧ holds b) (FieldType.meet? a b) := by
  have hany : forall t : FieldType, t.AnyFree -> t ≠ .keyword .any := fun _ ht => ht.self
  apply hs.branching.meet? hany _ _ ha hb
  · intro members hfree
    exact (every_union_iff.mp hfree).2
  · intro a b _ _ ha hb
    exact hs.reading.simpleMeet? ha hb

end FieldType
end Shapes
