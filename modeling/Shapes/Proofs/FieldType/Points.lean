import Shapes.Proofs.FieldType.Sense

/-!
# Points of a type

Whether two types have a meet is a matter of their leaves: what is kept in an
intersection, references and inner unions, never rules anything out.  A `Point`
fixes a leaf and the kept parts that are taken to hold, and a type is clear at a
point when one of its branches is.

`FieldType.Viable` asks every branch for such a point.  Among viable types a meet
is clear exactly where both operands are, and there is a meet exactly when they are
clear at a common point.  Neither depends on the order of the operands.
-/

namespace Shapes

theorem Literal.widened_eq_of_same {a b : Literal} (h : a.same b = true) :
    a.widened = b.widened := by
  cases a <;> cases b <;> simp_all [same, widened]

namespace FieldType

/-- A leaf, and the parts that hold without a look inside. -/
structure Point where
  leaf : FieldType
  parts : List FieldType

mutual

/-- A type holds at a point; unions are not opened. -/
def At (point : Point) : FieldType -> Prop
  | keyword word =>
      word = .unknown ∨ (word ≠ .never ∧
        (point.leaf = keyword word ∨ exists value, point.leaf = literal value ∧
          word = value.widened))
  | reference id => exists part, part ∈ point.parts ∧ part.same (reference id) = true
  | union members => exists part, part ∈ point.parts ∧ part.same (union members) = true
  | intersection members => AllAt point members
  | literal value => same (literal value) point.leaf = true

def AllAt (point : Point) : List FieldType -> Prop
  | [] => True
  | t :: rest => At point t ∧ AllAt point rest

end

section At

variable {point : Point}

theorem at_intersection {members : List FieldType} :
    At point (intersection members) <-> forall m, m ∈ members -> At point m := by
  have hall : AllAt point members <-> forall m, m ∈ members -> At point m := by
    induction members with
    | nil => simp [AllAt]
    | cons t rest ih => simp [AllAt, ih]
  rw [At, hall]

theorem at_kept {t u : FieldType} (h : t.same u = true) :
    (exists part, part ∈ point.parts ∧ part.same t = true) <->
      exists part, part ∈ point.parts ∧ part.same u = true := by
  constructor
  · intro hfound
    rcases hfound with ⟨part, hpart, hsame⟩
    exact ⟨part, hpart, same_trans hsame h⟩
  · intro hfound
    rcases hfound with ⟨part, hpart, hsame⟩
    exact ⟨part, hpart, same_trans hsame (same_symm h)⟩

theorem at_iff_of_same {t u : FieldType} (h : t.same u = true) : At point t <-> At point u := by
  induction t using memberInduction generalizing u with
  | keyword word =>
      cases u with
      | keyword other => rw [show word = other by simpa [same] using h]
      | reference | union | intersection | literal => cases h
  | reference id =>
      cases u with
      | reference other => rw [show id = other by simpa [same] using h]
      | keyword | union | intersection | literal => cases h
  | union members ih =>
      cases u with
      | union others =>
          rw [At, At]
          exact at_kept h
      | keyword | reference | intersection | literal => cases h
  | intersection members ih =>
      cases u with
      | intersection others =>
          rw [at_intersection, at_intersection]
          exact (same_intersection_iff.mp h).forall_iff fun a ha b hab => ih a ha hab
      | keyword | reference | union | literal => cases h
  | literal value =>
      cases u with
      | literal other =>
          rw [At, At]
          exact ⟨fun hvalue => same_trans (same_symm h) hvalue, fun hother => same_trans h hother⟩
      | keyword | reference | union | intersection => cases h

theorem at_keyword_cases {word : Keyword} (htop : word.isTop = false)
    (h : At point (keyword word)) :
    point.leaf = keyword word ∨
      exists value, point.leaf = literal value ∧ word = value.widened := by
  rcases h with rfl | ⟨_, hcases⟩
  · cases htop
  · exact hcases

theorem at_literal_cases {value : Literal} (h : At point (literal value)) :
    exists other, point.leaf = literal other ∧ value.same other = true := by
  rw [At] at h
  cases hleaf : point.leaf with
  | literal other =>
      rw [hleaf] at h
      exact ⟨other, rfl, h⟩
  | keyword | reference | union | intersection =>
      rw [hleaf] at h
      cases h

theorem reading_at (point : Point) : Reading (At point) where
  intersection := fun _ => at_intersection
  never := by simp [At]
  unknown := Or.inl rfl
  same := at_iff_of_same
  keyword := by
    intro a b ha hb hholdsa hholdsb
    rcases at_keyword_cases ha hholdsa with hleaf | ⟨value, hleaf, rfl⟩
    · rcases at_keyword_cases hb hholdsb with hleaf' | ⟨other, hleaf', rfl⟩
      · rw [hleaf] at hleaf'
        cases hleaf'
        rfl
      · rw [hleaf] at hleaf'
        cases hleaf'
    · rcases at_keyword_cases hb hholdsb with hleaf' | ⟨other, hleaf', rfl⟩
      · rw [hleaf] at hleaf'
        cases hleaf'
      · rw [hleaf] at hleaf'
        cases hleaf'
        rfl
  literal := by
    intro a b ha hb
    rcases at_literal_cases ha with ⟨value, hvalue, hsame⟩
    rcases at_literal_cases hb with ⟨other, hother, hsame'⟩
    rw [hvalue] at hother
    cases hother
    exact Literal.same_trans hsame (Literal.same_symm hsame')
  widened := by
    intro a ha
    rcases at_literal_cases ha with ⟨value, hvalue, hsame⟩
    refine Or.inr ⟨?_, Or.inr ⟨value, hvalue, Literal.widened_eq_of_same hsame⟩⟩
    cases a <;> simp [Literal.widened]

end At

/-!
# Branches

What a union holds is decided by its branches, the types that are no unions any
more.
-/

mutual

/-- The members of a union and of the unions among them; any other type by itself. -/
def branches : FieldType -> List FieldType
  | union members => allBranches members
  | t => [t]

def allBranches : List FieldType -> List FieldType
  | [] => []
  | t :: rest => branches t ++ allBranches rest

end

theorem mem_branches_union {members : List FieldType} {x : FieldType} :
    x ∈ branches (union members) <-> exists m, m ∈ members ∧ x ∈ m.branches := by
  rw [branches]
  induction members with
  | nil => simp [allBranches]
  | cons t rest ih => simp [allBranches, ih]

theorem Single.branches {t : FieldType} (h : t.Single) : t.branches = [t] := by
  cases t with
  | union members => exact absurd rfl (h members)
  | keyword | reference | intersection | literal => rfl

theorem single_of_mem_branches {t x : FieldType} (h : x ∈ t.branches) : x.Single := by
  induction t using memberInduction with
  | union members ih =>
      rcases mem_branches_union.mp h with ⟨m, hm, hx⟩
      exact ih m hm hx
  | keyword | reference | intersection | literal =>
      cases List.mem_singleton.mp h
      simp [Single]

theorem exists_same_branch {t u : FieldType} (h : t.same u = true) {x : FieldType}
    (hx : x ∈ t.branches) : exists y, y ∈ u.branches ∧ x.same y = true := by
  induction t using memberInduction generalizing u with
  | union members ih =>
      cases u with
      | union others =>
          rcases mem_branches_union.mp hx with ⟨m, hm, hxm⟩
          rcases (same_union_iff.mp h).1 m hm with ⟨other, hother, hsame⟩
          rcases ih m hm hsame hxm with ⟨y, hy, hxy⟩
          exact ⟨y, mem_branches_union.mpr ⟨other, hother, hy⟩, hxy⟩
      | keyword | reference | intersection | literal => cases h
  | keyword | reference | intersection | literal =>
      cases List.mem_singleton.mp hx
      cases u with
      | union => cases h
      | keyword | reference | intersection | literal => exact ⟨_, List.mem_singleton_self _, h⟩

/-- One of the branches of a type holds at a point. -/
def Clear (point : Point) (t : FieldType) : Prop :=
  exists x, x ∈ t.branches ∧ At point x

theorem clear_iff_at {point : Point} {t : FieldType} (h : t.Single) :
    Clear point t <-> At point t := by
  simp [Clear, h.branches]

theorem clear_of_same {point : Point} {t u : FieldType} (h : t.same u = true)
    (ht : Clear point t) : Clear point u := by
  rcases ht with ⟨x, hx, hholds⟩
  rcases exists_same_branch h hx with ⟨y, hy, hxy⟩
  exact ⟨y, hy, (at_iff_of_same hxy).mp hholds⟩

theorem branching_clear (point : Point) : Branching (Clear point) where
  union := by
    intro members
    constructor
    · intro hclear
      rcases hclear with ⟨x, hx, hholds⟩
      rcases mem_branches_union.mp hx with ⟨m, hm, hxm⟩
      exact ⟨m, hm, x, hxm, hholds⟩
    · intro hfound
      rcases hfound with ⟨m, hm, x, hxm, hholds⟩
      exact ⟨x, mem_branches_union.mpr ⟨m, hm, hxm⟩, hholds⟩
  never := by simp [Clear, branches, At]
  unknown := ⟨_, List.mem_singleton_self _, Or.inl rfl⟩
  same := fun h => ⟨clear_of_same h, clear_of_same (same_symm h)⟩

/-!
# Viable types

A type is viable if each of its branches holds at some point.  There `any` is
left out, since it meets other types as `never` does.
-/

/--
An intersection with a part that is not a union, or with two different parts.  It
stays an intersection, or becomes a type that is not a union, in every meet.
-/
def StaysSingle (t : FieldType) : Prop :=
  exists part, part ∈ t.intersectionParts ∧
    (part.Single ∨ exists other, other ∈ t.intersectionParts ∧ part.same other = false)

instance : DecidablePred StaysSingle := fun t =>
  inferInstanceAs (Decidable (exists part, part ∈ t.intersectionParts ∧
    (part.Single ∨ exists other, other ∈ t.intersectionParts ∧ part.same other = false)))

/-- The leaves of an intersection have a meet, and it is not `never`. -/
def leavesAgree (t : FieldType) : Bool :=
  match leavesMeet? (t.intersectionParts.filter isLeaf) with
  | none => false
  | some none => true
  | some (some leaf) => !leaf.same (keyword .never)

mutual

/--
A type without `any` and without impossible branches: no union is empty, and no
intersection has leaves that rule each other out.
-/
def Viable : FieldType -> Prop
  | union members => members ≠ [] ∧ AllViable members
  | t => t.AnyFree ∧ t.StaysSingle ∧ t.leavesAgree = true

def AllViable : List FieldType -> Prop
  | [] => True
  | t :: rest => Viable t ∧ AllViable rest

end

mutual

def decideViable : (t : FieldType) -> Decidable (Viable t)
  | union members =>
      have := decideAllViable members
      inferInstanceAs (Decidable (members ≠ [] ∧ AllViable members))
  | keyword _ | reference _ | intersection _ | literal _ =>
      inferInstanceAs (Decidable (AnyFree _ ∧ StaysSingle _ ∧ leavesAgree _ = true))

def decideAllViable : (types : List FieldType) -> Decidable (AllViable types)
  | [] => inferInstanceAs (Decidable True)
  | t :: rest =>
      have := decideViable t
      have := decideAllViable rest
      inferInstanceAs (Decidable (Viable t ∧ AllViable rest))

end

instance : DecidablePred Viable :=
  decideViable

theorem viable_union_iff {members : List FieldType} :
    Viable (union members) <-> members ≠ [] ∧ forall m, m ∈ members -> m.Viable := by
  have hall : AllViable members <-> forall m, m ∈ members -> m.Viable := by
    induction members with
    | nil => simp [AllViable]
    | cons t rest ih => simp [AllViable, ih]
  rw [Viable, hall]

theorem Single.viable_iff {t : FieldType} (h : t.Single) :
    t.Viable <-> t.AnyFree ∧ t.StaysSingle ∧ t.leavesAgree = true := by
  rw [Viable]
  exact h

theorem Viable.ne_never {t : FieldType} (h : t.Viable) : t ≠ keyword .never := by
  rintro rfl
  cases h.2.2

theorem Viable.anyFree {t : FieldType} (h : t.Viable) : t.AnyFree := by
  induction t using memberInduction with
  | union members ih =>
      refine every_union_iff.mpr ⟨by simp, ?_⟩
      intro m hm
      exact ih m hm ((viable_union_iff.mp h).2 m hm)
  | keyword | reference | intersection | literal => exact h.1

theorem Viable.branch {t x : FieldType} (h : t.Viable) (hx : x ∈ t.branches) : x.Viable := by
  induction t using memberInduction with
  | union members ih =>
      rcases mem_branches_union.mp hx with ⟨m, hm, hxm⟩
      exact ih m hm ((viable_union_iff.mp h).2 m hm) hxm
  | keyword | reference | intersection | literal =>
      cases List.mem_singleton.mp hx
      exact h

/-!
# Parts of intersections

An intersection holds where its parts do, and its parts hold together somewhere
as soon as its leaves agree.
-/

/-- A type that is not an intersection. -/
def Undivided (t : FieldType) : Prop :=
  forall members, t ≠ .intersection members

instance : DecidablePred Undivided
  | intersection members => isFalse fun h => h members rfl
  | keyword _ | reference _ | union _ | literal _ => isTrue (by simp [Undivided])

theorem Undivided.intersectionParts {t : FieldType} (h : t.Undivided) :
    t.intersectionParts = [t] := by
  cases t with
  | intersection members => exact absurd rfl (h members)
  | keyword | reference | union | literal => rfl

theorem undivided_of_mem {t part : FieldType} (h : part ∈ t.intersectionParts) :
    part.Undivided := by
  induction t using memberInduction with
  | intersection members ih =>
      rw [FieldType.intersectionParts] at h
      rcases mem_allIntersectionParts.mp h with ⟨m, hm, hpart⟩
      exact ih m hm hpart
  | keyword | reference | union | literal =>
      cases List.mem_singleton.mp h
      simp [Undivided]

theorem intersectionParts_intersection {types : List FieldType}
    (h : forall t, t ∈ types -> t.Undivided) :
    intersectionParts (intersection types) = types := by
  rw [intersectionParts]
  induction types with
  | nil => rfl
  | cons t rest ih =>
      rw [List.forall_mem_cons] at h
      rw [allIntersectionParts, h.1.intersectionParts, ih h.2]
      rfl

theorem at_leaf {leaf : FieldType} (hleaf : leaf.isLeaf = true) (hnever : leaf ≠ keyword .never)
    (parts : List FieldType) : At ⟨leaf, parts⟩ leaf := by
  cases leaf with
  | keyword word => exact Or.inr ⟨fun hword => hnever (by rw [hword]), Or.inl rfl⟩
  | literal value => exact same_refl (.literal value)
  | reference | union | intersection => cases hleaf

theorem exists_at_parts {parts : List FieldType} {leaf : Option FieldType}
    (hany : forall part, part ∈ parts -> part ≠ keyword .any)
    (hparts : forall part, part ∈ parts -> part.Undivided)
    (hmeet : leavesMeet? (parts.filter isLeaf) = some leaf)
    (hleaf : forall t, leaf = some t -> t.isLeaf = true ∧ t ≠ keyword .never) :
    exists point, forall part, part ∈ parts -> At point part := by
  refine ⟨⟨leaf.getD (keyword .unknown), parts⟩, ?_⟩
  have hleaves : forall t, t ∈ parts.filter isLeaf -> t ≠ keyword .any ∧ t.isLeaf = true := by
    intro t ht
    rcases List.mem_filter.mp ht with ⟨hmem, htleaf⟩
    exact ⟨hany t hmem, htleaf⟩
  have hall := (reading_at ⟨leaf.getD (keyword .unknown), parts⟩).leavesMeet? hleaves
  rw [hmeet] at hall
  have hagreed := hall.mp <| by
    intro t ht
    cases Option.mem_toList.mp ht
    rcases hleaf t rfl with ⟨htleaf, hnever⟩
    exact at_leaf htleaf hnever parts
  intro part hpart
  cases part with
  | keyword | literal => exact hagreed _ (List.mem_filter.mpr ⟨hpart, rfl⟩)
  | reference | union => exact ⟨_, hpart, same_refl _⟩
  | intersection members => exact absurd rfl (hparts _ hpart members)

theorem eq_of_same_keyword {t : FieldType} {word : Keyword} (h : t.same (keyword word) = true) :
    t = keyword word := by
  cases t with
  | keyword other => rw [show other = word by simpa [same] using h]
  | reference | union | intersection | literal => cases h

theorem leavesAgree_iff {t : FieldType} (h : t.AnyFree) :
    t.leavesAgree = true <-> exists point, At point t := by
  have hany : forall part, part ∈ t.intersectionParts -> part ≠ keyword .any :=
    fun part hpart => (every_intersectionParts h part hpart).self
  constructor
  · intro hagree
    unfold leavesAgree at hagree
    split at hagree
    · cases hagree
    · rename_i hmeet
      rcases exists_at_parts hany (fun _ => undivided_of_mem) hmeet (by simp) with ⟨point, hall⟩
      exact ⟨point, ((reading_at point).intersectionParts t).mp hall⟩
    · rename_i leaf hmeet
      have hleaf : forall u, some leaf = some u -> u.isLeaf = true ∧ u ≠ keyword .never := by
        intro u hu
        cases hu
        refine ⟨(List.mem_filter.mp (mem_of_leavesMeet? hmeet)).2, ?_⟩
        rintro rfl
        cases hagree
      rcases exists_at_parts hany (fun _ => undivided_of_mem) hmeet hleaf with ⟨point, hall⟩
      exact ⟨point, ((reading_at point).intersectionParts t).mp hall⟩
  · intro hfound
    rcases hfound with ⟨point, hholds⟩
    have hparts := ((reading_at point).intersectionParts t).mpr hholds
    have hleaves : forall part, part ∈ t.intersectionParts.filter isLeaf -> At point part :=
      fun part hpart => hparts part (List.mem_filter.mp hpart).1
    have hfree : forall part, part ∈ t.intersectionParts.filter isLeaf ->
        part ≠ keyword .any ∧ part.isLeaf = true := by
      intro part hpart
      rcases List.mem_filter.mp hpart with ⟨hmem, hleaf⟩
      exact ⟨hany part hmem, hleaf⟩
    have hall := (reading_at point).leavesMeet? hfree
    unfold leavesAgree
    split
    · rename_i hmeet
      rw [hmeet] at hall
      exact absurd hleaves hall
    · rfl
    · rename_i leaf hmeet
      rw [Bool.not_eq_true', ← Bool.not_eq_true]
      intro hnever
      rw [eq_of_same_keyword hnever] at hmeet
      exact (reading_at point).never (hleaves _ (mem_of_leavesMeet? hmeet))

/-!
# Meets of types that are not unions

The meet of two branches is put together from their parts.  It holds where both
of them do, and it is viable again.
-/

theorem isLeaf_eq_of_same {t u : FieldType} (h : t.same u = true) : t.isLeaf = u.isLeaf := by
  cases t <;> cases u <;> first | rfl | cases h

/-- The members of an intersection that is put together from parts. -/
structure MembersOfMeet (parts members : List FieldType) : Prop where
  mem : forall m, m ∈ members -> m ∈ parts
  kept : forall part, part ∈ parts -> part.isLeaf = false ->
    exists m, m ∈ members ∧ m.same part = true
  leaf : forall part, part ∈ parts -> part.isLeaf = true -> exists m, m ∈ members ∧ m.isLeaf = true
  leaves : forall m m', m ∈ members -> m' ∈ members -> m.isLeaf = true -> m'.isLeaf = true -> m = m'
  distinct : members.Pairwise fun m m' => m.same m' = false

theorem membersOfMeet_of_leavesMeet? {parts : List FieldType} {leaf : Option FieldType}
    (hmeet : leavesMeet? (parts.filter isLeaf) = some leaf) :
    MembersOfMeet parts (distinctBy same (parts.filter fun t => !t.isLeaf) ++ leaf.toList) := by
  have hkept : forall m, m ∈ distinctBy same (parts.filter fun t => !t.isLeaf) ->
      m ∈ parts ∧ m.isLeaf = false := by
    intro m hm
    simpa using List.mem_filter.mp (mem_of_mem_distinctBy hm)
  have hleaf : forall m, m ∈ leaf.toList -> m ∈ parts ∧ m.isLeaf = true := by
    intro m hm
    cases Option.mem_toList.mp hm
    exact List.mem_filter.mp (mem_of_leavesMeet? hmeet)
  constructor
  · intro m hm
    rcases List.mem_append.mp hm with hm | hm
    · exact (hkept m hm).1
    · exact (hleaf m hm).1
  · intro part hpart hother
    have hmem : part ∈ parts.filter fun t => !t.isLeaf :=
      List.mem_filter.mpr ⟨hpart, by simp [hother]⟩
    rcases exists_same_distinct hmem with ⟨m, hm, hsame⟩
    exact ⟨m, List.mem_append_left _ hm, hsame⟩
  · intro part hpart hisLeaf
    cases leaf with
    | some t => exact ⟨t, List.mem_append_right _ (by simp), (hleaf t (by simp)).2⟩
    | none =>
        have hnone := leaves_eq_nil_of_leavesMeet? hmeet
        have hmem : part ∈ parts.filter isLeaf := List.mem_filter.mpr ⟨hpart, hisLeaf⟩
        rw [hnone] at hmem
        cases hmem
  · intro m m' hm hm' hisLeaf hisLeaf'
    rcases List.mem_append.mp hm with hm | hm
    · rw [(hkept m hm).2] at hisLeaf
      cases hisLeaf
    · rcases List.mem_append.mp hm' with hm' | hm'
      · rw [(hkept m' hm').2] at hisLeaf'
        cases hisLeaf'
      · exact Option.mem_unique (Option.mem_toList.mp hm) (Option.mem_toList.mp hm')
  · rw [List.pairwise_append]
    refine ⟨pairwise_distinctBy same _, ?_, ?_⟩
    · cases leaf <;> simp
    · intro m hm m' hm'
      rw [← Bool.not_eq_true]
      intro hsame
      have heq := isLeaf_eq_of_same hsame
      rw [(hkept m hm).2, (hleaf m' hm').2] at heq
      cases heq

theorem membersOfMeet_of_keptMeet? {a b c : FieldType} (h : keptMeet? a b = some c) :
    exists members, c = allOf members ∧
      MembersOfMeet (a.intersectionParts ++ b.intersectionParts) members := by
  rcases Option.map_eq_some_iff.mp h with ⟨leaf, hmeet, rfl⟩
  exact ⟨_, rfl, membersOfMeet_of_leavesMeet? hmeet⟩

theorem single_of_isLeaf {t : FieldType} (h : t.isLeaf = true) : t.Single := by
  rintro members rfl
  cases h

theorem Undivided.staysSingle {t : FieldType} (h : t.Undivided) (hsingle : t.Single) :
    t.StaysSingle :=
  ⟨t, by simp [h.intersectionParts], Or.inl hsingle⟩

theorem MembersOfMeet.undivided {a b : FieldType} {members : List FieldType}
    (h : MembersOfMeet (a.intersectionParts ++ b.intersectionParts) members) :
    forall m, m ∈ members -> m.Undivided := by
  intro m hm
  rcases List.mem_append.mp (h.mem m hm) with hm | hm
  · exact undivided_of_mem hm
  · exact undivided_of_mem hm

theorem MembersOfMeet.single_staysSingle {a b : FieldType} {members : List FieldType}
    (ha : a.StaysSingle)
    (h : MembersOfMeet (a.intersectionParts ++ b.intersectionParts) members) :
    (allOf members).Single ∧ (allOf members).StaysSingle := by
  rcases ha with ⟨part, hpart, hstays⟩
  have hmem : forall x, x ∈ a.intersectionParts ->
      x ∈ a.intersectionParts ++ b.intersectionParts := fun x hx => List.mem_append_left _ hx
  cases members with
  | nil =>
      cases hleaf : part.isLeaf with
      | true =>
          rcases h.leaf part (hmem part hpart) hleaf with ⟨m, hm, _⟩
          cases hm
      | false =>
          rcases h.kept part (hmem part hpart) hleaf with ⟨m, hm, _⟩
          cases hm
  | cons first rest =>
      cases rest with
      | nil =>
          have hsingle : first.Single := by
            rintro others rfl
            -- Without a leaf, all parts are identical to the one member.
            have hall : forall x, x ∈ a.intersectionParts -> same (union others) x = true := by
              intro x hx
              cases hleaf : x.isLeaf with
              | true =>
                  rcases h.leaf x (hmem x hx) hleaf with ⟨m, hm, hmleaf⟩
                  cases List.mem_singleton.mp hm
                  cases hmleaf
              | false =>
                  rcases h.kept x (hmem x hx) hleaf with ⟨m, hm, hsame⟩
                  cases List.mem_singleton.mp hm
                  exact hsame
            rcases hstays with hsingle | ⟨other, hother, hdiffer⟩
            · have hsame := hall part hpart
              cases part with
              | union members => exact hsingle members rfl
              | keyword | reference | intersection | literal => cases hsame
            · rw [same_trans (same_symm (hall part hpart)) (hall other hother)] at hdiffer
              cases hdiffer
          exact ⟨hsingle, (h.undivided first List.mem_cons_self).staysSingle hsingle⟩
      | cons second rest =>
          have hparts : (allOf (first :: second :: rest)).intersectionParts =
              first :: second :: rest := intersectionParts_intersection h.undivided
          have hdiffer := (List.pairwise_cons.mp h.distinct).1 second List.mem_cons_self
          refine ⟨by simp [allOf, Single], first, ?_, Or.inr ⟨second, ?_, hdiffer⟩⟩
          · simp [hparts]
          · simp [hparts]

theorem single_staysSingle_simpleMeet? {a b c : FieldType} (ha : a.Single ∧ a.StaysSingle)
    (hb : b.Single ∧ b.StaysSingle) (h : simpleMeet? a b = some c) : c.Single ∧ c.StaysSingle := by
  rcases simpleMeet?_cases h with (rfl | rfl) | ⟨_, hkept⟩
  · exact ha
  · exact hb
  · rcases membersOfMeet_of_keptMeet? hkept with ⟨members, rfl, hmembers⟩
    exact hmembers.single_staysSingle ha.2

theorem part_of_at {t part : FieldType} (h : t.AnyFree) (hpoint : exists point, At point t)
    (hpart : part ∈ t.intersectionParts) : part ≠ keyword .any ∧ part ≠ keyword .never := by
  rcases hpoint with ⟨point, hholds⟩
  refine ⟨(every_intersectionParts h part hpart).self, ?_⟩
  rintro rfl
  exact (reading_at point).never (((reading_at point).intersectionParts t).mpr hholds _ hpart)

theorem exists_at_simpleMeet? {a b c : FieldType} (ha : a.AnyFree) (hb : b.AnyFree)
    (hpa : exists point, At point a) (hpb : exists point, At point b)
    (h : simpleMeet? a b = some c) : exists point, At point c := by
  rcases simpleMeet?_cases h with (rfl | rfl) | ⟨_, hkept⟩
  · exact hpa
  · exact hpb
  · rcases Option.map_eq_some_iff.mp hkept with ⟨leaf, hmeet, _⟩
    have hparts : forall part, part ∈ a.intersectionParts ++ b.intersectionParts ->
        part ≠ keyword .any ∧ part ≠ keyword .never :=
      List.forall_mem_append.mpr ⟨fun _ => part_of_at ha hpa, fun _ => part_of_at hb hpb⟩
    have hundivided : forall part, part ∈ a.intersectionParts ++ b.intersectionParts ->
        part.Undivided :=
      List.forall_mem_append.mpr ⟨fun _ => undivided_of_mem, fun _ => undivided_of_mem⟩
    have hleaf : forall t, leaf = some t -> t.isLeaf = true ∧ t ≠ keyword .never := by
      rintro t rfl
      rcases List.mem_filter.mp (mem_of_leavesMeet? hmeet) with ⟨hmem, hleaf⟩
      exact ⟨hleaf, (hparts t hmem).2⟩
    rcases exists_at_parts (fun part hpart => (hparts part hpart).1) hundivided hmeet hleaf with
      ⟨point, hall⟩
    rw [List.forall_mem_append, (reading_at point).intersectionParts,
      (reading_at point).intersectionParts] at hall
    have hiff := (reading_at point).keptMeet? ha hb
    rw [hkept] at hiff
    exact ⟨point, hiff.mpr hall⟩

theorem viable_simpleMeet? {a b c : FieldType} (hasingle : a.Single) (hbsingle : b.Single)
    (ha : a.Viable) (hb : b.Viable) (h : simpleMeet? a b = some c) : c.Single ∧ c.Viable := by
  rcases hasingle.viable_iff.mp ha with ⟨hafree, hastays, haleaves⟩
  rcases hbsingle.viable_iff.mp hb with ⟨hbfree, hbstays, hbleaves⟩
  rcases single_staysSingle_simpleMeet? ⟨hasingle, hastays⟩ ⟨hbsingle, hbstays⟩ h with
    ⟨hsingle, hstays⟩
  have hfree : c.AnyFree := every_simpleMeet? closed_anyFree hafree hbfree h
  rw [leavesAgree_iff hafree] at haleaves
  rw [leavesAgree_iff hbfree] at hbleaves
  have hpoint := exists_at_simpleMeet? hafree hbfree haleaves hbleaves h
  exact ⟨hsingle, hsingle.viable_iff.mpr ⟨hfree, hstays, (leavesAgree_iff hfree).mpr hpoint⟩⟩

/-!
# Meets in general

A meet is clear at a point exactly if both operands are, and without a meet they
never are.
-/

theorem Viable.unionParts {t : FieldType} (h : t.Viable) :
    t.unionParts ≠ [] ∧ forall part, part ∈ t.unionParts -> part.Viable := by
  cases t with
  | union members => exact viable_union_iff.mp h
  | keyword word =>
      cases word with
      | never => exact absurd rfl h.ne_never
      | string | number | boolean | null | undefined | any | unknown =>
          exact ⟨by simp [FieldType.unionParts], by simpa [FieldType.unionParts] using h⟩
  | reference | intersection | literal =>
      exact ⟨by simp [FieldType.unionParts], by simpa [FieldType.unionParts] using h⟩

theorem viable_oneOf {types : List FieldType} (hsome : types ≠ [])
    (h : forall t, t ∈ types -> t.Viable) : (oneOf types).Viable := by
  have hmembers : forall m, m ∈ distinctBy same (types.flatMap unionParts) -> m.Viable := by
    intro m hm
    rcases List.mem_flatMap.mp (mem_of_mem_distinctBy hm) with ⟨t, ht, hmt⟩
    exact (h t ht).unionParts.2 m hmt
  unfold oneOf
  split
  · rename_i hnone
    cases types with
    | nil => exact absurd rfl hsome
    | cons first rest =>
        rw [distinctBy_eq_nil_iff, List.flatMap_cons, List.append_eq_nil_iff] at hnone
        exact absurd hnone.1 (h first List.mem_cons_self).unionParts.1
  · rename_i only honly
    apply hmembers
    rw [honly]
    exact List.mem_singleton_self only
  · rename_i hnil _
    exact viable_union_iff.mpr ⟨hnil, hmembers⟩

theorem viable_branches? {found : List FieldType} {t : FieldType}
    (hfound : forall u, u ∈ found -> u.Viable) (h : branches? found = some t) : t.Viable := by
  unfold branches? at h
  split at h
  · cases h
  · rename_i hsome
    cases h
    exact viable_oneOf (by simpa using hsome) hfound

theorem viable_meet? {a b c : FieldType} (ha : a.Viable) (hb : b.Viable)
    (h : a.meet? b = some c) : c.Viable := by
  have hall : a.Viable -> b.Viable -> forall c, a.meet? b = some c -> c.Viable := by
    refine meet?_induction
      (motive := fun a b result => a.Viable -> b.Viable ->
        forall c, result = some c -> c.Viable) ?_ ?_ ?_ ?_ a b
    · intro a b t hplain ha hb c hc
      cases hc
      rcases plainMeet?_mem hplain with rfl | rfl
      · exact ha
      · exact hb
    · intro a b hasingle hbsingle ha hb c hc
      exact (viable_simpleMeet? hasingle hbsingle ha hb hc).2
    · intro members b meet hmembers ha hb c hc
      apply viable_branches? _ hc
      intro u hu
      rcases mem_flatMap_toList.mp hu with ⟨m, hm, hmeet⟩
      exact hmembers m hm ((viable_union_iff.mp ha).2 m hm) hb u hmeet
    · intro a members meet hmembers ha hb c hc
      apply viable_branches? _ hc
      intro u hu
      rcases mem_flatMap_toList.mp hu with ⟨m, hm, hmeet⟩
      exact hmembers m hm ((viable_union_iff.mp hb).2 m hm) ha u hmeet
  exact hall ha hb c h

/-- A meet is clear where both operands are, and without one they never are. -/
theorem clear_meet? (point : Point) {a b : FieldType} (ha : a.Viable) (hb : b.Viable) :
    IsMeet (Clear point) (Clear point a ∧ Clear point b) (a.meet? b) := by
  have hany : forall t : FieldType, t.Viable -> t ≠ keyword .any := fun _ ht => ht.anyFree.self
  apply (branching_clear point).meet? hany _ _ ha hb
  · intro members h
    exact (viable_union_iff.mp h).2
  · intro a b hasingle hbsingle ha hb
    have hmeet := (reading_at point).simpleMeet? ha.anyFree hb.anyFree
    rw [clear_iff_at hasingle, clear_iff_at hbsingle]
    cases hc : simpleMeet? a b with
    | none =>
        rw [hc] at hmeet
        exact hmeet
    | some c =>
        rw [hc] at hmeet
        exact (clear_iff_at (viable_simpleMeet? hasingle hbsingle ha hb hc).1).trans hmeet

theorem Viable.exists_clear {t : FieldType} (h : t.Viable) : exists point, Clear point t := by
  induction t using memberInduction with
  | union members ih =>
      rcases viable_union_iff.mp h with ⟨hsome, hmembers⟩
      rcases List.exists_mem_of_ne_nil members hsome with ⟨m, hm⟩
      rcases ih m hm (hmembers m hm) with ⟨point, hclear⟩
      exact ⟨point, ((branching_clear point).union members).mpr ⟨m, hm, hclear⟩⟩
  | keyword | reference | intersection | literal =>
      rcases (leavesAgree_iff h.1).mp h.2.2 with ⟨point, hholds⟩
      exact ⟨point, _, List.mem_singleton_self _, hholds⟩

end FieldType
end Shapes
