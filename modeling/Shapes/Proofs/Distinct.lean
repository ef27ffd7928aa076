import Shapes.Distinct

/-!
# Members of a list

A property that related members share is found among the distinct members of a
list as well as among all of them.  A bound for each member gives a bound for all
of them at once.
-/

namespace Shapes

variable {α : Type} {related : α -> α -> Bool}

theorem mem_of_mem_distinctBy {list : List α} {a : α}
    (h : a ∈ distinctBy related list) : a ∈ list := by
  induction list with
  | nil => cases h
  | cons b rest ih =>
      rcases List.mem_cons.mp h with rfl | h
      · exact List.mem_cons_self
      · exact List.mem_cons_of_mem b (ih (List.mem_filter.mp h).1)

theorem distinctBy_eq_nil_iff {list : List α} : distinctBy related list = [] <-> list = [] := by
  cases list <;> simp [distinctBy]

theorem exists_mem_distinctBy (related : α -> α -> Bool) (list : List α) {holds : α -> Prop}
    (hrelated : forall a b, a ∈ list -> b ∈ list -> related a b = true -> holds b -> holds a) :
    (exists a, a ∈ distinctBy related list ∧ holds a) <-> exists a, a ∈ list ∧ holds a := by
  constructor
  · intro hfound
    rcases hfound with ⟨a, ha, hholds⟩
    exact ⟨a, mem_of_mem_distinctBy ha, hholds⟩
  · induction list with
    | nil =>
        intro hfound
        rcases hfound with ⟨a, ha, _⟩
        cases ha
    | cons first rest ih =>
        intro hfound
        rcases hfound with ⟨a, ha, hholds⟩
        rcases List.mem_cons.mp ha with rfl | ha
        · exact ⟨a, List.mem_cons_self, hholds⟩
        · have hrest := ih fun b c hb hc =>
            hrelated b c (List.mem_cons_of_mem first hb) (List.mem_cons_of_mem first hc)
          rcases hrest ⟨a, ha, hholds⟩ with ⟨b, hb, hbholds⟩
          -- The member that was found may have given way to the first one.
          cases hfirst : related first b with
          | true =>
              have hmem := List.mem_cons_of_mem first (mem_of_mem_distinctBy hb)
              exact ⟨first, List.mem_cons_self,
                hrelated first b List.mem_cons_self hmem hfirst hbholds⟩
          | false =>
              refine ⟨b, List.mem_cons_of_mem first ?_, hbholds⟩
              exact List.mem_filter.mpr ⟨hb, by rw [hfirst]; rfl⟩

theorem forall_mem_distinctBy (related : α -> α -> Bool) (list : List α) {holds : α -> Prop}
    (hrelated : forall a b, a ∈ list -> b ∈ list -> related a b = true -> holds a -> holds b) :
    (forall a, a ∈ distinctBy related list -> holds a) <-> forall a, a ∈ list -> holds a := by
  have hexists : (exists a, a ∈ distinctBy related list ∧ ¬ holds a) <->
      exists a, a ∈ list ∧ ¬ holds a :=
    exists_mem_distinctBy related list
      fun a b ha hb hab hnot hholds => hnot (hrelated a b ha hb hab hholds)
  constructor
  · intro h a ha
    apply Classical.byContradiction
    intro hnot
    rcases hexists.mpr ⟨a, ha, hnot⟩ with ⟨b, hb, hnotb⟩
    exact hnotb (h b hb)
  · intro h a ha
    exact h a (mem_of_mem_distinctBy ha)

theorem pairwise_distinctBy (related : α -> α -> Bool) (list : List α) :
    (distinctBy related list).Pairwise fun a b => related a b = false := by
  induction list with
  | nil => exact List.Pairwise.nil
  | cons first rest ih =>
      refine List.Pairwise.cons ?_ (ih.sublist List.filter_sublist)
      intro b hb
      simpa using (List.mem_filter.mp hb).2

theorem distinctBy_eq_self {list : List α}
    (h : list.Pairwise fun a b => related a b = false) : distinctBy related list = list := by
  induction list with
  | nil => rfl
  | cons first rest ih =>
      rcases List.pairwise_cons.mp h with ⟨hfirst, hrest⟩
      rw [distinctBy, ih hrest, List.filter_eq_self.mpr]
      intro b hb
      rw [hfirst b hb]
      rfl

theorem distinctBy_append (related : α -> α -> Bool) (list others : List α) :
    distinctBy related (list ++ others) =
      distinctBy related list ++
        (distinctBy related others).filter fun b => !list.any fun a => related a b := by
  induction list with
  | nil => exact (List.filter_eq_self.mpr fun _ _ => rfl).symm
  | cons first rest ih =>
      rw [List.cons_append, distinctBy, distinctBy, ih, List.filter_append, List.filter_filter,
        List.cons_append]
      simp only [List.any_cons, Bool.not_or]

theorem distinctBy_map {β : Type} {related' : β -> β -> Bool} {g : α -> β}
    (h : forall a b, related' (g a) (g b) = related a b) (list : List α) :
    distinctBy related' (list.map g) = (distinctBy related list).map g := by
  induction list with
  | nil => rfl
  | cons a rest ih =>
      rw [List.map_cons, distinctBy, distinctBy, List.map_cons, ih, List.filter_map]
      congr 3
      funext b
      simp only [Function.comp, h]

/-!
# Different members

A list is diverse when two of its members are unrelated.  Distinct members are
diverse as soon as there are two of them, which tells a union with many members
from one that collapses.
-/

theorem two_le_length {list : List α} (hnil : list ≠ []) (honly : forall a, list ≠ [a]) :
    2 ≤ list.length := by
  have hpos := List.length_pos_iff.mpr hnil
  have hone : list.length ≠ 1 := by
    intro hone
    rcases List.length_eq_one_iff.mp hone with ⟨a, ha⟩
    exact honly a ha
  omega

/-- A list with two members that are not related. -/
def Diverse (related : α -> α -> Bool) (list : List α) : Prop :=
  exists a, a ∈ list ∧ exists b, b ∈ list ∧ related a b = false

instance (list : List α) : Decidable (Diverse related list) :=
  inferInstanceAs (Decidable (exists a, a ∈ list ∧ exists b, b ∈ list ∧ related a b = false))

theorem diverse_distinctBy {list : List α} (hnil : distinctBy related list ≠ [])
    (honly : forall a, distinctBy related list ≠ [a]) :
    Diverse related (distinctBy related list) := by
  have hdistinct := pairwise_distinctBy related list
  generalize distinctBy related list = members at hnil honly hdistinct
  cases members with
  | nil => exact absurd rfl hnil
  | cons first rest =>
      cases rest with
      | nil => exact absurd rfl (honly first)
      | cons second rest =>
          have hdiffer := (List.pairwise_cons.mp hdistinct).1 second List.mem_cons_self
          exact ⟨first, by simp, second, by simp, hdiffer⟩

theorem related_of_members (related : α -> α -> Bool)
    (hsymm : forall {a b}, related a b = true -> related b a = true)
    (htrans : forall {a b c}, related a b = true -> related b c = true -> related a c = true)
    {x y : α} {as bs : List α} {p q : Prop} (hx : as = [x] ∨ (p ∧ Diverse related as))
    (hy : bs = [y] ∨ (q ∧ Diverse related bs))
    (hforth : forall a, a ∈ as -> exists b, b ∈ bs ∧ related a b = true)
    (hback : forall b, b ∈ bs -> exists a, a ∈ as ∧ related a b = true)
    (hmany : p -> q -> related x y = true) : related x y = true := by
  rcases hx with rfl | ⟨hp, a, ha, a', ha', hdiffer⟩
  · have hone : forall b, b ∈ bs -> related x b = true := by simpa using hback
    rcases hy with rfl | ⟨_, b, hb, b', hb', hdiffer⟩
    · exact hone y (List.mem_singleton_self y)
    · rw [htrans (hsymm (hone b hb)) (hone b' hb')] at hdiffer
      cases hdiffer
  · rcases hy with rfl | ⟨hq, _⟩
    · have hone : forall a, a ∈ as -> related a y = true := by simpa using hforth
      rw [htrans (hone a ha) (hsymm (hone a' ha'))] at hdiffer
      cases hdiffer
    · exact hmany hp hq

section Equal

variable [BEq α] [LawfulBEq α]

theorem mem_distinctBy_beq {list : List α} {a : α} :
    a ∈ distinctBy (· == ·) list <-> a ∈ list := by
  have hexists : (exists b, b ∈ distinctBy (· == ·) list ∧ b = a) <->
      exists b, b ∈ list ∧ b = a := by
    apply exists_mem_distinctBy (· == ·) list
    intro b c _ _ hbc hc
    exact (eq_of_beq hbc).trans hc
  simpa using hexists

theorem nodup_distinctBy_beq (list : List α) : (distinctBy (· == ·) list).Nodup :=
  (pairwise_distinctBy (· == ·) list).imp beq_eq_false_iff_ne.mp

theorem distinctBy_beq_of_nodup {list : List α} (h : list.Nodup) :
    distinctBy (· == ·) list = list :=
  distinctBy_eq_self (h.imp beq_eq_false_iff_ne.mpr)

theorem distinctBy_append_of_mem {list : List α} {a : α} (h : a ∈ list) (others : List α) :
    distinctBy (· == ·) (list ++ a :: others) = distinctBy (· == ·) (list ++ others) := by
  rw [distinctBy_append, distinctBy_append]
  congr 1
  have hfound : (list.any fun b => b == a) = true :=
    List.any_eq_true.mpr ⟨a, h, beq_self_eq_true a⟩
  rw [distinctBy, List.filter_cons_of_neg (by simp [hfound]), List.filter_filter]
  apply List.filter_congr
  intro b _
  -- What is equal to the repeated member is found in the list as well.
  cases hab : a == b with
  | false => simp
  | true =>
      rw [← eq_of_beq hab, hfound]
      rfl

theorem distinctBy_distinctBy_append (list others : List α) :
    distinctBy (· == ·) (distinctBy (· == ·) list ++ others) =
      distinctBy (· == ·) (list ++ others) := by
  rw [distinctBy_append, distinctBy_append, distinctBy_beq_of_nodup (nodup_distinctBy_beq list)]
  congr 1
  apply List.filter_congr
  intro b _
  rw [List.any_beq', List.any_beq', Bool.eq_iff_iff]
  simp [mem_distinctBy_beq]

end Equal

theorem exists_common_level {list : List α} {fits : Nat -> α -> Prop}
    (hmono : forall {m n a}, m ≤ n -> fits m a -> fits n a)
    (h : forall a, a ∈ list -> exists n, fits n a) :
    exists n, forall a, a ∈ list -> fits n a := by
  induction list with
  | nil =>
      refine ⟨0, ?_⟩
      intro a ha
      cases ha
  | cons first rest ih =>
      rcases h first List.mem_cons_self with ⟨m, hm⟩
      rcases ih fun a ha => h a (List.mem_cons_of_mem first ha) with ⟨n, hn⟩
      refine ⟨max m n, ?_⟩
      intro a ha
      rcases List.mem_cons.mp ha with rfl | ha
      · exact hmono (Nat.le_max_left m n) hm
      · exact hmono (Nat.le_max_right m n) (hn a ha)

end Shapes
