import Shapes.Proofs.Table

/-!
# Inheritance of entries

A table that inherits from parents has its own entries and those of its parents.
An own entry beats every inherited one, and an earlier parent beats a later one; the
names stand in the order in which the parents, and then the table itself, bring them.
So parents may be taken over in several goes, and a parent that comes again brings
nothing.
-/

namespace Shapes

namespace Table

variable {α : Type}

/-!
# Own entries

A name that is set keeps its place, or comes last when it is new.
-/

theorem get?_foldl_insert (t : Table α) {entries : List (String × α)}
    (hdistinct : (entries.map Prod.fst).Nodup) (key : String) :
    (entries.foldl (fun t e => t.insert e.1 e.2) t).get? key =
      (entries.lookup key).or (t.get? key) := by
  induction entries generalizing t with
  | nil => rfl
  | cons e rest ih =>
      rw [List.map_cons, List.nodup_cons] at hdistinct
      rw [List.foldl_cons, ih _ hdistinct.2, get?_insert, List.lookup_cons]
      by_cases hkey : key = e.1
      · have hrest : rest.lookup key = none := by
          rw [List.lookup_eq_none_iff]
          intro entry hentry
          rw [hkey, bne_iff_ne]
          intro heq
          exact hdistinct.1 (List.mem_map.mpr ⟨entry, hentry, heq.symm⟩)
        simp [hkey, hkey ▸ hrest]
      · simp [hkey, beq_eq_false_iff_ne.mpr hkey]

theorem keys_insert (t : Table α) (key : String) (value : α) :
    (t.insert key value).keys = if t.contains key then t.keys else t.keys ++ [key] := by
  unfold insert
  split
  · rename_i hcontains
    rw [if_pos hcontains]
    exact map_fst_replaceEntry key value t.entries
  · rename_i hcontains
    rw [if_neg (by simp [hcontains])]
    exact List.map_append

theorem keys_foldl_insert (t : Table α) (entries : List (String × α)) :
    (entries.foldl (fun t e => t.insert e.1 e.2) t).keys =
      distinctBy (· == ·) (t.keys ++ entries.map Prod.fst) := by
  induction entries generalizing t with
  | nil =>
      rw [List.foldl_nil, List.map_nil, List.append_nil]
      exact (distinctBy_beq_of_nodup t.distinct).symm
  | cons e rest ih =>
      rw [List.foldl_cons, ih, keys_insert, List.map_cons]
      split
      · rename_i hcontains
        rw [distinctBy_append_of_mem (List.contains_iff_mem.mp hcontains)]
      · rw [List.append_assoc, List.singleton_append]

/-!
# Inherited entries

What the parents bring is the first entry for each name in the list of all their
entries.  Names that are there already bring nothing new.
-/

theorem inherit_eq (parents : List (Table α)) (own : Table α) :
    Table.inherit parents own =
      own.entries.foldl (fun t e => t.insert e.1 e.2) (firsts (parents.flatMap entries)) := by
  rw [Table.inherit, firsts, List.foldl_flatMap]

theorem lookup_flatMap_entries (parents : List (Table α)) (key : String) :
    (parents.flatMap entries).lookup key = parents.findSome? fun parent => parent.get? key := by
  induction parents with
  | nil => rfl
  | cons parent rest ih =>
      rw [List.flatMap_cons, List.lookup_append, ih, List.findSome?_cons]
      unfold get?
      cases parent.entries.lookup key <;> rfl

theorem get?_inherit (parents : List (Table α)) (own : Table α) (key : String) :
    (Table.inherit parents own).get? key =
      (own.get? key).or (parents.findSome? fun parent => parent.get? key) := by
  rw [inherit_eq, get?_foldl_insert _ own.distinct, get?_firsts, lookup_flatMap_entries]
  rfl

theorem keys_inherit (parents : List (Table α)) (own : Table α) :
    (Table.inherit parents own).keys =
      distinctBy (· == ·) (parents.flatMap keys ++ own.keys) := by
  rw [inherit_eq, keys_foldl_insert, keys_firsts, List.map_flatMap, distinctBy_distinctBy_append]
  rfl

theorem firsts_append (entries others : List (String × α)) :
    firsts (entries ++ others) =
      others.foldl (fun t e => t.insertIfNew e.1 e.2) (firsts entries) :=
  List.foldl_append

theorem firsts_append_of_mem {entries others : List (String × α)}
    (h : forall e, e ∈ others -> e.1 ∈ entries.map Prod.fst) :
    firsts (entries ++ others) = firsts entries := by
  rw [firsts_append]
  induction others with
  | nil => rfl
  | cons e rest ih =>
      rw [List.forall_mem_cons] at h
      have hcontains : (firsts entries).contains e.1 = true := by
        rw [contains, List.contains_iff_mem, keys_firsts, mem_distinctBy_beq]
        exact h.1
      rw [List.foldl_cons, insertIfNew_of_contains hcontains, ih h.2]

theorem inherit_repeated {parents : List (Table α)} {parent : Table α} (h : parent ∈ parents)
    (others : List (Table α)) (own : Table α) :
    Table.inherit (parents ++ parent :: others) own = Table.inherit (parents ++ others) own := by
  have hknown : forall e, e ∈ parent.entries ->
      e.1 ∈ (parents.flatMap entries).map Prod.fst := by
    intro e he
    exact List.mem_map_of_mem (List.mem_flatMap.mpr ⟨parent, h, he⟩)
  rw [inherit_eq, inherit_eq, List.flatMap_append, List.flatMap_append, List.flatMap_cons,
    ← List.append_assoc, firsts_append, firsts_append_of_mem hknown, ← firsts_append]

/-!
# Precedence and order

The two halves are put together into the law of inheritance.
-/

/--
What a table that inherits has for a name, and in which order its names stand.  Parents
may be taken over in two goes, and a parent that is repeated later changes nothing.
-/
theorem inheritance_follows_the_order_of_parents (parents others : List (Table α))
    (own : Table α) :
    (forall key, (Table.inherit parents own).get? key =
        (own.get? key).or (parents.findSome? fun parent => parent.get? key)) ∧
      (Table.inherit parents own).keys =
        distinctBy (· == ·) (parents.flatMap keys ++ own.keys) ∧
      (forall key, (Table.inherit (parents ++ others) own).get? key =
        (Table.inherit others (Table.inherit parents own)).get? key) ∧
      forall parent between,
        Table.inherit (parents ++ parent :: between ++ parent :: others) own =
          Table.inherit (parents ++ parent :: between ++ others) own := by
  refine ⟨get?_inherit parents own, keys_inherit parents own, ?_, ?_⟩
  · intro key
    rw [get?_inherit, get?_inherit, get?_inherit, List.findSome?_append, Option.or_assoc]
  · intro parent between
    exact inherit_repeated (by simp) others own

end Table
end Shapes
