import Mathlib.Data.List.Nodup
import Shapes.Proofs.Distinct
import Shapes.Table

/-!
# Reading and writing tables

The names of a table are distinct, so its entries and the partial function it
stands for say the same.  To set a name changes the entry of that name and no
other, and what holds of all values that go into a table holds of all that are
in it.
-/

namespace Shapes
namespace Table

variable {α : Type}

theorem ext_entries {t u : Table α} (h : t.entries = u.entries) : t = u := by
  cases t
  cases u
  cases h
  rfl

theorem lookup_eq_some_iff_mem {entries : List (String × α)}
    (hdistinct : (entries.map Prod.fst).Nodup) {key : String} {value : α} :
    entries.lookup key = some value <-> (key, value) ∈ entries := by
  induction entries with
  | nil => simp
  | cons e rest ih =>
      rcases e with ⟨name, first⟩
      rw [List.map_cons, List.nodup_cons] at hdistinct
      rw [List.lookup_cons]
      by_cases hname : key = name
      · subst hname
        have hnew : (key, value) ∉ rest := by
          intro hmem
          exact hdistinct.1 (List.mem_map.mpr ⟨_, hmem, rfl⟩)
        simp [hnew, eq_comm]
      · rw [beq_eq_false_iff_ne.mpr hname, ih hdistinct.2]
        simp [hname]

theorem get?_eq_some_iff_mem {t : Table α} {key : String} {value : α} :
    t.get? key = some value <-> (key, value) ∈ t.entries :=
  lookup_eq_some_iff_mem t.distinct

theorem contains_iff {t : Table α} {key : String} :
    t.contains key = true <-> exists value, t.get? key = some value := by
  simp [contains, keys, get?_eq_some_iff_mem]

/-!
# Writing

To set a name keeps the place of a name that is there and adds a new one at the
end.
-/

theorem mem_replaceEntry {entries : List (String × α)} {key name : String} {new value : α} :
    (name, value) ∈ replaceEntry key new entries <->
      (name = key ∧ value = new ∧ key ∈ entries.map Prod.fst) ∨
        (name ≠ key ∧ (name, value) ∈ entries) := by
  rw [replaceEntry, List.mem_map]
  constructor
  · intro hfound
    rcases hfound with ⟨⟨other, old⟩, hmem, heq⟩
    by_cases hother : other = key
    · subst hother
      rw [if_pos rfl] at heq
      cases heq
      exact Or.inl ⟨rfl, rfl, List.mem_map.mpr ⟨_, hmem, rfl⟩⟩
    · rw [if_neg hother] at heq
      cases heq
      exact Or.inr ⟨hother, hmem⟩
  · intro hcases
    rcases hcases with ⟨rfl, rfl, hmem⟩ | ⟨hne, hmem⟩
    · rcases List.mem_map.mp hmem with ⟨⟨other, old⟩, hold, rfl⟩
      exact ⟨(other, old), hold, by rw [if_pos rfl]⟩
    · exact ⟨(name, value), hmem, by rw [if_neg hne]⟩

theorem mem_insert {t : Table α} {key name : String} {new value : α} :
    (name, value) ∈ (t.insert key new).entries <->
      (name = key ∧ value = new) ∨ (name ≠ key ∧ (name, value) ∈ t.entries) := by
  unfold insert
  split
  · rename_i hcontains
    have hkey : key ∈ t.entries.map Prod.fst := List.contains_iff_mem.mp hcontains
    simp only [mem_replaceEntry, hkey, and_true]
  · rename_i hcontains
    have hkey : key ∉ t.entries.map Prod.fst := by
      intro hmem
      have htrue : t.contains key = true := List.contains_iff_mem.mpr hmem
      rw [hcontains] at htrue
      cases htrue
    simp only [List.mem_append, List.mem_singleton, Prod.mk.injEq]
    constructor
    · intro hcases
      rcases hcases with hmem | hnew
      · refine Or.inr ⟨?_, hmem⟩
        intro heq
        subst heq
        exact hkey (List.mem_map.mpr ⟨_, hmem, rfl⟩)
      · exact Or.inl hnew
    · intro hcases
      rcases hcases with hnew | ⟨_, hmem⟩
      · exact Or.inr hnew
      · exact Or.inl hmem

theorem get?_insert {t : Table α} {key name : String} {value : α} :
    (t.insert key value).get? name = if name = key then some value else t.get? name := by
  apply Option.ext
  intro found
  rw [get?_eq_some_iff_mem, mem_insert]
  by_cases hname : name = key
  · simp [hname, eq_comm]
  · simp [hname, get?_eq_some_iff_mem]

theorem contains_insert {t : Table α} {key name : String} {value : α} :
    (t.insert key value).contains name = true <-> name = key ∨ t.contains name = true := by
  simp only [contains_iff, get?_eq_some_iff_mem, mem_insert]
  constructor
  · intro hfound
    rcases hfound with ⟨found, ⟨hname, _⟩ | ⟨_, hmem⟩⟩
    · exact Or.inl hname
    · exact Or.inr ⟨found, hmem⟩
  · intro hcases
    by_cases hname : name = key
    · exact ⟨value, Or.inl ⟨hname, rfl⟩⟩
    · rcases hcases with heq | ⟨found, hmem⟩
      · exact absurd heq hname
      · exact ⟨found, Or.inr ⟨hname, hmem⟩⟩

theorem entries_insert {t : Table α} {key : String} (h : t.contains key = false) (value : α) :
    (t.insert key value).entries = t.entries ++ [(key, value)] := by
  unfold insert
  split
  · rename_i hcontains
    rw [h] at hcontains
    cases hcontains
  · rfl

theorem entries_foldl_insert {t : Table α} {entries : List (String × α)}
    (h : ((t.entries ++ entries).map Prod.fst).Nodup) :
    (entries.foldl (fun t e => t.insert e.1 e.2) t).entries = t.entries ++ entries := by
  induction entries generalizing t with
  | nil => simp
  | cons e rest ih =>
      have hnew : t.contains e.1 = false := by
        rw [List.map_append, List.map_cons, List.nodup_append] at h
        rw [← Bool.not_eq_true, contains, List.contains_iff_mem]
        intro hmem
        exact h.2.2 e.1 hmem e.1 List.mem_cons_self rfl
      have hentries := entries_insert hnew e.2
      rw [List.foldl_cons, ih, hentries, List.append_assoc]
      · rfl
      · rw [hentries, List.append_assoc]
        exact h

theorem inherit_nil (own : Table α) : Table.inherit [] own = own :=
  ext_entries (entries_foldl_insert own.distinct)

/-!
# Adding what is new

To add a name that is there changes nothing, so of several entries the first one
stays and names stand in the order in which they were introduced.
-/

section New

variable (t : Table α) (entries : List (String × α))

theorem insertIfNew_of_contains {t : Table α} {key : String} (h : t.contains key = true)
    (value : α) : t.insertIfNew key value = t := by
  rw [insertIfNew, if_pos h]

theorem entries_insertIfNew {t : Table α} {key : String} (h : t.contains key = false)
    (value : α) : (t.insertIfNew key value).entries = t.entries ++ [(key, value)] := by
  rw [insertIfNew, if_neg (by simp [h]), entries_insert h]

theorem get?_eq_none_iff {t : Table α} {key : String} :
    t.get? key = none <-> t.contains key = false := by
  rw [← Bool.not_eq_true, contains_iff, Option.eq_none_iff_forall_ne_some, not_exists]

theorem size_insert {t : Table α} {key : String} (h : t.get? key = none) (value : α) :
    (t.insert key value).size = t.size + 1 := by
  rw [size, entries_insert (get?_eq_none_iff.mp h), List.length_append]
  rfl

theorem get?_insertIfNew (key name : String) (value : α) :
    (t.insertIfNew key value).get? name =
      (t.get? name).or (if name = key then some value else none) := by
  cases hcontains : t.contains key with
  | true =>
      rw [insertIfNew_of_contains hcontains]
      cases hname : t.get? name with
      | some found => rfl
      | none =>
          rw [Option.none_or, if_neg]
          rintro rfl
          rw [get?_eq_none_iff, hcontains] at hname
          cases hname
  | false =>
      unfold get?
      rw [entries_insertIfNew hcontains, List.lookup_append, List.lookup_cons]
      by_cases hname : name = key
      · simp [hname]
      · simp [hname, beq_eq_false_iff_ne.mpr hname]

theorem get?_foldl_insertIfNew (name : String) :
    (entries.foldl (fun t e => t.insertIfNew e.1 e.2) t).get? name =
      (t.get? name).or (entries.lookup name) := by
  induction entries generalizing t with
  | nil => simp
  | cons e rest ih =>
      rw [List.foldl_cons, ih, get?_insertIfNew, Option.or_assoc, List.lookup_cons]
      by_cases hname : name = e.1
      · simp [hname]
      · simp [hname, beq_eq_false_iff_ne.mpr hname]

theorem entries_foldl_insertIfNew :
    (entries.foldl (fun t e => t.insertIfNew e.1 e.2) t).entries =
      t.entries ++
        (distinctBy (fun a b => a.1 == b.1) entries).filter fun e => !t.contains e.1 := by
  induction entries generalizing t with
  | nil => simp [distinctBy]
  | cons e rest ih =>
      rw [List.foldl_cons, ih, distinctBy, List.filter_cons, List.filter_filter]
      cases hcontains : t.contains e.1 with
      | true =>
          rw [insertIfNew_of_contains hcontains, if_neg (by simp)]
          congr 1
          apply List.filter_congr
          intro b _
          by_cases hb : e.1 = b.1
          · simp [hb, hb ▸ hcontains]
          · simp [hb]
      | false =>
          have hinsert : forall name,
              (t.insertIfNew e.1 e.2).contains name = (t.contains name || e.1 == name) := by
            intro name
            rw [Bool.eq_iff_iff, insertIfNew, if_neg (by simp [hcontains]), contains_insert,
              Bool.or_eq_true, beq_iff_eq, or_comm, eq_comm (a := name)]
          rw [entries_insertIfNew hcontains, if_pos (by simp), List.append_assoc]
          simp [hinsert]

theorem prefix_foldl_insertIfNew :
    t.entries <+: (entries.foldl (fun t e => t.insertIfNew e.1 e.2) t).entries := by
  rw [entries_foldl_insertIfNew]
  exact List.prefix_append _ _

theorem keys_foldl_insertIfNew :
    (entries.foldl (fun t e => t.insertIfNew e.1 e.2) t).keys =
      distinctBy (· == ·) (t.keys ++ entries.map Prod.fst) := by
  have hkeys : distinctBy (· == ·) t.keys = t.keys := distinctBy_beq_of_nodup t.distinct
  have hnames : distinctBy (· == ·) (entries.map Prod.fst) =
      (distinctBy (fun a b => a.1 == b.1) entries).map Prod.fst :=
    distinctBy_map (fun _ _ => rfl) entries
  rw [keys, entries_foldl_insertIfNew, List.map_append, distinctBy_append, hkeys, hnames,
    List.filter_map]
  simp only [List.any_beq']
  rfl

theorem foldl_insertIfNew_foldl (u : Table α) :
    (entries.foldl (fun t e => t.insertIfNew e.1 e.2) u).entries.foldl
        (fun t e => t.insertIfNew e.1 e.2) t =
      entries.foldl (fun t e => t.insertIfNew e.1 e.2)
        (u.entries.foldl (fun t e => t.insertIfNew e.1 e.2) t) := by
  induction entries generalizing u with
  | nil => rfl
  | cons e rest ih =>
      rw [List.foldl_cons, ih, List.foldl_cons]
      congr 1
      cases hcontains : u.contains e.1 with
      | true =>
          rw [insertIfNew_of_contains hcontains, insertIfNew_of_contains]
          rcases contains_iff.mp hcontains with ⟨value, hvalue⟩
          rw [contains_iff, get?_foldl_insertIfNew]
          cases t.get? e.1 with
          | none => exact ⟨value, hvalue⟩
          | some first => exact ⟨first, rfl⟩
      | false =>
          rw [entries_insertIfNew hcontains, List.foldl_append, List.foldl_cons, List.foldl_nil]

/-- The table of a list in which an earlier entry beats a later one. -/
def firsts : Table α :=
  entries.foldl (fun t e => t.insertIfNew e.1 e.2) empty

theorem get?_firsts (name : String) : (firsts entries).get? name = entries.lookup name :=
  get?_foldl_insertIfNew empty entries name

theorem keys_firsts : (firsts entries).keys = distinctBy (· == ·) (entries.map Prod.fst) :=
  keys_foldl_insertIfNew empty entries

theorem foldl_insertIfNew_firsts (others : List (String × α)) :
    (firsts others).entries.foldl (fun t e => t.insertIfNew e.1 e.2) (firsts entries) =
      firsts (entries ++ others) := by
  unfold firsts
  rw [foldl_insertIfNew_foldl, List.foldl_append]
  rfl

end New

/-!
# All values

What goes into a table is all that is in it.
-/

/-- All values of a table have a property. -/
def All (p : α -> Prop) (t : Table α) : Prop :=
  forall name value, (name, value) ∈ t.entries -> p value

section All

variable {p : α -> Prop}

instance [DecidablePred p] (t : Table α) : Decidable (t.All p) :=
  decidable_of_iff (forall e, e ∈ t.entries -> p e.2)
    ⟨fun h name value hmem => h (name, value) hmem, fun h e he => h e.1 e.2 he⟩

theorem all_empty : All p (empty : Table α) := by
  intro name value hmem
  cases hmem

theorem All.insert {t : Table α} (h : t.All p) {key : String} {new : α} (hnew : p new) :
    (t.insert key new).All p := by
  intro name value hmem
  rcases mem_insert.mp hmem with ⟨_, rfl⟩ | ⟨_, hmem⟩
  · exact hnew
  · exact h name value hmem

theorem All.insertIfNew {t : Table α} (h : t.All p) {key : String} {new : α} (hnew : p new) :
    (t.insertIfNew key new).All p := by
  unfold Table.insertIfNew
  split
  · exact h
  · exact h.insert hnew

theorem all_foldl {step : Table α -> String × α -> Table α} {entries : List (String × α)}
    (hstep : forall t e, t.All p -> p e.2 -> (step t e).All p)
    (hentries : forall e, e ∈ entries -> p e.2) {t : Table α} (h : t.All p) :
    (entries.foldl step t).All p := by
  induction entries generalizing t with
  | nil => exact h
  | cons e rest ih =>
      apply ih
      · intro other hother
        exact hentries other (List.mem_cons_of_mem e hother)
      · exact hstep t e h (hentries e List.mem_cons_self)

theorem all_inherit {parents : List (Table α)} {own : Table α}
    (hparents : forall t, t ∈ parents -> t.All p) (hown : own.All p) :
    (Table.inherit parents own).All p := by
  have hinherited : forall t : Table α, t.All p ->
      (parents.foldl
        (fun t parent => parent.entries.foldl (fun t e => t.insertIfNew e.1 e.2) t) t).All p := by
    induction parents with
    | nil =>
        intro t ht
        exact ht
    | cons parent rest ih =>
        intro t ht
        apply ih fun other hother => hparents other (List.mem_cons_of_mem parent hother)
        apply all_foldl _ _ ht
        · intro t e ht he
          exact ht.insertIfNew he
        · intro e hmem
          rcases e with ⟨name, value⟩
          exact hparents parent List.mem_cons_self name value hmem
  apply all_foldl
  · intro t e ht he
    exact ht.insert he
  · intro e hmem
    rcases e with ⟨name, value⟩
    exact hown name value hmem
  · exact hinherited empty all_empty

end All

/-!
# Other values

Changing values goes along with every way to build a table.
-/

variable {β : Type} (g : α -> β)

/-- A table with other values for the same names. -/
def map (t : Table α) : Table β :=
  ⟨t.entries.map fun e => (e.1, g e.2), by
    rw [List.map_map]
    exact t.distinct⟩

@[simp] theorem entries_map (t : Table α) :
    (t.map g).entries = t.entries.map fun e => (e.1, g e.2) := rfl

@[simp] theorem map_empty : (empty : Table α).map g = empty := rfl

theorem map_map {γ : Type} (h : β -> γ) (t : Table α) :
    (t.map g).map h = t.map fun a => h (g a) := by
  apply ext_entries
  simp [Function.comp_def]

theorem map_eq_self (t : Table α) : (t.map fun a => a) = t := by
  apply ext_entries
  simp

@[simp] theorem keys_map (t : Table α) : (t.map g).keys = t.keys := by
  simp [keys]

@[simp] theorem contains_map (t : Table α) (key : String) :
    (t.map g).contains key = t.contains key := by
  simp [contains]

@[simp] theorem size_map (t : Table α) : (t.map g).size = t.size := by
  simp [size]

@[simp] theorem get?_map (t : Table α) (key : String) :
    (t.map g).get? key = (t.get? key).map g := by
  unfold get?
  rw [entries_map]
  induction t.entries with
  | nil => rfl
  | cons e rest ih =>
      rw [List.map_cons, List.lookup_cons, List.lookup_cons, ih]
      split <;> rfl

theorem map_insert (t : Table α) (key : String) (value : α) :
    (t.insert key value).map g = (t.map g).insert key (g value) := by
  have hcontains := contains_map g t key
  apply ext_entries
  unfold insert
  split <;> split
  · simp only [entries_map, replaceEntry, List.map_map]
    apply List.map_congr_left
    intro e _
    simp only [Function.comp]
    split <;> rfl
  · simp_all
  · simp_all
  · simp

theorem map_insertIfNew (t : Table α) (key : String) (value : α) :
    (t.insertIfNew key value).map g = (t.map g).insertIfNew key (g value) := by
  unfold insertIfNew
  rw [contains_map]
  split
  · rfl
  · exact map_insert g t key value

theorem map_foldl {step : Table α -> String × α -> Table α}
    (step' : Table β -> String × β -> Table β)
    (hstep : forall t e, (step t e).map g = step' (t.map g) (e.1, g e.2))
    (entries : List (String × α)) (t : Table α) :
    (entries.foldl step t).map g =
      (entries.map fun e => (e.1, g e.2)).foldl step' (t.map g) := by
  induction entries generalizing t with
  | nil => rfl
  | cons e rest ih => rw [List.foldl_cons, List.map_cons, List.foldl_cons, ih, hstep]

theorem map_inherit (parents : List (Table α)) (own : Table α) :
    (Table.inherit parents own).map g = Table.inherit (parents.map (map g)) (own.map g) := by
  have hinherited : forall t : Table α,
      (parents.foldl
        (fun t parent => parent.entries.foldl (fun t e => t.insertIfNew e.1 e.2) t) t).map g =
        (parents.map (map g)).foldl
          (fun t parent => parent.entries.foldl (fun t e => t.insertIfNew e.1 e.2) t)
          (t.map g) := by
    induction parents with
    | nil =>
        intro t
        rfl
    | cons parent rest ih =>
        intro t
        rw [List.foldl_cons, List.map_cons, List.foldl_cons, ih,
          map_foldl g (fun t e => t.insertIfNew e.1 e.2) fun t e =>
            map_insertIfNew g t e.1 e.2]
        rfl
  unfold Table.inherit
  rw [map_foldl g (fun t e => t.insert e.1 e.2) fun t e => map_insert g t e.1 e.2,
    hinherited]
  rfl

end Table
end Shapes
