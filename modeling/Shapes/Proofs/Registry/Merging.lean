import Shapes.Proofs.Registry.Gathering
import Shapes.Proofs.Shape.Identity

/-!
# Fragments of one name

A mergeable name may be declared in fragments, one after another.  What comes of
them depends on their order only in the order of fields: they are accepted when all
types of one field agree, and then the fields are those of all fragments, each with
the first of its types.

That identity of types is an equivalence is what makes it enough to compare each
field with the first type that was stored for it.
-/

namespace Shapes
namespace Contribution

theorem agree_append_iff {entries fragment : List (String × FieldType)} (h : Agree entries) :
    Agree (entries ++ fragment) <->
      Agree fragment ∧
        forall key t, fragment.lookup key = some t ->
          forall present, entries.lookup key = some present -> present.same t = true := by
  constructor
  · intro hall
    refine ⟨hall.of_subset (List.subset_append_right _ _), ?_⟩
    intro key t ht present hpresent
    exact hall key present t (List.mem_append_left _ (mem_of_lookup hpresent))
      (List.mem_append_right _ (mem_of_lookup ht))
  · intro hboth
    rcases hboth with ⟨hfragment, hcross⟩
    rw [agree_iff]
    intro key t ht first hfirst
    rw [List.lookup_append] at hfirst
    cases hpresent : entries.lookup key with
    | none =>
        -- The field is new, so the fragment has its first type.
        rw [hpresent, Option.none_or] at hfirst
        rcases List.mem_append.mp ht with ht | ht
        · rcases exists_lookup_of_mem ht with ⟨found, hfound⟩
          rw [hpresent] at hfound
          cases hfound
        · exact agree_iff.mp hfragment key t ht first hfirst
    | some present =>
        rw [hpresent, Option.some_or] at hfirst
        cases hfirst
        rcases List.mem_append.mp ht with ht | ht
        · exact agree_iff.mp h key t ht first hpresent
        · rcases exists_lookup_of_mem ht with ⟨u, hu⟩
          exact FieldType.same_trans (hcross key u hu first hpresent)
            (agree_iff.mp hfragment key t ht u hu)

theorem Agree.sameFields {entries others : List (String × FieldType)} (h : Agree entries)
    (hperm : entries.Perm others) :
    Shape.sameFields (.firsts entries) (.firsts others) = true := by
  have hkeys : (Table.firsts entries).keys.Perm (Table.firsts others).keys := by
    apply (List.perm_ext_iff_of_nodup (Table.firsts entries).distinct
      (Table.firsts others).distinct).mpr
    intro key
    change key ∈ (Table.firsts entries).keys <-> key ∈ (Table.firsts others).keys
    rw [Table.keys_firsts, Table.keys_firsts, mem_distinctBy_beq, mem_distinctBy_beq]
    exact (hperm.map Prod.fst).mem_iff
  have hsize : (Table.firsts entries).size = (Table.firsts others).size := by
    simpa [Table.size, Table.keys] using hkeys.length_eq
  simp only [Shape.sameFields, Bool.and_eq_true, decide_eq_true_eq, List.all_eq_true]
  refine ⟨hsize, ?_⟩
  intro e he
  rcases e with ⟨key, t⟩
  rw [← Table.get?_eq_some_iff_mem, Table.get?_firsts] at he
  have hmem := mem_of_lookup he
  rcases exists_lookup_of_mem (hperm.mem_iff.mp hmem) with ⟨u, hu⟩
  rw [Table.get?_firsts, hu]
  exact h key t u hmem (hperm.mem_iff.mpr (mem_of_lookup hu))

end Contribution

/-!
# One fragment

A fragment is accepted if its fields agree with those that were stored, and then
it adds to what the fragments before it have made.
-/

namespace Definition

open Contribution (Agree)

/-- A mergeable definition that fragments with these entries have made. -/
structure MadeOf (name : String) (entries : List (String × FieldType)) (d : Definition) :
    Prop where
  name : d.name = name
  kind : d.kind = some .mergeable
  stage : d.stage = .unresolved
  fields : d.fields = .firsts entries
  parents : d.parents = []
  resolved : d.resolved = none

/-- An answer that says whether entries agree; if they do, they have made what is found. -/
structure Merged (name : String) (entries : List (String × FieldType)) (answer : Bool)
    (found : Option Definition) : Prop where
  agree_iff : answer = true <-> Agree entries
  made : answer = true -> exists d, found = some d ∧ d.MadeOf name entries

theorem Merged.refused {name : String} {entries : List (String × FieldType)}
    (h : ¬ Agree entries) (found : Option Definition) : Merged name entries false found := by
  refine ⟨⟨?_, fun hagree => absurd hagree h⟩, ?_⟩
  · intro hfalse
    cases hfalse
  · intro hfalse
    cases hfalse

theorem Merged.not_agree {name : String} {entries : List (String × FieldType)}
    {found : Option Definition} (h : Merged name entries false found) : ¬ Agree entries := by
  intro hagree
  cases h.agree_iff.mpr hagree

theorem merged_of_ok_iff {name : String} {entries : List (String × FieldType)}
    {result : Except Failure Definition} {d : Definition}
    (h : forall d', result = .ok d' <-> Agree entries ∧ d' = d)
    (hmade : d.MadeOf name entries) : Merged name entries result.isOk result.toOption := by
  cases result with
  | error failure =>
      apply Merged.refused
      intro hagree
      cases (h d).mpr ⟨hagree, rfl⟩
  | ok found =>
      rcases (h found).mp rfl with ⟨hagree, rfl⟩
      exact ⟨⟨fun _ => hagree, fun _ => rfl⟩, fun _ => ⟨found, rfl, hmade⟩⟩

def label (name : String) (found : Option Definition) : String :=
  found.elim name (·.name)

theorem receive_first {name : String} {found : Option Definition}
    (hfound : forall d, found = some d -> d.kind = none)
    (fragment : List (String × FieldType)) :
    Merged (label name found) fragment (receive name found (.ofFields .mergeable [] fragment)).isOk
      (receive name found (.ofFields .mergeable [] fragment)).toOption := by
  apply merged_of_ok_iff (d := .declared (label name found) .mergeable (.firsts fragment) [] none)
  · intro d
    have hfirst : receive name found (.ofFields .mergeable [] fragment) = .ok d <->
        ofContribution (label name found) (.ofFields .mergeable [] fragment) = .ok d := by
      cases found with
      | none => rfl
      | some old =>
          rw [receive, merge_eq_ok_iff, hfound old rfl]
          simp [label]
    rw [hfirst, ofContribution_eq_ok_iff, Contribution.ofFields_conflict_eq_none_iff,
      Contribution.ofFields_fields]
    rfl
  · exact ⟨rfl, rfl, rfl, rfl, rfl, rfl⟩

theorem MadeOf.receive {name : String} {entries : List (String × FieldType)} {d : Definition}
    (h : d.MadeOf name entries) (hagree : Agree entries) (fragment : List (String × FieldType)) :
    Merged name (entries ++ fragment)
      (Definition.receive name (some d) (.ofFields .mergeable [] fragment)).isOk
      (Definition.receive name (some d) (.ofFields .mergeable [] fragment)).toOption := by
  apply merged_of_ok_iff (d := d.absorb (.ofFields .mergeable [] fragment))
  · intro d'
    have hclash : d.clash? (.ofFields .mergeable [] fragment) = none <->
        forall key t, fragment.lookup key = some t ->
          forall present, entries.lookup key = some present -> present.same t = true := by
      simp only [clash?_eq_none_iff, Contribution.ofFields_fields, h.fields,
        ← Table.get?_eq_some_iff_mem, Table.get?_firsts]
    rw [Definition.receive, merge_eq_ok_iff, h.kind, h.stage,
      Contribution.ofFields_conflict_eq_none_iff, hclash, Contribution.agree_append_iff hagree]
    simp [Stage.isOpen, Contribution.ofFields, and_assoc]
  · refine ⟨h.name, h.kind, h.stage, ?_, ?_, h.resolved⟩
    · rw [absorb, Contribution.ofFields_fields, h.fields]
      exact Table.foldl_insertIfNew_firsts entries fragment
    · rw [absorb, h.parents]
      rfl

end Definition

namespace Registry

open Contribution (Agree)

theorem contribute_merged {name own : String} {entries : List (String × FieldType)}
    {c : Contribution} {r : Registry} (hfree : r.under name = none -> r.lookup? name = none)
    (h : Definition.Merged own entries (Definition.receive name (r.under name) c).isOk
      (Definition.receive name (r.under name) c).toOption) :
    Definition.Merged own entries ((contribute name c).run r).1.isOk
      (((contribute name c).run r).2.under name) := by
  rw [run_contribute]
  cases hid : r.lookup? name with
  | none =>
      rw [under, hid, Option.bind_none, Definition.receive] at h
      cases hd : Definition.ofContribution name c with
      | error failure =>
          rw [hd] at h
          exact .refused h.not_agree _
      | ok d =>
          rw [hd] at h
          rcases Definition.ofContribution_declares hd with ⟨rfl, _⟩
          have hunder : (r.register d).2.under d.name = some d := by
            rw [under, lookup?_register_new]
            exact Arena.get?_register_new r.arena d
          simp only [hunder]
          exact h
  | some id =>
      have hunder : r.under name = r.arena.get? id := by
        rw [under, hid]
        rfl
      have hfound : exists old, r.arena.get? id = some old := by
        apply Option.ne_none_iff_exists'.mp
        intro hnone
        rw [hfree (hunder.trans hnone)] at hid
        cases hid
      rcases hfound with ⟨old, hold⟩
      rw [hunder, hold, Definition.receive] at h
      simp only [hold]
      cases hd : old.merge c with
      | error failure =>
          rw [hd] at h
          exact .refused h.not_agree _
      | ok d =>
          rw [hd] at h
          have hunder' : (r.setDefinition id d).under name = some d := by
            rw [under, lookup?_setDefinition, hid]
            exact Arena.get?_set_self d hold
          simp only [hunder']
          exact h

/-!
# All fragments

By induction on the list, fragments are accepted if all their entries agree.
This no longer mentions an order, and so the order is immaterial.
-/

/-- Declare a mergeable name by fragments, one after another, as long as they are accepted. -/
def declareAll (name : String) (fragments : List (List (String × FieldType))) :
    RegistryM (List ShapeId) :=
  fragments.mapM (declare name .mergeable)

theorem run_declareAll_cons (name : String) (first : List (String × FieldType))
    (rest : List (List (String × FieldType))) (r : Registry) :
    (declareAll name (first :: rest)).run r =
      match (declare name .mergeable first).run r with
      | (.error failure, r1) => (.error failure, r1)
      | (.ok id, r1) =>
          match (declareAll name rest).run r1 with
          | (.error failure, r2) => (.error failure, r2)
          | (.ok ids, r2) => (.ok (id :: ids), r2) := by
  unfold declareAll
  rw [List.mapM_cons, run_bind]
  rcases (declare name .mergeable first).run r with ⟨answer, r1⟩
  cases answer with
  | error failure => rfl
  | ok id =>
      simp only [run_bind]
      rcases (rest.mapM (declare name .mergeable)).run r1 with ⟨answers, r2⟩
      cases answers <;> rfl

theorem declareAll_cons_merged {name own : String} {first : List (String × FieldType)}
    {rest : List (List (String × FieldType))} {entries all : List (String × FieldType)}
    {r : Registry} (hsubset : entries ⊆ all)
    (hfirst : Definition.Merged own entries ((declare name .mergeable first).run r).1.isOk
      (((declare name .mergeable first).run r).2.under name))
    (hrest : forall r1 d, r1.under name = some d -> d.MadeOf own entries -> Agree entries ->
      Definition.Merged own all ((declareAll name rest).run r1).1.isOk
        (((declareAll name rest).run r1).2.under name)) :
    Definition.Merged own all ((declareAll name (first :: rest)).run r).1.isOk
      (((declareAll name (first :: rest)).run r).2.under name) := by
  rw [run_declareAll_cons]
  generalize (declare name .mergeable first).run r = out at hfirst ⊢
  rcases out with ⟨answer, r1⟩
  cases answer with
  | error failure => exact .refused (fun hall => hfirst.not_agree (hall.of_subset hsubset)) _
  | ok id =>
      rcases hfirst.made rfl with ⟨d, hd, hmade⟩
      have hmerged := hrest r1 d hd hmade (hfirst.agree_iff.mp rfl)
      dsimp only
      generalize (declareAll name rest).run r1 = outs at hmerged ⊢
      rcases outs with ⟨answers, r2⟩
      cases answers with
      | error failure => exact .refused hmerged.not_agree _
      | ok ids => exact hmerged

theorem declareAll_merged {name own : String} {fragments : List (List (String × FieldType))}
    {entries : List (String × FieldType)} (hagree : Agree entries) {r : Registry}
    {d : Definition} (hd : r.under name = some d) (hmade : d.MadeOf own entries) :
    Definition.Merged own (entries ++ fragments.flatten)
      ((declareAll name fragments).run r).1.isOk
      (((declareAll name fragments).run r).2.under name) := by
  induction fragments generalizing entries r d with
  | nil =>
      rw [List.flatten_nil, List.append_nil]
      exact ⟨⟨fun _ => hagree, fun _ => rfl⟩, fun _ => ⟨d, hd, hmade⟩⟩
  | cons first rest ih =>
      rw [List.flatten_cons, ← List.append_assoc]
      apply declareAll_cons_merged (List.subset_append_left _ _)
      · apply contribute_merged
        · intro hnone
          rw [hd] at hnone
          cases hnone
        · rw [hd]
          exact hmade.receive hagree first
      · intro r1 d1 hd1 hmade1 hagree1
        exact ih hagree1 hd1 hmade1

theorem declareAll_merged_first {name : String} {r : Registry}
    (hfree : r.under name = none -> r.lookup? name = none)
    (hname : forall d, r.under name = some d -> d.kind = none)
    {fragments : List (List (String × FieldType))} (hsome : fragments ≠ []) :
    Definition.Merged (Definition.label name (r.under name)) fragments.flatten
      ((declareAll name fragments).run r).1.isOk
      (((declareAll name fragments).run r).2.under name) := by
  cases fragments with
  | nil => exact absurd rfl hsome
  | cons first rest =>
      rw [List.flatten_cons]
      apply declareAll_cons_merged (List.subset_append_left _ _)
      · exact contribute_merged hfree (Definition.receive_first hname first)
      · intro r1 d1 hd1 hmade1 hagree1
        exact declareAll_merged hagree1 hd1 hmade1

theorem resolve_madeOf {r : Registry} {id : ShapeId} {d : Definition} {name : String}
    {entries : List (String × FieldType)} (hd : r.arena.get? id = some d)
    (hmade : d.MadeOf name entries) :
    ((resolve id).run r).1 = .ok (.object (some name) (.firsts entries)) := by
  have hcached : r.arena.cached? id = none := by
    rw [cached?_of_get? hd]
    exact hmade.resolved
  -- Nothing is needed from elsewhere, so the walk enters the name and settles it.
  have hflatten : forall visit (w : Walk), (WalkM.flatten visit .mergeable d).run w =
      (.ok (.object (some name) (.firsts entries)), w) := by
    intro visit w
    rw [WalkM.flatten, hmade.parents, hmade.name, hmade.fields, List.mapM_nil]
    change (Except.ok (Shape.object (some name) (Table.inherit [] (.firsts entries))), w) = _
    rw [Table.inherit_nil]
  have henter : (Trail.start Limits.resolution).enter id =
      (.entered, ⟨Limits.resolution, [id], 1, 1⟩) := rfl
  have hset := Arena.get?_set_self d.marked hd
  rw [run_resolve]
  change (((WalkM.visit (255 + 1) .root id).run
    ⟨r, Trail.start Limits.resolution⟩).1).mapError _ = _
  rw [WalkM.visit, WalkM.run_visitBy]
  simp only [hcached, WalkM.run_inside, henter, WalkM.run_settle, WalkM.run_begin, hd,
    hmade.kind, hflatten, WalkM.run_finish, setDefinition, hset]
  rfl

theorem isOk_declareAll_of_unused {r : Registry} {name : String} {id : ShapeId}
    (hid : r.lookup? name = some id) (hunder : r.under name = none)
    {fragments : List (List (String × FieldType))} (hsome : fragments ≠ []) :
    ((declareAll name fragments).run r).1.isOk = false := by
  cases fragments with
  | nil => exact absurd rfl hsome
  | cons first rest =>
      have hget : r.arena.get? id = none := by
        rw [← hunder, under, hid]
        rfl
      rw [run_declareAll_cons, declare, run_contribute, hid]
      simp only [hget]
      rfl

theorem lookup?_of_isOk_declareAll {r : Registry} {name : String}
    {fragments : List (List (String × FieldType))} (hsome : fragments ≠ [])
    (hok : ((declareAll name fragments).run r).1.isOk = true) (hunder : r.under name = none) :
    r.lookup? name = none := by
  cases hid : r.lookup? name with
  | none => rfl
  | some id =>
      rw [isOk_declareAll_of_unused hid hunder hsome] at hok
      cases hok

theorem resolve_declareAll {r : Registry} {name : String}
    (hfree : r.under name = none -> r.lookup? name = none)
    (hname : forall d, r.under name = some d -> d.kind = none)
    {fragments : List (List (String × FieldType))} (hsome : fragments ≠ [])
    (hok : ((declareAll name fragments).run r).1.isOk = true) :
    exists id, ((declareAll name fragments).run r).2.lookup? name = some id ∧
      ((resolve id).run ((declareAll name fragments).run r).2).1 =
        .ok (.object (some (Definition.label name (r.under name)))
          (.firsts fragments.flatten)) := by
  rcases (declareAll_merged_first hfree hname hsome).made hok with ⟨d, hd, hmade⟩
  rcases Option.bind_eq_some_iff.mp hd with ⟨id, hid, hget⟩
  exact ⟨id, hid, resolve_madeOf hget hmade⟩

theorem isOk_declareAll_eq_of_perm {r : Registry} {name : String}
    (hname : forall d, r.under name = some d -> d.kind = none)
    {fragments others : List (List (String × FieldType))} (hperm : fragments.Perm others) :
    ((declareAll name fragments).run r).1.isOk = ((declareAll name others).run r).1.isOk := by
  by_cases hsome : fragments = []
  · subst hsome
    rw [List.nil_perm.mp hperm]
  · have hothers : others ≠ [] := fun hnil => hsome (List.perm_nil.mp (hnil ▸ hperm))
    by_cases hfree : r.under name = none -> r.lookup? name = none
    · rw [Bool.eq_iff_iff, (declareAll_merged_first hfree hname hsome).agree_iff,
        (declareAll_merged_first hfree hname hothers).agree_iff]
      exact ⟨fun h => h.of_subset hperm.flatten.symm.subset,
        fun h => h.of_subset hperm.flatten.subset⟩
    · rcases Classical.not_imp.mp hfree with ⟨hunder, hlookup⟩
      rcases Option.ne_none_iff_exists'.mp hlookup with ⟨id, hid⟩
      rw [isOk_declareAll_of_unused hid hunder hsome, isOk_declareAll_of_unused hid hunder hothers]

/--
The fragments of a name may come in any order.  All of them are accepted or not, the
shape is the same, its keys are those of the fragments, and they stand in the order in
which they were introduced.
-/
theorem order_of_fragments_is_immaterial {r : Registry} {name : String}
    (hname : forall d, r.under name = some d -> d.kind = none)
    {fragments others : List (List (String × FieldType))} (hperm : fragments.Perm others) :
    ((declareAll name fragments).run r).1.isOk = ((declareAll name others).run r).1.isOk ∧
      (((declareAll name fragments).run r).1.isOk = true -> fragments ≠ [] ->
        exists id id' s s',
          ((declareAll name fragments).run r).2.lookup? name = some id ∧
          ((declareAll name others).run r).2.lookup? name = some id' ∧
          ((resolve id).run ((declareAll name fragments).run r).2).1 = .ok s ∧
          ((resolve id').run ((declareAll name others).run r).2).1 = .ok s' ∧
          s.same s' = true ∧
          forall policy,
            (forall key, key ∈ s.keys policy <->
              exists fragment, fragment ∈ fragments ∧ key ∈ fragment.map Prod.fst) ∧
            s.keys policy = distinctBy (· == ·) (fragments.flatten.map Prod.fst) ∧
            s'.keys policy = distinctBy (· == ·) (others.flatten.map Prod.fst)) := by
  have hisOk := isOk_declareAll_eq_of_perm hname hperm
  refine ⟨hisOk, ?_⟩
  intro hok hsome
  have hothers : others ≠ [] := fun hnil => hsome (List.perm_nil.mp (hnil ▸ hperm))
  have hfree := lookup?_of_isOk_declareAll hsome hok
  rcases resolve_declareAll hfree hname hsome hok with ⟨id, hid, hs⟩
  rcases resolve_declareAll hfree hname hothers (hisOk ▸ hok) with ⟨id', hid', hs'⟩
  have hagree := (declareAll_merged_first hfree hname hsome).agree_iff.mp hok
  refine ⟨id, id', _, _, hid, hid', hs, hs', hagree.sameFields hperm.flatten, ?_⟩
  intro policy
  have hkeys := Table.keys_firsts fragments.flatten
  refine ⟨?_, hkeys, Table.keys_firsts others.flatten⟩
  intro key
  change key ∈ (Table.firsts fragments.flatten).keys <-> _
  rw [hkeys, mem_distinctBy_beq, List.map_flatten, List.mem_flatten]
  simp

def awaiting : Registry :=
  ((reserve "Node").run (empty .common)).2

def nodeFragments : List (List (String × FieldType)) :=
  [[("id", .keyword .number)],
    [("next", .union [.reference ⟨1⟩, .keyword .null]), ("id", .keyword .number)],
    [("next", .union [.keyword .null, .reference ⟨1⟩])]]

theorem order_of_fragments_is_immaterial_node :
    ((declareAll "Node" nodeFragments).run awaiting).1.isOk = true ∧
      exists id id' s s',
        ((resolve id).run ((declareAll "Node" nodeFragments).run awaiting).2).1 = .ok s ∧
        ((resolve id').run ((declareAll "Node" nodeFragments.reverse).run awaiting).2).1 = .ok s' ∧
        s.same s' = true ∧ s.keys .common = ["id", "next"] ∧ s'.keys .common = ["next", "id"] := by
  have hname : forall d, awaiting.under "Node" = some d -> d.kind = none := by
    intro d hd
    have hkind : (awaiting.under "Node").all fun d => decide (d.kind = none) := by decide +kernel
    rw [hd] at hkind
    exact of_decide_eq_true hkind
  have hok : ((declareAll "Node" nodeFragments).run awaiting).1.isOk = true := by decide +kernel
  rcases (order_of_fragments_is_immaterial hname
    (List.reverse_perm nodeFragments).symm).2 hok (by decide) with
    ⟨id, id', s, s', _, _, hs, hs', hsame, hkeys⟩
  rcases hkeys .common with ⟨_, hfirst, hsecond⟩
  exact ⟨hok, id, id', s, s', hs, hs', hsame, hfirst.trans (by decide), hsecond.trans (by decide)⟩

end Registry
end Shapes
