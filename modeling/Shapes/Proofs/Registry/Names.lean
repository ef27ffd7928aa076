import Shapes.Proofs.Registry.History

/-!
# Names of shapes

The table of names, the arena and the next identifier are kept apart, and they agree: a
name leads to the definition of that name and to no other, and there are as many names
as definitions.  So the name in a message tells which shape it is about.

Nothing but the registration of a new name changes the table, and no operation gives a
definition another name.
-/

namespace Shapes
namespace Registry

/-- Names and identifiers belong to each other one to one. -/
structure Coherent (r : Registry) : Prop where
  numbered : r.arena.Numbered
  counted : r.names.size = r.size
  definition : forall {name id}, r.lookup? name = some id ->
    exists d, r.arena.get? id = some d ∧ d.name = name
  name : forall {id d}, r.arena.get? id = some d -> r.lookup? d.name = some id

namespace Coherent

variable {r r' : Registry}

theorem empty (policy : KeyPolicy) : (Registry.empty policy).Coherent := by
  refine ⟨Arena.numbered_empty, rfl, ?_, ?_⟩
  · intro name id hid
    cases hid
  · intro id d hd
    cases hd

theorem of_sameDeclarations (h : r.Coherent) (hsame : r.SameDeclarations r') : r'.Coherent := by
  refine ⟨numbered_of_index hsame.index h.numbered, ?_, ?_, ?_⟩
  · rw [show r'.names = r.names from congrArg Index.names hsame.index, hsame.size_eq, h.counted]
  · intro name id hid
    rw [hsame.lookup?_eq] at hid
    rcases h.definition hid with ⟨d, hd, hname⟩
    rcases hsame.of_get?_eq_some hd with ⟨d', hd', hd'd⟩
    exact ⟨d', hd', hd'd.name.trans hname⟩
  · intro id d' hd'
    rcases hsame.symm.of_get?_eq_some hd' with ⟨d, hd, hd'd⟩
    rw [hsame.lookup?_eq, ← hd'd.name]
    exact h.name hd

theorem register (h : r.Coherent) {d : Definition} (hnew : r.lookup? d.name = none) :
    (r.register d).2.Coherent := by
  have hlast : (r.register d).2.arena.get? (r.register d).1 = some d :=
    Arena.get?_register_new r.arena d
  refine ⟨h.numbered.register d, ?_, ?_, ?_⟩
  · exact (Table.size_insert hnew _).trans (congrArg (· + 1) h.counted)
  · intro name id hid
    rw [lookup?_register] at hid
    split at hid
    · rename_i hname
      cases hid
      exact ⟨d, hlast, hname.symm⟩
    · rcases h.definition hid with ⟨old, hold, hname⟩
      exact ⟨old, h.numbered.get?_register_of_some d hold, hname⟩
  · intro id found hfound
    rcases Arena.get?_register_cases hfound with hold | ⟨rfl, rfl⟩
    · exact lookup?_register_of_some hnew (h.name hold)
    · exact lookup?_register_new r found

theorem replace (h : r.Coherent) {id : ShapeId} {d d' : Definition}
    (hget : r.arena.get? id = some d) (hname : d'.name = d.name) :
    (r.setDefinition id d').Coherent := by
  have hself : (r.setDefinition id d').arena.get? id = some d' := Arena.get?_set_self d' hget
  have hother : forall other, other ≠ id ->
      (r.setDefinition id d').arena.get? other = r.arena.get? other :=
    fun _ hne => Arena.get?_set_of_ne d' hne
  refine ⟨h.numbered.set id d', h.counted.trans (Arena.size_set _ _ _).symm, ?_, ?_⟩
  · intro name other hlookup
    rcases h.definition hlookup with ⟨found, hfound, hfoundname⟩
    by_cases hne : other = id
    · subst hne
      rw [hget] at hfound
      cases hfound
      exact ⟨d', hself, hname.trans hfoundname⟩
    · exact ⟨found, (hother other hne).trans hfound, hfoundname⟩
  · intro other found hfound
    rw [lookup?_setDefinition]
    by_cases hne : other = id
    · subst hne
      rw [hself] at hfound
      cases hfound
      rw [hname]
      exact h.name hget
    · rw [hother other hne] at hfound
      exact h.name hfound

theorem change (h : r.Coherent) (hchange : Change r r') : r'.Coherent := by
  cases hchange with
  | walk hwalk => exact h.of_sameDeclarations hwalk.sameDeclarations
  | register hnew _ => exact h.register hnew
  | merge hget _ hmerge =>
      rcases merge_cases hmerge with ⟨_, _, hname⟩ | ⟨_, rfl⟩
      · exact h.replace hget hname
      · exact h.replace hget rfl
  | freeze hget _ => exact h.replace hget rfl

end Coherent

theorem Reachable.coherent {r : Registry} (hr : r.Reachable) : r.Coherent :=
  hr.invariant .empty Coherent.change

end Registry
end Shapes
