import Shapes.Proofs.Registry.ByName

/-!
# The life of a definition

Between two uses of a registry every definition is at rest: its stage tells what
is declared of it and whether its shape is kept, and no resolution is under way.
From one use to the next a definition goes one way only.  It is declared, it is
resolved and it is frozen, in that order, and what was settled at an earlier stage
stays.

Both are shown for the four kinds of change and passed on to every use.
-/

namespace Shapes

/-!
# Definitions

Stages are ordered by how far a definition has come, and no definition goes back
to an earlier one.
-/

/-- The order of stages. -/
def Stage.rank : Stage -> Nat
  | pending => 0
  | unresolved => 1
  | resolving => 2
  | resolved => 3
  | frozen => 4

namespace Definition

/-- What holds of a definition while no resolution is under way. -/
structure AtRest (d : Definition) : Prop where
  pending : d.kind = none <-> d.stage = .pending
  blank : d.kind = none -> d = .pending d.name
  kept : d.resolved.isSome = true <-> d.stage = .resolved ∨ d.stage = .frozen
  idle : d.stage ≠ .resolving
  parents : d.parents.Nodup
  body : d.body.isSome = true -> d.kind = some .single

/-- What may become of a definition: it is never taken back. -/
structure MovesOn (d d' : Definition) : Prop where
  name : d'.name = d.name
  stage : d.stage.rank ≤ d'.stage.rank
  kind : forall kind, d.kind = some kind -> d'.kind = some kind
  resolved : forall s, d.resolved = some s -> d'.resolved = some s
  fields : d.fields.entries <+: d'.fields.entries
  closed : d.stage = .resolved ∨ d.stage = .frozen ->
    d'.fields = d.fields ∧ d'.parents = d.parents ∧ d'.body = d.body

namespace MovesOn

variable {d d' d'' : Definition}

theorem refl (d : Definition) : d.MovesOn d :=
  ⟨rfl, Nat.le_refl _, fun _ h => h, fun _ h => h, List.prefix_rfl, fun _ => ⟨rfl, rfl, rfl⟩⟩

theorem isClosed (h : d.MovesOn d') (hd' : d'.stage ≠ .resolving)
    (hd : d.stage = .resolved ∨ d.stage = .frozen) :
    d'.stage = .resolved ∨ d'.stage = .frozen := by
  have hrank := h.stage
  cases hstage : d'.stage with
  | resolved => exact Or.inl rfl
  | frozen => exact Or.inr rfl
  | resolving => exact absurd hstage hd'
  | pending | unresolved => rcases hd with hd | hd <;> simp [hd, hstage, Stage.rank] at hrank

theorem trans (h : d.MovesOn d') (hd' : d'.AtRest) (h' : d'.MovesOn d'') : d.MovesOn d'' := by
  refine ⟨h'.name.trans h.name, Nat.le_trans h.stage h'.stage, fun k hk => h'.kind k (h.kind k hk),
    fun s hs => h'.resolved s (h.resolved s hs), h.fields.trans h'.fields, ?_⟩
  intro hclosed
  rcases h.closed hclosed with ⟨hfields, hparents, hbody⟩
  rcases h'.closed (h.isClosed hd'.idle hclosed) with ⟨hfields', hparents', hbody'⟩
  exact ⟨hfields'.trans hfields, hparents'.trans hparents, hbody'.trans hbody⟩

end MovesOn

/-!
# Declaring

The first contribution makes a definition declared, and later ones add to a
definition that is still open.
-/

theorem atRest_pending (name : String) : (Definition.pending name).AtRest := by
  refine ⟨?_, fun _ => rfl, ?_, ?_, List.nodup_nil, ?_⟩ <;> simp [Definition.pending]

theorem atRest_ofContribution {name : String} {c : Contribution} {d : Definition}
    (hc : c.Proper) (h : ofContribution name c = .ok d) : d.AtRest := by
  rcases ofContribution_eq_ok_iff.mp h with ⟨_, rfl⟩
  refine ⟨?_, ?_, ?_, ?_, hc.parents, ?_⟩
  · simp [declared]
  · simp [declared]
  · simp [declared]
  · simp [declared]
  · intro hbody
    exact congrArg some (hc.body hbody)

theorem New.atRest {d : Definition} (h : d.New) : d.AtRest := by
  rcases h with hpending | ⟨c, hc, hd⟩
  · rw [hpending]
    exact atRest_pending d.name
  · exact atRest_ofContribution hc hd

theorem AtRest.declare {d d' : Definition} (h : d.AtRest) {c : Contribution}
    (hkind : d.kind = none) (hd' : ofContribution d.name c = .ok d') : d.MovesOn d' := by
  rcases ofContribution_eq_ok_iff.mp hd' with ⟨_, rfl⟩
  have hblank := h.blank hkind
  generalize d.name = name at hblank ⊢
  subst hblank
  refine ⟨rfl, Nat.zero_le _, ?_, ?_, List.nil_prefix, ?_⟩
  · intro kind hnone
    cases hnone
  · intro s hnone
    cases hnone
  · intro hclosed
    rcases hclosed with hclosed | hclosed <;> cases hclosed

theorem AtRest.absorb {d : Definition} (h : d.AtRest) {c : Contribution} (hc : c.Proper)
    (hkind : d.kind = some .mergeable) (hopen : d.stage.isOpen = true) :
    (d.absorb c).AtRest ∧ d.MovesOn (d.absorb c) := by
  have hclosed : ¬ (d.stage = .resolved ∨ d.stage = .frozen) := by
    intro hclosed
    rcases hclosed with hclosed | hclosed <;> simp [hclosed, Stage.isOpen] at hopen
  constructor
  · refine ⟨h.pending, ?_, h.kept, h.idle, ?_, h.body⟩
    · intro hnone
      rw [show (d.absorb c).kind = some .mergeable from hkind] at hnone
      cases hnone
    · -- Only parents that are not there yet are added.
      apply h.parents.append (hc.parents.filter _)
      intro p hp hnew
      simpa [hp] using (List.mem_filter.mp hnew).2
  · refine ⟨rfl, Nat.le_refl _, fun _ hk => hk, fun _ hs => hs, ?_, ?_⟩
    · exact Table.prefix_foldl_insertIfNew d.fields c.fields.entries
    · intro hstage
      exact absurd hstage hclosed

/-!
# Resolving and freezing

A definition becomes resolved when its shape is kept, and frozen only after
that.
-/

theorem AtRest.freeze {d : Definition} (h : d.AtRest) {s : Shape} (hs : d.resolved = some s) :
    ({ d with stage := .frozen } : Definition).AtRest ∧
      d.MovesOn { d with stage := .frozen } := by
  have hclosed : d.stage = .resolved ∨ d.stage = .frozen := h.kept.mp (by simp [hs])
  have hkind : d.kind ≠ none := by
    intro hnone
    rw [h.pending.mp hnone] at hclosed
    rcases hclosed with hclosed | hclosed <;> cases hclosed
  constructor
  · refine ⟨?_, fun hnone => absurd hnone hkind, ?_, ?_, h.parents, h.body⟩
    · simp [hkind]
    · simp [hs]
    · simp
  · refine ⟨rfl, ?_, fun _ hk => hk, fun _ hs => hs, List.prefix_rfl, fun _ => ⟨rfl, rfl, rfl⟩⟩
    rcases hclosed with hclosed | hclosed <;> simp [hclosed, Stage.rank]

theorem AtRest.walked {d d' : Definition} (h : d.AtRest) (hwalked : d.Walked d')
    (hkind : forall s, d'.resolved = some s -> d.kind ≠ none) : d'.AtRest ∧ d.MovesOn d' := by
  cases hwalked with
  | same => exact ⟨h, .refl d⟩
  | released _ hstage => exact absurd hstage h.idle
  | kept s hnone =>
      have hdeclared := hkind s rfl
      have hopen : ¬ (d.stage = .resolved ∨ d.stage = .frozen) := by
        intro hclosed
        have hsome := h.kept.mpr hclosed
        rw [hnone] at hsome
        cases hsome
      constructor
      · refine ⟨?_, fun hpending => absurd hpending hdeclared, ?_, ?_, h.parents, h.body⟩
        · simp [hdeclared]
        · simp
        · simp
      · refine ⟨rfl, ?_, fun _ hk => hk, ?_, List.prefix_rfl, fun _ => ⟨rfl, rfl, rfl⟩⟩
        · cases hstage : d.stage <;> simp [hstage, Stage.rank] at hopen ⊢
        · intro t ht
          rw [hnone] at ht
          cases ht

end Definition

namespace Registry

/-!
# Changes

What holds of single definitions holds of registries whose definitions stay at
their identifiers.
-/

/-- Every definition is at rest. -/
def AtRest (r : Registry) : Prop :=
  forall id d, r.arena.get? id = some d -> d.AtRest

/-- Every definition stays where it is and moves on. -/
def MovesOn (r r' : Registry) : Prop :=
  forall id d, r.arena.get? id = some d ->
    exists d', r'.arena.get? id = some d' ∧ d.MovesOn d'

section Changes

variable {r r' : Registry}

theorem MovesOn.refl (r : Registry) : r.MovesOn r := by
  intro id d hd
  exact ⟨d, hd, .refl d⟩

theorem MovesOn.trans {r'' : Registry} (h : r.MovesOn r') (hr' : r'.AtRest)
    (h' : r'.MovesOn r'') : r.MovesOn r'' := by
  intro id d hd
  rcases h id d hd with ⟨d', hd', hmoves⟩
  rcases h' id d' hd' with ⟨d'', hd'', hmoves'⟩
  exact ⟨d'', hd'', hmoves.trans (hr' id d' hd') hmoves'⟩

theorem AtRest.register (hr : r.AtRest) (hnumbered : r.arena.Numbered) {d : Definition}
    (hd : d.New) : (r.register d).2.AtRest ∧ r.MovesOn (r.register d).2 := by
  constructor
  · intro id found hfound
    rcases Arena.get?_register_cases hfound with hold | ⟨_, rfl⟩
    · exact hr id found hold
    · exact hd.atRest
  · intro id old hold
    exact ⟨old, hnumbered.get?_register_of_some d hold, .refl old⟩

theorem AtRest.setDefinition (hr : r.AtRest) {id : ShapeId} {d d' : Definition}
    (hget : r.arena.get? id = some d) (hd' : d'.AtRest ∧ d.MovesOn d') :
    (r.setDefinition id d').AtRest ∧ r.MovesOn (r.setDefinition id d') := by
  have hself : (r.setDefinition id d').arena.get? id = some d' := Arena.get?_set_self d' hget
  have hother : forall other, other ≠ id ->
      (r.setDefinition id d').arena.get? other = r.arena.get? other :=
    fun _ hne => Arena.get?_set_of_ne d' hne
  constructor
  · intro other found hfound
    by_cases hne : other = id
    · subst hne
      rw [hself] at hfound
      cases hfound
      exact hd'.1
    · rw [hother other hne] at hfound
      exact hr other found hfound
  · intro other old hold
    by_cases hne : other = id
    · subst hne
      rw [hget] at hold
      cases hold
      exact ⟨d', hself, hd'.2⟩
    · exact ⟨old, (hother other hne).trans hold, .refl old⟩

theorem AtRest.walk (hr : r.AtRest) (hr' : r'.Faithful) {fixed : List ShapeId}
    (hwalk : Walked fixed r r') : r'.AtRest ∧ r.MovesOn r' := by
  have hdefinition : forall {id d}, r.arena.get? id = some d ->
      exists d', r'.arena.get? id = some d' ∧ d'.AtRest ∧ d.MovesOn d' := by
    intro id d hd
    rcases hwalk.of_get?_eq_some hd with ⟨d', hd', hwalked⟩
    refine ⟨d', hd', (hr id d hd).walked hwalked ?_⟩
    intro s hs
    rw [← hwalked.sameDeclaration.kind]
    exact hr'.kind_ne_none hd' hs
  constructor
  · intro id d' hd'
    rcases hwalk.sameDeclarations.symm.of_get?_eq_some hd' with ⟨d, hd, _⟩
    rcases hdefinition hd with ⟨found, hfound, hrest, _⟩
    rw [hd'] at hfound
    cases hfound
    exact hrest
  · intro id d hd
    rcases hdefinition hd with ⟨d', hd', _, hmoves⟩
    exact ⟨d', hd', hmoves⟩

theorem AtRest.change (hfaithful : r.Faithful) (hr : r.AtRest) (hchange : Change r r') :
    r'.AtRest ∧ r.MovesOn r' := by
  cases hchange with
  | walk hwalk => exact hr.walk (hwalk.faithful hfaithful) hwalk
  | register _ hnew => exact hr.register hfaithful.numbered hnew
  | merge hget hc hmerge =>
      apply hr.setDefinition hget
      rcases Definition.merge_eq_ok_iff.mp hmerge with ⟨hkind, hd'⟩ | ⟨hkind, _, hopen, _, _, rfl⟩
      · exact ⟨Definition.atRest_ofContribution hc hd', (hr _ _ hget).declare hkind hd'⟩
      · exact (hr _ _ hget).absorb hc hkind hopen
  | freeze hget hs => exact hr.setDefinition hget ((hr _ _ hget).freeze hs)

theorem AtRest.changes (hfaithful : r.Faithful) (hr : r.AtRest)
    (hchanges : Relation.ReflTransGen Change r r') :
    r'.Faithful ∧ r'.AtRest ∧ r.MovesOn r' := by
  induction hchanges with
  | refl => exact ⟨hfaithful, hr, .refl r⟩
  | tail _ hlast ih =>
      rcases ih with ⟨hfaithful1, hr1, hmoves⟩
      rcases hr1.change hfaithful1 hlast with ⟨hr2, hlastMoves⟩
      exact ⟨hfaithful1.change hlast, hr2, hmoves.trans hr1 hlastMoves⟩

end Changes

theorem Reachable.atRest {r : Registry} (hr : r.Reachable) : r.AtRest := by
  have hinvariant : r.Faithful ∧ r.AtRest := by
    refine @Reachable.invariant r (fun r => r.Faithful ∧ r.AtRest) ?_ ?_ hr
    · intro policy
      refine ⟨faithful_empty policy, ?_⟩
      intro id d hd
      rw [get?_empty] at hd
      cases hd
    · intro r r' h hchange
      exact ⟨h.1.change hchange, (h.2.change h.1 hchange).1⟩
  exact hinvariant.2

/-!
# Uses of a registry

The invariant of arena, table and counter is put together from their own laws,
and every use keeps it.
-/

/--
A registry in order.  The identifiers in the arena run from one on without a gap, none of
them is there twice, and the next one follows them.  The table has as many names, each
leads to the definition of that name, and every definition is found under its name.
Every definition is at rest.
-/
structure Orderly (r : Registry) : Prop where
  identifiers : forall id,
    (exists d, r.arena.get? id = some d) <-> 1 ≤ id.index ∧ id.index ≤ r.size
  once : r.arena.ids.Nodup
  next : r.arena.next = ⟨r.size + 1⟩
  counted : r.names.size = r.size
  names : forall name id,
    r.lookup? name = some id <-> exists d, r.arena.get? id = some d ∧ d.name = name
  definitions : forall id d, r.arena.get? id = some d -> d.AtRest

theorem Reachable.orderly {r : Registry} (hr : r.Reachable) : r.Orderly := by
  have h := hr.coherent
  refine ⟨fun id => h.numbered.exists_get?_iff, h.numbered.nodup, h.numbered.next, h.counted, ?_,
    hr.atRest⟩
  intro name id
  constructor
  · exact h.definition
  · intro hfound
    rcases hfound with ⟨d, hd, rfl⟩
    exact h.name hd

/--
However a registry was used before, it is in order, and whatever it is used for
next leaves every definition where it is and takes none of them back.
-/
theorem definitions_live_one_way {r : Registry} (hr : r.Reachable) :
    r.Orderly ∧
      forall r', Step r r' -> forall id d, r.arena.get? id = some d ->
        exists d', r'.arena.get? id = some d' ∧ d.MovesOn d' := by
  refine ⟨hr.orderly, ?_⟩
  intro r' hstep
  exact (hr.atRest.changes hr.faithful hstep.changes).2.2

theorem definitions_live_one_way_points :
    points.Orderly ∧ exists d d', points.arena.get? ⟨3⟩ = some d ∧ d.stage = .resolved ∧
      ((freeze ⟨3⟩).run points).2.arena.get? ⟨3⟩ = some d' ∧ d'.stage = .frozen ∧
      d.MovesOn d' := by
  rcases definitions_live_one_way points_reachable with ⟨horderly, hmoves⟩
  have hbefore : points.arena.stage? ⟨3⟩ = some .resolved := by decide +kernel
  have hafter : ((freeze ⟨3⟩).run points).2.arena.stage? ⟨3⟩ = some .frozen := by decide +kernel
  rcases Option.map_eq_some_iff.mp hbefore with ⟨d, hd, hstage⟩
  rcases hmoves _ (.freeze ⟨3⟩) ⟨3⟩ d hd with ⟨d', hd', hmove⟩
  rw [Arena.stage?, hd'] at hafter
  exact ⟨horderly, d, d', hd, hstage, hd', Option.some.inj hafter, hmove⟩

end Registry
end Shapes
