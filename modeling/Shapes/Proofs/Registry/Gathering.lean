import Shapes.Proofs.Registry.ByName
import Shapes.Proofs.Registry.Relabel

/-!
# Gathering contributions

What becomes of a name depends on the contributions to it, in the order they come in,
and on nothing else: `Definition.gathered` is the definition that they make together,
and `Definition.verdicts` says which of them are refused.  A reservation in between
makes no difference, and neither do other identifiers.
-/

namespace Shapes
namespace Definition

/-- What a contribution makes of what is registered under its name. -/
def receive (name : String) (found : Option Definition) (c : Contribution) :
    Except Failure Definition :=
  match found with
  | none => ofContribution name c
  | some d => d.merge c

/-- What is registered after a contribution.  A refused one changes nothing. -/
def received (name : String) (found : Option Definition) (c : Contribution) :
    Option Definition :=
  (receive name found c).toOption.or found

def gathered (name : String) (found : Option Definition) (cs : List Contribution) :
    Option Definition :=
  cs.foldl (received name) found

def verdicts (name : String) : Option Definition -> List Contribution -> List (Except Failure Unit)
  | _, [] => []
  | found, c :: rest =>
      (receive name found c).map (fun _ => ()) :: verdicts name (received name found c) rest

section Append

variable (name : String) (found : Option Definition) (cs others : List Contribution)

theorem gathered_append :
    gathered name found (cs ++ others) = gathered name (gathered name found cs) others :=
  List.foldl_append

theorem verdicts_append :
    verdicts name found (cs ++ others) =
      verdicts name found cs ++ verdicts name (gathered name found cs) others := by
  induction cs generalizing found with
  | nil => rfl
  | cons c rest ih =>
      rw [List.cons_append, verdicts, verdicts, ih, List.cons_append]
      rfl

end Append

/-!
# Reservations

To receive a contribution for a reserved name is to receive it for a new one.
-/

section Reserved

variable {name : String} {p : Option Definition} (hp : forall d, p = some d -> d = pending name)

include hp

theorem receive_or (found : Option Definition) (c : Contribution) :
    receive name (found.or p) c = receive name found c := by
  cases found with
  | some d => rfl
  | none =>
      cases p with
      | none => rfl
      | some d =>
          rw [hp d rfl]
          rfl

theorem received_or (found : Option Definition) (c : Contribution) :
    received name (found.or p) c = (received name found c).or p := by
  unfold received
  rw [receive_or hp, Option.or_assoc]

theorem gathered_or (found : Option Definition) (cs : List Contribution) :
    gathered name (found.or p) cs = (gathered name found cs).or p := by
  unfold gathered
  induction cs generalizing found with
  | nil => rfl
  | cons c rest ih => rw [List.foldl_cons, List.foldl_cons, received_or hp, ih]

theorem verdicts_or (found : Option Definition) (cs : List Contribution) :
    verdicts name (found.or p) cs = verdicts name found cs := by
  induction cs generalizing found with
  | nil => rfl
  | cons c rest ih => rw [verdicts, verdicts, receive_or hp, received_or hp, ih]

end Reserved

/-!
# What is registered

A contribution gets its verdict from what is under its name and changes nothing
else; gathering keeps no shape.
-/

theorem ofContribution_declares {name : String} {c : Contribution} {d : Definition}
    (h : ofContribution name c = .ok d) : d.name = name ∧ d.kind ≠ none := by
  rcases ofContribution_eq_ok_iff.mp h with ⟨_, rfl⟩
  exact ⟨rfl, Option.some_ne_none _⟩

theorem merge_declares {d d' : Definition} {c : Contribution} (h : d.merge c = .ok d') :
    d'.name = d.name ∧ d'.kind ≠ none := by
  rcases merge_eq_ok_iff.mp h with ⟨_, hd'⟩ | ⟨hkind, _, _, _, _, rfl⟩
  · exact ofContribution_declares hd'
  · refine ⟨rfl, ?_⟩
    rw [show (d.absorb c).kind = some .mergeable from hkind]
    exact Option.some_ne_none _

theorem gathered_resolved {name : String} {found : Option Definition} (cs : List Contribution)
    (h : forall d, found = some d -> d.resolved = none) {d : Definition}
    (hd : gathered name found cs = some d) : d.resolved = none := by
  induction cs generalizing found with
  | nil => exact h d hd
  | cons c rest ih =>
      refine ih ?_ hd
      intro e he
      rcases Option.or_eq_some_iff.mp he with hreceive | ⟨_, hfound⟩
      · cases found with
        | none =>
            rcases ofContribution_eq_ok_iff.mp (toOption_eq_some hreceive) with ⟨_, rfl⟩
            rfl
        | some old =>
            rcases Registry.merge_cases (toOption_eq_some hreceive) with ⟨_, he, _⟩ | ⟨_, rfl⟩
            · exact he
            · exact h old rfl
      · exact h e hfound

end Definition

namespace Registry

section Contribute

variable {r r' : Registry} {name : String} {c : Contribution} {answer : Except Failure ShapeId}

theorem contribute_cases (hr : r.Tidy) (hrun : (contribute name c).run r = (answer, r')) :
    (exists id d, answer = .ok id ∧ Definition.receive name (r.under name) c = .ok d ∧
        d.name = name ∧ Puts d r r' ∧ r'.lookup? name = some id) ∨
      exists failure, answer = .error failure ∧
        Definition.receive name (r.under name) c = .error failure ∧ r' = r := by
  rw [run_contribute] at hrun
  cases hid : r.lookup? name with
  | none =>
      have hunder : r.under name = none := (under_eq_none hr.coherent).mpr hid
      rw [hid] at hrun
      rw [hunder]
      cases hd : Definition.ofContribution name c with
      | error failure =>
          simp only [hd] at hrun
          cases hrun
          exact Or.inr ⟨failure, rfl, hd, rfl⟩
      | ok d =>
          simp only [hd] at hrun
          cases hrun
          rcases Definition.ofContribution_declares hd with ⟨rfl, hkind⟩
          have hputs := puts_register hr hid fun hnone => absurd hnone hkind
          exact Or.inl ⟨_, d, rfl, hd, rfl, hputs, lookup?_register_new r d⟩
  | some id =>
      rcases hr.coherent.definition hid with ⟨old, hold, rfl⟩
      have hunder : r.under old.name = some old := under_name hr.coherent hold
      rw [hid] at hrun
      simp only [hold] at hrun
      rw [hunder]
      cases hd : old.merge c with
      | error failure =>
          simp only [hd] at hrun
          cases hrun
          exact Or.inr ⟨failure, rfl, hd, rfl⟩
      | ok d =>
          simp only [hd] at hrun
          cases hrun
          rcases Definition.merge_declares hd with ⟨hname, hkind⟩
          have hputs := puts_setDefinition hr hold hname hkind
          exact Or.inl ⟨id, d, rfl, hd, hname, hputs, hputs.grows.lookup? hid⟩

theorem contribute_receives (hr : r.Tidy) (hrun : (contribute name c).run r = (answer, r')) :
    Grows r r' ∧
      answer.map (fun _ => ()) =
        (Definition.receive name (r.under name) c).map (fun _ => ()) ∧
      forall other, r'.under other =
        if other = name then Definition.received other (r.under other) c else r.under other := by
  rcases contribute_cases hr hrun with
    ⟨id, d, rfl, hreceive, rfl, hputs, _⟩ | ⟨failure, rfl, hreceive, rfl⟩
  · refine ⟨hputs.grows, by rw [hreceive]; rfl, ?_⟩
    intro other
    rw [hputs.under]
    split
    · rename_i hother
      subst hother
      rw [Definition.received, hreceive]
      rfl
    · rfl
  · refine ⟨.refl hr, by rw [hreceive]; rfl, ?_⟩
    intro other
    split
    · rename_i hother
      subst hother
      rw [Definition.received, hreceive]
      rfl
    · rfl

end Contribute

end Registry

/-!
# Other identifiers

Contributions only compare types, and a comparison is the same under other
identifiers.
-/

namespace Contribution

/-- A contribution with other identifiers in its types. -/
def relabel (f : ShapeId -> ShapeId) (c : Contribution) : Contribution :=
  { c with
    fields := c.fields.map (FieldType.relabel f)
    body := c.body.map (FieldType.relabel f) }

@[simp] theorem relabel_conflict (f : ShapeId -> ShapeId) (c : Contribution) :
    (c.relabel f).conflict = c.conflict := rfl

variable {f : ShapeId -> ShapeId} (hf : Function.Injective f)

theorem relabel_ofBody (body : FieldType) :
    (ofBody body).relabel f = ofBody (body.relabel f) := rfl

include hf

theorem gatherField_relabel (found : Table FieldType × Option String)
    (entry : String × FieldType) :
    gatherField (found.1.map (FieldType.relabel f), found.2) (entry.1, entry.2.relabel f) =
      ((gatherField found entry).1.map (FieldType.relabel f), (gatherField found entry).2) := by
  unfold gatherField
  rw [Table.get?_map]
  cases found.1.get? entry.1 with
  | none => simp [Table.map_insert]
  | some present =>
      simp only [Option.map_some, FieldType.same_relabel hf]
      split <;> rfl

theorem relabel_ofFields (kind : NameKind) (parents : List String)
    (entries : List (String × FieldType)) :
    (ofFields kind parents entries).relabel f =
      ofFields kind parents (entries.map fun e => (e.1, e.2.relabel f)) := by
  have hgather : forall found : Table FieldType × Option String,
      (entries.map fun e => (e.1, e.2.relabel f)).foldl gatherField
          (found.1.map (FieldType.relabel f), found.2) =
        ((entries.foldl gatherField found).1.map (FieldType.relabel f),
          (entries.foldl gatherField found).2) := by
    induction entries with
    | nil =>
        intro found
        rfl
    | cons e rest ih =>
        intro found
        rw [List.map_cons, List.foldl_cons, List.foldl_cons, gatherField_relabel hf, ih]
  have hstart := hgather (.empty, none)
  rw [Table.map_empty] at hstart
  simp only [ofFields, gatherFields, hstart]
  rfl

end Contribution

namespace Definition

variable {f : ShapeId -> ShapeId} (hf : Function.Injective f)

theorem ofContribution_relabel (name : String) (c : Contribution) :
    ofContribution name (c.relabel f) = (ofContribution name c).map (relabel f) := by
  unfold ofContribution Contribution.relabel
  cases c.conflict <;> rfl

theorem relabel_absorb (d : Definition) (c : Contribution) :
    (d.absorb c).relabel f = (d.relabel f).absorb (c.relabel f) := by
  have hfields := Table.map_foldl (FieldType.relabel f)
    (fun t e => t.insertIfNew e.1 e.2)
    (fun t e => Table.map_insertIfNew (FieldType.relabel f) t e.1 e.2) c.fields.entries d.fields
  simp only [absorb, relabel, Contribution.relabel, Table.entries_map]
  rw [hfields]

include hf

theorem clash?_relabel (d : Definition) (c : Contribution) :
    (d.relabel f).clash? (c.relabel f) = d.clash? c := by
  unfold clash? relabel Contribution.relabel
  simp only [Table.entries_map, Table.get?_map, List.find?_map, Option.map_map, Option.any_map]
  simp only [Function.comp_def, FieldType.same_relabel hf]

theorem merge_relabel (d : Definition) (c : Contribution) :
    (d.relabel f).merge (c.relabel f) = (d.merge c).map (relabel f) := by
  unfold merge
  rw [clash?_relabel hf, ← relabel_absorb, ofContribution_relabel]
  by_cases hpending : d.isPending = true
  · rw [if_pos hpending]
    exact if_pos hpending
  · rw [if_neg hpending]
    apply (if_neg hpending).trans
    by_cases hsingle : d.kind = some .single ∨ c.kind = .single
    · rw [if_pos hsingle]
      exact if_pos hsingle
    · rw [if_neg hsingle]
      apply (if_neg hsingle).trans
      by_cases hopen : (!d.stage.isOpen) = true
      · rw [if_pos hopen]
        exact if_pos hopen
      · rw [if_neg hopen]
        apply (if_neg hopen).trans
        rw [Contribution.relabel_conflict, relabel_name]
        cases c.conflict.or (d.clash? c) <;> rfl

theorem receive_relabel (name : String) (found : Option Definition) (c : Contribution) :
    receive name (found.map (relabel f)) (c.relabel f) =
      (receive name found c).map (relabel f) := by
  cases found with
  | none => exact ofContribution_relabel name c
  | some d => exact merge_relabel hf d c

theorem received_relabel (name : String) (found : Option Definition) (c : Contribution) :
    received name (found.map (relabel f)) (c.relabel f) =
      (received name found c).map (relabel f) := by
  unfold received
  rw [receive_relabel hf]
  cases receive name found c <;> rfl

theorem gathered_relabel (name : String) (found : Option Definition) (cs : List Contribution) :
    gathered name (found.map (relabel f)) (cs.map (Contribution.relabel f)) =
      (gathered name found cs).map (relabel f) := by
  unfold gathered
  induction cs generalizing found with
  | nil => rfl
  | cons c rest ih =>
      rw [List.map_cons, List.foldl_cons, List.foldl_cons, received_relabel hf, ih]

theorem verdicts_relabel (name : String) (found : Option Definition) (cs : List Contribution) :
    verdicts name (found.map (relabel f)) (cs.map (Contribution.relabel f)) =
      verdicts name found cs := by
  induction cs generalizing found with
  | nil => rfl
  | cons c rest ih =>
      rw [List.map_cons, verdicts, verdicts, receive_relabel hf, received_relabel hf, ih]
      cases receive name found c <;> rfl

end Definition
end Shapes
