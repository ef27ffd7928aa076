import Shapes.Proofs.Registry.Names

/-!
# Registries by name

While declarations come in, a registry is best read as a function from names to
definitions, `Registry.under`.  It is changed in one way only: a definition is put
under its name, be the name new or not.  Identifiers of names do not change.
-/

namespace Shapes

namespace Registry

/-- The definition that is registered under a name. -/
def under (r : Registry) (name : String) : Option Definition :=
  (r.lookup? name).bind r.arena.get?

/-- Names and identifiers agree, and a name that is not declared has nothing to it. -/
structure Tidy (r : Registry) : Prop where
  coherent : r.Coherent
  blank : forall {id d}, r.arena.get? id = some d -> d.kind = none -> d = .pending d.name

section Under

variable {r : Registry}

theorem under_eq_some (hr : r.Coherent) {name : String} {d : Definition}
    (h : r.under name = some d) :
    d.name = name ∧ exists id, r.lookup? name = some id ∧ r.arena.get? id = some d := by
  rcases Option.bind_eq_some_iff.mp h with ⟨id, hid, hd⟩
  rcases hr.definition hid with ⟨found, hfound, hname⟩
  rw [hd] at hfound
  cases hfound
  exact ⟨hname, id, hid, hd⟩

theorem under_eq_none (hr : r.Coherent) {name : String} :
    r.under name = none <-> r.lookup? name = none := by
  constructor
  · intro h
    cases hid : r.lookup? name with
    | none => rfl
    | some id =>
        rcases hr.definition hid with ⟨d, hd, _⟩
        simp [under, hid, hd] at h
  · intro h
    simp [under, h]

theorem under_name (h : r.Coherent) {id : ShapeId} {d : Definition}
    (hd : r.arena.get? id = some d) : r.under d.name = some d := by
  simp [under, h.name hd, hd]

theorem get?_empty (policy : KeyPolicy) (id : ShapeId) :
    (empty policy).arena.get? id = none := rfl

theorem under_empty (policy : KeyPolicy) (name : String) :
    (empty policy).under name = none := rfl

theorem Tidy.empty (policy : KeyPolicy) : (Registry.empty policy).Tidy := by
  refine ⟨.empty policy, ?_⟩
  intro id d hd
  cases hd

end Under

/-!
# Growing

Policies, names and identifiers stay, and definitions come in under their names
one at a time.
-/

/-- What happens to a registry while declarations come in. -/
structure Grows (r r' : Registry) : Prop where
  policy : r'.policy = r.policy
  lookup? : forall {name id}, r.lookup? name = some id -> r'.lookup? name = some id
  tidy : r'.Tidy

theorem Grows.refl {r : Registry} (h : r.Tidy) : Grows r r :=
  ⟨rfl, fun hid => hid, h⟩

theorem Grows.trans {r r' r'' : Registry} (h : Grows r r') (h' : Grows r' r'') : Grows r r'' :=
  ⟨h'.policy.trans h.policy, fun hid => h'.lookup? (h.lookup? hid), h'.tidy⟩

/-- A definition is put under its name. -/
structure Puts (d : Definition) (r r' : Registry) : Prop where
  grows : Grows r r'
  under : forall name, r'.under name = if name = d.name then some d else r.under name

section Puts

variable {r : Registry} {d : Definition}

theorem puts_register (hr : r.Tidy) (hnew : r.lookup? d.name = none)
    (hblank : d.kind = none -> d = .pending d.name) : Puts d r (r.register d).2 := by
  have hcoherent := hr.coherent.register hnew
  have hlast : (r.register d).2.arena.get? (r.register d).1 = some d :=
    Arena.get?_register_new r.arena d
  constructor
  · refine ⟨rfl, fun hid => lookup?_register_of_some hnew hid, hcoherent, ?_⟩
    intro id found hfound hkind
    rcases Arena.get?_register_cases hfound with hold | ⟨_, rfl⟩
    · exact hr.blank hold hkind
    · exact hblank hkind
  · intro name
    split
    · rename_i hname
      subst hname
      exact under_name hcoherent hlast
    · rename_i hname
      cases hunder : r.under name with
      | some found =>
          rcases under_eq_some hr.coherent hunder with ⟨rfl, id, _, hget⟩
          exact under_name hcoherent (hr.coherent.numbered.get?_register_of_some d hget)
      | none =>
          -- What is found under another name was there before.
          cases hunder' : (r.register d).2.under name with
          | none => rfl
          | some found =>
              rcases under_eq_some hcoherent hunder' with ⟨rfl, id, _, hget⟩
              rcases Arena.get?_register_cases hget with hold | ⟨_, rfl⟩
              · rw [under_name hr.coherent hold] at hunder
                cases hunder
              · exact absurd rfl hname

theorem puts_setDefinition (hr : r.Tidy) {id : ShapeId} {old : Definition}
    (hold : r.arena.get? id = some old) (hname : d.name = old.name)
    (hkind : d.kind ≠ none) : Puts d r (r.setDefinition id d) := by
  have hcoherent := hr.coherent.replace hold hname
  have hself : (r.setDefinition id d).arena.get? id = some d := Arena.get?_set_self d hold
  constructor
  · refine ⟨rfl, fun hid => hid, hcoherent, ?_⟩
    intro other found hfound hnone
    by_cases hother : other = id
    · subst hother
      rw [hself] at hfound
      cases hfound
      exact absurd hnone hkind
    · rw [setDefinition, Arena.get?_set_of_ne d hother] at hfound
      exact hr.blank hfound hnone
  · intro name
    split
    · rename_i heq
      subst heq
      exact under_name hcoherent hself
    · rename_i hne
      unfold under
      rw [lookup?_setDefinition]
      cases hid : r.lookup? name with
      | none => rfl
      | some other =>
          have hother : other ≠ id := by
            rintro rfl
            rcases hr.coherent.definition hid with ⟨found, hfound, hfoundname⟩
            rw [hold] at hfound
            cases hfound
            exact hne (hfoundname.symm.trans hname.symm)
          exact Arena.get?_set_of_ne d hother

end Puts

/-!
# Reserving

A name that is reserved is registered as pending where it is new and left alone
otherwise.
-/

/-- What one of the reserved names has when nothing is declared under it. -/
def reserved (names : List String) (name : String) : Option Definition :=
  if name ∈ names then some (.pending name) else none

theorem reserved_append (names others : List String) (name : String) :
    reserved (names ++ others) name = (reserved names name).or (reserved others name) := by
  by_cases hname : name ∈ names <;> simp [reserved, hname]

theorem reserved_eq_pending {names : List String} {name : String} {d : Definition}
    (h : reserved names name = some d) : d = .pending name := by
  unfold reserved at h
  split at h
  · cases h
    rfl
  · cases h

/-- Names are registered as pending where they are new. -/
structure Reserves (names : List String) (r r' : Registry) : Prop where
  grows : Grows r r'
  under : forall name, r'.under name = (r.under name).or (reserved names name)

theorem Reserves.nil {r : Registry} (h : r.Tidy) : Reserves [] r r :=
  ⟨.refl h, by simp [reserved]⟩

theorem Reserves.append {names others : List String} {r r' r'' : Registry}
    (h : Reserves names r r') (h' : Reserves others r' r'') :
    Reserves (names ++ others) r r'' := by
  refine ⟨h.grows.trans h'.grows, ?_⟩
  intro name
  rw [h'.under, h.under, Option.or_assoc, reserved_append]

theorem reserves_reserve {r : Registry} (hr : r.Tidy) (name : String) :
    Reserves [name] r ((reserve name).run r).2 ∧
      (((reserve name).run r).2).lookup? name = some ((reserve name).run r).1 := by
  rw [run_reserve]
  cases hid : r.lookup? name with
  | some id =>
      refine ⟨⟨.refl hr, ?_⟩, hid⟩
      intro other
      by_cases hother : other = name
      · subst hother
        rcases hr.coherent.definition hid with ⟨d, hd, _⟩
        simp [under, hid, hd]
      · simp [reserved, hother]
  | none =>
      have hputs := puts_register (d := .pending name) hr hid fun _ => rfl
      refine ⟨⟨hputs.grows, ?_⟩, lookup?_register_new r (.pending name)⟩
      intro other
      rw [hputs.under]
      show (if other = name then some (.pending name) else r.under other) = _
      by_cases hother : other = name
      · subst hother
        simp [reserved, (under_eq_none hr.coherent).mpr hid]
      · simp [reserved, hother]

end Registry
end Shapes
