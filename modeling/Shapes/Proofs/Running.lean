import Shapes.Failure

/-!
# Running a computation with state and failures

How a computation ends, and what it takes to take one apart that is made of
several: its first part has failed and nothing came after, or it has a value and
the rest was run on that.
-/

namespace Shapes

/-- How a computation ends: well with a value, or badly with a failure. -/
def Ends {α : Type} (good : α -> Prop) (bad : Failure -> Prop) : Except Failure α -> Prop
  | .ok a => good a
  | .error failure => bad failure

/-- What holds of the value of a computation that succeeds. -/
def Succeeds {α : Type} (good : α -> Prop) : Except Failure α -> Prop :=
  Ends good fun _ => True

theorem ends_iff {α : Type} {good : α -> Prop} {bad : Failure -> Prop}
    {result : Except Failure α} :
    Ends good bad result <->
      (forall a, result = .ok a -> good a) ∧
        forall failure, result = .error failure -> bad failure := by
  cases result <;> simp [Ends]

theorem Ends.imp {α : Type} {good good' : α -> Prop} {bad : Failure -> Prop}
    {result : Except Failure α} (h : Ends good bad result)
    (himp : forall a, good a -> good' a) : Ends good' bad result := by
  cases result with
  | error failure => exact h
  | ok a => exact himp a h

theorem Ends.bind {α β : Type} {good : α -> Prop} {good' : β -> Prop} {bad : Failure -> Prop}
    {first : Except Failure α} {next : α -> Except Failure β} (hfirst : Ends good bad first)
    (hnext : forall a, good a -> Ends good' bad (next a)) : Ends good' bad (first >>= next) := by
  cases first with
  | error failure => exact hfirst
  | ok a => exact hnext a hfirst

theorem ends_foldlM {α β : Type} {good : β -> Prop} {bad : Failure -> Prop}
    {step : β -> α -> Except Failure β} {list : List α}
    (hstep : forall a, a ∈ list -> forall b, good b -> Ends good bad (step b a)) {b : β}
    (hb : good b) : Ends good bad (list.foldlM step b) := by
  induction list generalizing b with
  | nil => exact hb
  | cons a rest ih =>
      rw [List.forall_mem_cons] at hstep
      rw [List.foldlM_cons]
      exact (hstep.1 b hb).bind fun _ hnext => ih hstep.2 hnext

theorem ends_mapM {α β : Type} {good : β -> Prop} {bad : Failure -> Prop}
    {f : α -> Except Failure β} {list : List α}
    (hf : forall a, a ∈ list -> Ends good bad (f a)) :
    Ends (fun results => forall b, b ∈ results -> good b) bad (list.mapM f) := by
  induction list with
  | nil =>
      intro b hb
      cases hb
  | cons a rest ih =>
      rw [List.forall_mem_cons] at hf
      rw [List.mapM_cons]
      apply hf.1.bind
      intro first hfirst
      apply (ih hf.2).bind
      intro others hothers
      exact List.forall_mem_cons.mpr ⟨hfirst, hothers⟩

theorem toOption_eq_some {ε α : Type} {result : Except ε α} {a : α}
    (h : result.toOption = some a) : result = .ok a := by
  cases result with
  | error failure => cases h
  | ok b =>
      cases h
      rfl

theorem bind_eq_ok {α β : Type} {first : Except Failure α} {next : α -> Except Failure β}
    {b : β} (h : first >>= next = .ok b) : exists a, first = .ok a ∧ next a = .ok b := by
  cases first with
  | error failure => cases h
  | ok a => exact ⟨a, rfl, h⟩

theorem run_bind {ε σ α β : Type} (first : ExceptT ε (StateM σ) α)
    (next : α -> ExceptT ε (StateM σ) β) (state : σ) :
    (first >>= next).run state =
      match first.run state with
      | (.ok a, after) => (next a).run after
      | (.error failure, after) => (.error failure, after) := by
  change (ExceptT.bindCont next (first.run state).1).run (first.run state).2 = _
  rcases first.run state with ⟨answer, after⟩
  cases answer <;> rfl

theorem run_getBind {ε σ β : Type} (next : σ -> ExceptT ε (StateM σ) β) (state : σ) :
    (get >>= next).run state = (next state).run state := rfl

theorem run_bind_cases {ε σ α β : Type} {first : ExceptT ε (StateM σ) α}
    {next : α -> ExceptT ε (StateM σ) β} {state state' : σ} {result : Except ε β}
    (h : (first >>= next).run state = (result, state')) :
    (exists a between, first.run state = (.ok a, between) ∧
        (next a).run between = (result, state')) ∨
      exists failure, first.run state = (.error failure, state') ∧
        result = .error failure := by
  rw [run_bind] at h
  rcases hrun : first.run state with ⟨answer, between⟩
  rw [hrun] at h
  cases answer with
  | ok a => exact Or.inl ⟨a, between, rfl, h⟩
  | error failure =>
      cases h
      exact Or.inr ⟨failure, rfl, rfl⟩

theorem run_stateBind {σ α β : Type} (first : StateM σ α) (next : α -> StateM σ β)
    (state : σ) :
    (first >>= next).run state = (next (first.run state).1).run (first.run state).2 := rfl

theorem run_stateGet {σ β : Type} (next : σ -> StateM σ β) (state : σ) :
    (get >>= next).run state = (next state).run state := rfl

theorem run_stateSet {σ : Type} (before after : σ) :
    (set after : StateM σ PUnit).run before = (⟨⟩, after) := rfl

theorem run_liftExcept {σ α : Type} (result : Except Failure α) (state : σ) :
    (liftM result : ExceptT Failure (StateM σ) α).run state = (result, state) := by
  cases result <;> rfl

end Shapes
