import Shapes.Trail

/-!
# Entering and leaving

What an attempt to enter a key does to a trail, and what it takes to go back.
-/

namespace Shapes
namespace Trail

variable {κ : Type} [DecidableEq κ]

theorem enter_cases {t t' : Trail κ} {key : κ} {entry : Entry}
    (h : t.enter key = (entry, t')) :
    t'.limits = t.limits ∧ t'.steps = min (t.steps + 1) stepCeiling ∧
      ((entry = .tooManySteps ∧ t.limits.maxSteps < t'.steps ∧
          t'.visiting = t.visiting ∧ t'.depth = t.depth) ∨
        (entry = .cycle ∧ key ∈ t.visiting ∧
          t'.visiting = t.visiting ∧ t'.depth = t.depth) ∨
        (entry = .tooDeep ∧ key ∉ t.visiting ∧ t.limits.maxDepth ≤ t.depth ∧
          t'.visiting = t.visiting ∧ t'.depth = t.depth) ∨
        (entry = .entered ∧ key ∉ t.visiting ∧ t.depth < t.limits.maxDepth ∧
          t'.visiting = key :: t.visiting ∧ t'.depth = t.depth + 1)) := by
  unfold enter at h
  simp only [isVisiting, List.contains_iff_mem] at h
  split at h
  · rename_i hsteps
    cases h
    exact ⟨rfl, rfl, Or.inl ⟨rfl, hsteps, rfl, rfl⟩⟩
  · split at h
    · rename_i hvisiting
      cases h
      exact ⟨rfl, rfl, Or.inr (Or.inl ⟨rfl, hvisiting, rfl, rfl⟩)⟩
    · rename_i hvisiting
      split at h
      · rename_i hdepth
        cases h
        exact ⟨rfl, rfl, Or.inr (Or.inr (Or.inl ⟨rfl, hvisiting, hdepth, rfl, rfl⟩))⟩
      · rename_i hdepth
        cases h
        exact ⟨rfl, rfl,
          Or.inr (Or.inr (Or.inr ⟨rfl, hvisiting, Nat.lt_of_not_le hdepth, rfl, rfl⟩))⟩

theorem enter_entered {t t' : Trail κ} {key : κ} (h : t.enter key = (.entered, t')) :
    t'.limits = t.limits ∧ t'.steps = min (t.steps + 1) stepCeiling ∧
      key ∉ t.visiting ∧ t.depth < t.limits.maxDepth ∧
      t'.visiting = key :: t.visiting ∧ t'.depth = t.depth + 1 := by
  rcases enter_cases h with ⟨hlimits, hsteps, hcases⟩
  rcases hcases with ⟨hentry, _⟩ | ⟨hentry, _⟩ | ⟨hentry, _⟩ | ⟨_, hrest⟩
  · cases hentry
  · cases hentry
  · cases hentry
  · exact ⟨hlimits, hsteps, hrest⟩

theorem steps_le_of_enter {t t' : Trail κ} {key : κ} {entry : Entry}
    (h : t.enter key = (entry, t')) (hentry : entry ≠ .tooManySteps) :
    t'.steps ≤ t.limits.maxSteps := by
  unfold enter at h
  dsimp only at h
  split at h
  · cases h
    exact absurd rfl hentry
  · rename_i hsteps
    split at h
    · cases h
      exact Nat.le_of_not_lt hsteps
    · split at h
      · cases h
        exact Nat.le_of_not_lt hsteps
      · cases h
        exact Nat.le_of_not_lt hsteps

theorem mem_of_enter_cycle {t t' : Trail κ} {key : κ} (h : t.enter key = (.cycle, t')) :
    key ∈ t.visiting := by
  rcases enter_cases h with ⟨_, _, hcases⟩
  rcases hcases with ⟨hentry, _⟩ | ⟨_, hmem, _⟩ | ⟨hentry, _⟩ | ⟨hentry, _⟩
  · cases hentry
  · exact hmem
  · cases hentry
  · cases hentry

@[simp] theorem leave_limits (t : Trail κ) (key : κ) : (t.leave key).limits = t.limits := by
  unfold leave leave?
  split <;> rfl

@[simp] theorem leave_steps (t : Trail κ) (key : κ) : (t.leave key).steps = t.steps := by
  unfold leave leave?
  split <;> rfl

theorem leave_entered {t : Trail κ} {key : κ} {rest : List κ}
    (h : t.visiting = key :: rest) :
    (t.leave key).limits = t.limits ∧ (t.leave key).steps = t.steps ∧
      (t.leave key).visiting = rest ∧ (t.leave key).depth = t.depth - 1 := by
  simp [leave, leave?, isVisiting, h]

/-!
# Two trails at the same place

Two trails with the same keys differ in the number of attempts alone, and the
one with fewer of them lets in whatever the other does.
-/

/-- Trails of the same walk, of which the second has not taken more steps. -/
structure Beside (t u : Trail κ) : Prop where
  limits : u.limits = t.limits
  visiting : u.visiting = t.visiting
  depth : u.depth = t.depth
  steps : u.steps ≤ t.steps

theorem Beside.enter {t u t' : Trail κ} (h : Beside t u) {key : κ} {entry : Entry}
    (henter : t.enter key = (entry, t')) (hentry : entry ≠ .tooManySteps) :
    exists u', u.enter key = (entry, u') ∧ Beside t' u' := by
  rcases t with ⟨limits, visiting, depth, steps⟩
  rcases u with ⟨_, _, _, fewer⟩
  rcases h with ⟨rfl, rfl, rfl, hle⟩
  have hnext : min (fewer + 1) stepCeiling ≤ min (steps + 1) stepCeiling := by
    have hle' : fewer ≤ steps := hle
    omega
  unfold Trail.enter isVisiting at henter ⊢
  dsimp only at henter ⊢
  split at henter
  · cases henter
    exact absurd rfl hentry
  · rename_i hfew
    rw [if_neg (by omega)]
    split at henter
    · rename_i hvisiting
      cases henter
      rw [if_pos hvisiting]
      exact ⟨_, rfl, rfl, rfl, rfl, hnext⟩
    · rename_i hvisiting
      rw [if_neg hvisiting]
      split at henter
      · rename_i hdeep
        cases henter
        rw [if_pos hdeep]
        exact ⟨_, rfl, rfl, rfl, rfl, hnext⟩
      · rename_i hdeep
        cases henter
        rw [if_neg hdeep]
        exact ⟨_, rfl, rfl, rfl, rfl, hnext⟩

theorem leave_visiting_depth {t u : Trail κ} (hvisiting : u.visiting = t.visiting)
    (hdepth : u.depth = t.depth) (key : κ) :
    (u.leave key).visiting = (t.leave key).visiting ∧
      (u.leave key).depth = (t.leave key).depth := by
  unfold leave leave? isVisiting
  rw [hvisiting, hdepth]
  split
  · exact ⟨rfl, rfl⟩
  · exact ⟨hvisiting, hdepth⟩

end Trail
end Shapes
