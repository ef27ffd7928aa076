import Mathlib.Data.List.Perm.Basic

/-!
# Choices from lists

A choice takes one member of each of several lists.  `Gathers` says of a list of
results that it has one for each choice whose members go together, and no others.
What is gathered from a list of lists and from another is put together in the same
way, and the order of the lists does not matter.
-/

namespace Shapes

variable {α : Type}

/-- One member of each list. -/
def Chosen (picks : List α) (lists : List (List α)) : Prop :=
  List.Forall₂ (fun x list => x ∈ list) picks lists

theorem chosen_append {ps qs : List α} {lists others : List (List α)} (hp : Chosen ps lists)
    (hq : Chosen qs others) : Chosen (ps ++ qs) (lists ++ others) :=
  List.rel_append hp hq

theorem chosen_append_cases {picks : List α} {lists others : List (List α)}
    (h : Chosen picks (lists ++ others)) :
    exists ps qs, picks = ps ++ qs ∧ Chosen ps lists ∧ Chosen qs others :=
  ⟨_, _, (List.take_append_drop lists.length picks).symm, List.forall₂_take_append picks _ _ h,
    List.forall₂_drop_append picks _ _ h⟩

theorem chosen_singleton {picks : List α} {list : List α} :
    Chosen picks [list] <-> exists x, x ∈ list ∧ picks = [x] := by
  simp [Chosen, List.forall₂_cons_right_iff]

theorem exists_chosen_of_perm {picks : List α} {lists others : List (List α)}
    (h : Chosen picks lists) (hperm : lists.Perm others) :
    exists picks', picks.Perm picks' ∧ Chosen picks' others := by
  rcases List.perm_comp_forall₂ hperm.symm h.flip with ⟨picks', hpicks', hperm'⟩
  exact ⟨picks', hperm'.symm, hpicks'.flip⟩

theorem exists_chosen {lists : List (List α)} (h : forall list, list ∈ lists -> list ≠ []) :
    exists picks, Chosen picks lists := by
  induction lists with
  | nil => exact ⟨[], List.Forall₂.nil⟩
  | cons list rest ih =>
      rw [List.forall_mem_cons] at h
      rcases List.exists_mem_of_ne_nil list h.1 with ⟨x, hx⟩
      rcases ih h.2 with ⟨picks, hpicks⟩
      exact ⟨x :: picks, List.Forall₂.cons hx hpicks⟩

/-- The results of all choices whose members go together. -/
structure Gathers (joint : List α -> α -> Prop) (together : List α -> Prop)
    (lists : List (List α)) (results : List α) : Prop where
  onto : forall picks, Chosen picks lists -> together picks ->
    exists z, z ∈ results ∧ joint picks z
  into : forall z, z ∈ results -> exists picks, Chosen picks lists ∧ joint picks z

section Gathers

variable {joint : List α -> α -> Prop} {together : List α -> Prop} {lists others : List (List α)}
  {results : List α}

theorem gathers_singleton {list : List α} (h : forall x, x ∈ list -> joint [x] x) :
    Gathers joint together [list] list := by
  constructor
  · intro picks hpicks _
    rcases chosen_singleton.mp hpicks with ⟨x, hx, rfl⟩
    exact ⟨x, hx, h x hx⟩
  · intro x hx
    exact ⟨[x], chosen_singleton.mpr ⟨x, hx, rfl⟩, h x hx⟩

theorem Gathers.append {firsts seconds : List α} (hfirst : Gathers joint together lists firsts)
    (hsecond : Gathers joint together others seconds)
    (hparts : forall ps qs, together (ps ++ qs) -> together ps ∧ together qs)
    (honto : forall x, x ∈ firsts -> forall y, y ∈ seconds -> forall ps qs, joint ps x ->
      joint qs y -> together (ps ++ qs) -> exists z, z ∈ results ∧ joint (ps ++ qs) z)
    (hinto : forall z, z ∈ results -> exists x, x ∈ firsts ∧ exists y, y ∈ seconds ∧
      forall ps qs, joint ps x -> joint qs y -> joint (ps ++ qs) z) :
    Gathers joint together (lists ++ others) results := by
  constructor
  · intro picks hpicks htogether
    rcases chosen_append_cases hpicks with ⟨ps, qs, rfl, hps, hqs⟩
    rcases hparts ps qs htogether with ⟨htogetherps, htogetherqs⟩
    rcases hfirst.onto ps hps htogetherps with ⟨x, hx, hjointx⟩
    rcases hsecond.onto qs hqs htogetherqs with ⟨y, hy, hjointy⟩
    exact honto x hx y hy ps qs hjointx hjointy htogether
  · intro z hz
    rcases hinto z hz with ⟨x, hx, y, hy, hjoint⟩
    rcases hfirst.into x hx with ⟨ps, hps, hjointx⟩
    rcases hsecond.into y hy with ⟨qs, hqs, hjointy⟩
    exact ⟨ps ++ qs, chosen_append hps hqs, hjoint ps qs hjointx hjointy⟩

theorem Gathers.perm (h : Gathers joint together lists results) (hperm : lists.Perm others)
    (hjoint : forall {ps qs z}, ps.Perm qs -> joint ps z -> joint qs z)
    (htogether : forall {ps qs}, ps.Perm qs -> together ps -> together qs) :
    Gathers joint together others results := by
  constructor
  · intro picks hpicks hholds
    rcases exists_chosen_of_perm hpicks hperm.symm with ⟨picks', hpicks', hchosen⟩
    rcases h.onto picks' hchosen (htogether hpicks' hholds) with ⟨z, hz, hz'⟩
    exact ⟨z, hz, hjoint hpicks'.symm hz'⟩
  · intro z hz
    rcases h.into z hz with ⟨picks, hchosen, hz'⟩
    rcases exists_chosen_of_perm hchosen hperm with ⟨picks', hpicks', hchosen'⟩
    exact ⟨picks', hchosen', hjoint hpicks' hz'⟩

theorem Gathers.exists_joint {others : List α} (h : Gathers joint together lists results)
    (h' : Gathers joint together lists others)
    (htogether : forall z, z ∈ results -> forall picks, joint picks z -> together picks) {z : α}
    (hz : z ∈ results) : exists z', z' ∈ others ∧ exists picks, joint picks z ∧ joint picks z' := by
  rcases h.into z hz with ⟨picks, hpicks, hjoint⟩
  rcases h'.onto picks hpicks (htogether z hz picks hjoint) with ⟨z', hz', hjoint'⟩
  exact ⟨z', hz', picks, hjoint, hjoint'⟩

end Gathers

end Shapes
