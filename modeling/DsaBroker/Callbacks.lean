import Mathlib.Data.List.Perm.Basic

/-!
# The callbacks of a future

A future comes to an outcome once: a value, or `none` when it fails.  What was registered on it
before or after that has its turn some time after the outcome is there, each on a thread of its
own and so in no order, and gets the value.  If the future has failed, the turn does nothing.
-/

structure Awaited (α κ : Type) where
  outcome : Option (Option α)
  /-- What waits for its turn. -/
  callbacks : List κ

namespace Awaited

variable {α κ : Type}

/-- The value, if the future has come to one. -/
def value (f : Awaited α κ) : Option α := f.outcome.join

def start : Awaited α κ := ⟨none, []⟩

def register (f : Awaited α κ) (k : κ) : Awaited α κ :=
  { f with callbacks := f.callbacks ++ [k] }

def complete (f : Awaited α κ) (outcome : Option α) : Awaited α κ :=
  { f with outcome := some outcome }

/-- The turn of the callback at place `j`: what is run with which value. -/
def turn (f : Awaited α κ) (j : Nat) : Option (Option (α × κ) × Awaited α κ) :=
  f.outcome.bind fun outcome => f.callbacks[j]?.map fun k =>
    (outcome.map fun a => (a, k), { f with callbacks := f.callbacks.eraseIdx j })

theorem turn_eq_some {f f' : Awaited α κ} {j : Nat} {ran : Option (α × κ)}
    (h : f.turn j = some (ran, f')) :
    ∃ outcome k, f.outcome = some outcome ∧ ran = outcome.map (fun a => (a, k)) ∧
      f'.outcome = some outcome ∧ f.callbacks.Perm (k :: f'.callbacks) := by
  obtain ⟨outcome, houtcome, hturn⟩ := Option.bind_eq_some_iff.mp h
  obtain ⟨k, hk, heq⟩ := Option.map_eq_some_iff.mp hturn
  obtain ⟨rfl, rfl⟩ := Prod.mk.inj heq
  obtain ⟨hj, rfl⟩ := List.getElem?_eq_some_iff.mp hk
  exact ⟨outcome, _, houtcome, rfl, houtcome, (List.getElem_cons_eraseIdx_perm hj).symm⟩

/-- What was registered has had its turn or waits for it, and what was run was run with the value
of the future. -/
def Accounted (f : Awaited α κ) (registered : List κ) (ran : List (α × κ)) : Prop :=
  ∃ turns, (turns ++ f.callbacks).Perm registered ∧ (f.outcome = none → turns = []) ∧
    ran = turns.filterMap fun k => f.value.map fun a => (a, k)

theorem Accounted.start : (Awaited.start : Awaited α κ).Accounted [] [] :=
  ⟨[], List.Perm.refl _, fun _ => rfl, rfl⟩

theorem Accounted.ran_eq_nil {f : Awaited α κ} {registered : List κ} {ran : List (α × κ)}
    (h : f.Accounted registered ran) (hnone : f.outcome = none) : ran = [] := by
  obtain ⟨turns, -, hturns, hran⟩ := h
  rw [hran, hturns hnone]
  rfl

theorem value_of_turn {f f' : Awaited α κ} {j : Nat} {ran : Option (α × κ)}
    (h : f.turn j = some (ran, f')) : f'.value = f.value := by
  obtain ⟨outcome, k, houtcome, -, houtcome', -⟩ := turn_eq_some h
  rw [value, value, houtcome, houtcome']

theorem Accounted.register {f : Awaited α κ} {registered : List κ} {ran : List (α × κ)}
    (h : f.Accounted registered ran) (k : κ) :
    (f.register k).Accounted (registered ++ [k]) ran := by
  obtain ⟨turns, hperm, hnone, hran⟩ := h
  refine ⟨turns, ?_, hnone, hran⟩
  rw [Awaited.register, ← List.append_assoc]
  exact hperm.append_right [k]

theorem Accounted.complete {f : Awaited α κ} {registered : List κ} {ran : List (α × κ)}
    (h : f.Accounted registered ran) (hnone : f.outcome = none) (outcome : Option α) :
    (f.complete outcome).Accounted registered ran := by
  obtain ⟨turns, hperm, hturns, hran⟩ := h
  obtain rfl := hturns hnone
  exact ⟨[], hperm, fun _ => rfl, hran⟩

theorem Accounted.turn {f f' : Awaited α κ} {registered : List κ} {ran : List (α × κ)}
    (h : f.Accounted registered ran) {j : Nat} {now : Option (α × κ)}
    (hturn : f.turn j = some (now, f')) : f'.Accounted registered (ran ++ now.toList) := by
  obtain ⟨turns, hperm, hturns, hran⟩ := h
  obtain ⟨outcome, k, houtcome, rfl, houtcome', hcallbacks⟩ := turn_eq_some hturn
  refine ⟨turns ++ [k], ?_, ?_, ?_⟩
  · rw [List.append_assoc, List.singleton_append]
    exact (hcallbacks.symm.append_left turns).trans hperm
  · intro hnone
    rw [houtcome'] at hnone
    simp only [reduceCtorEq] at hnone
  · rw [hran, List.filterMap_append, value, value, houtcome, houtcome']
    rcases outcome with _ | a <;> rfl

end Awaited
