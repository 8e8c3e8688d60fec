import Mathlib.Data.List.Basic
import Mathlib.Logic.Function.Basic

/-!
# A listing that comes after later changes

A reader asks for the entries of a map and is told of every change from then on.  The listing is
made at once but sent later, after some of the changes.  It puts back what they have changed, and
the reader keeps the old entry until it is changed again (`late_listing`).
-/

variable {κ ν : Type} [DecidableEq κ]

/-- What becomes of a map: `none` removes an entry. -/
def changed (m : κ → Option ν) (changes : List (κ × Option ν)) : κ → Option ν :=
  changes.foldl (fun m c => Function.update m c.1 c.2) m

@[simp] theorem changed_nil (m : κ → Option ν) : changed m [] = m := rfl

theorem changed_cons (m : κ → Option ν) (c : κ × Option ν) (rest : List (κ × Option ν)) :
    changed m (c :: rest) = changed (Function.update m c.1 c.2) rest := rfl

theorem changed_append (m : κ → Option ν) (changes later : List (κ × Option ν)) :
    changed m (changes ++ later) = changed (changed m changes) later := List.foldl_append

theorem changed_of_not_mem {changes : List (κ × Option ν)} {k : κ}
    (h : k ∉ changes.map Prod.fst) (m : κ → Option ν) : changed m changes k = m k := by
  induction changes generalizing m with
  | nil => rfl
  | cons c rest ih =>
    rw [List.map_cons, List.mem_cons, not_or] at h
    rw [changed_cons, ih h.2, Function.update_of_ne h.1]

/-- Only the entry itself matters for what becomes of it. -/
theorem changed_congr {m m' : κ → Option ν} {k : κ} (h : m k = m' k)
    (changes : List (κ × Option ν)) : changed m changes k = changed m' changes k := by
  induction changes generalizing m m' with
  | nil => exact h
  | cons c rest ih =>
    rw [changed_cons, changed_cons]
    apply ih
    rw [Function.update_apply, Function.update_apply, h]

/-- What is changed comes from the changes. -/
theorem changed_of_mem {changes : List (κ × Option ν)} {k : κ} (h : k ∈ changes.map Prod.fst)
    (m m' : κ → Option ν) : changed m changes k = changed m' changes k := by
  induction changes generalizing m m' with
  | nil => exact absurd h List.not_mem_nil
  | cons c rest ih =>
    rw [changed_cons, changed_cons]
    by_cases hc : k = c.1
    · apply changed_congr
      rw [hc, Function.update_self, Function.update_self]
    · rw [List.map_cons, List.mem_cons, or_iff_right hc] at h
      exact ih h _ _

theorem changed_eq_of_forall {changes : List (κ × Option ν)} {k : κ} {shown : Option ν}
    (hmem : k ∈ changes.map Prod.fst) (h : ∀ c ∈ changes, c.1 = k → c.2 = shown)
    (m : κ → Option ν) : changed m changes k = shown := by
  induction changes generalizing m with
  | nil => exact absurd hmem List.not_mem_nil
  | cons c rest ih =>
    obtain ⟨hhead, hrest⟩ := List.forall_mem_cons.mp h
    by_cases hk : k ∈ rest.map Prod.fst
    · exact ih hk hrest _
    · rw [List.map_cons, List.mem_cons, or_iff_left hk] at hmem
      rw [changed_cons, changed_of_not_mem hk, hmem, Function.update_self, hhead hmem.symm]

/-- **A late listing.**  The reader sees an entry as it is just if it has changed since the listing
came, or was not listed, or is again as it was listed. -/
theorem late_listing {early listed later : List (κ × Option ν)} {start : κ → Option ν} {k : κ}
    {shown : Option ν} (hmem : k ∈ listed.map Prod.fst ↔ shown.isSome)
    (hlisted : ∀ c ∈ listed, c.1 = k → c.2 = shown) (hstart : shown = none → start k = none) :
    changed (fun _ => none) (early ++ listed ++ later) k = changed start (early ++ later) k ↔
      k ∈ later.map Prod.fst ∨ shown = none ∨ shown = changed start early k := by
  rw [changed_append, changed_append, changed_append]
  by_cases hlater : k ∈ later.map Prod.fst
  · rw [changed_of_mem hlater _ (changed start early)]
    exact iff_of_true rfl (Or.inl hlater)
  · rw [changed_of_not_mem hlater, changed_of_not_mem hlater, or_iff_right hlater]
    rcases hshown : shown with _ | v
    · have hnot : k ∉ listed.map Prod.fst := by
        rw [hmem, hshown]
        exact Bool.false_ne_true
      rw [changed_of_not_mem hnot]
      exact iff_of_true (changed_congr (hstart hshown).symm early) (Or.inl rfl)
    · have hin : k ∈ listed.map Prod.fst := by
        rw [hmem, hshown]
        rfl
      rw [changed_eq_of_forall hin hlisted, hshown]
      simp
