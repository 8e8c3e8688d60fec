import Mathlib.Data.List.Basic

/-!
# Runs of a state machine whose steps are restricted

A step function `step : σ → ι → Option σ` is partial: `none` is a step that cannot be taken
or that ends in an exception.  `Reachable step Ok s₀` are the states of the runs from `s₀`
whose every step meets the condition `Ok` on the state before it and its input; with the
condition `AnyStep` these are the reachable states without further ado.

Inside one step the inputs may come as a batch that a total function works off.  `Along`
says that every element of the batch meets a condition at its turn.
-/

variable {σ ι : Type}

/-- The condition that every step meets. -/
def AnyStep (_ : σ) (_ : ι) : Prop := True

instance (s : σ) (i : ι) : Decidable (AnyStep s i) := .isTrue trivial

/-- The states reached from `s₀` by steps that meet `Ok`. -/
inductive Reachable (step : σ → ι → Option σ) (Ok : σ → ι → Prop) (s₀ : σ) : σ → Prop where
  | start : Reachable step Ok s₀ s₀
  | next {s s' : σ} (i : ι) (reached : Reachable step Ok s₀ s) (ok : Ok s i)
      (taken : step s i = some s') : Reachable step Ok s₀ s'

namespace Reachable

variable {step : σ → ι → Option σ} {Ok : σ → ι → Prop} {s₀ s s' : σ}

/-- **The invariant rule.**  What holds at the start and is preserved by every step that
meets the condition holds in every state reached. -/
theorem invariant {Inv : σ → Prop} (hstart : Inv s₀)
    (hstep : ∀ s i s', Inv s → Ok s i → step s i = some s' → Inv s')
    (h : Reachable step Ok s₀ s) : Inv s := by
  induction h with
  | start => exact hstart
  | next i _ ok taken ih => exact hstep _ i _ ih ok taken

/-- A run given by its inputs, each of which meets the condition at its turn. -/
def run (step : σ → ι → Option σ) (Ok : σ → ι → Prop) [∀ s i, Decidable (Ok s i)] (s : σ)
    (inputs : List ι) : Option σ :=
  inputs.foldlM (fun s i => if Ok s i then step s i else none) s

theorem of_run [∀ s i, Decidable (Ok s i)] {inputs : List ι}
    (h : run step Ok s inputs = some s') (hs : Reachable step Ok s₀ s) :
    Reachable step Ok s₀ s' := by
  induction inputs generalizing s with
  | nil =>
    simp only [run, List.foldlM_nil, Option.pure_def, Option.some.injEq] at h
    exact h ▸ hs
  | cons i rest ih =>
    simp only [run, List.foldlM_cons, Option.bind_eq_bind, Option.bind_eq_some_iff] at h
    obtain ⟨t, ht, hrest⟩ := h
    split at ht
    case isTrue hok => exact ih hrest (.next i hs hok ht)
    case isFalse => cases ht

/-- What a run comes to is reached. -/
theorem exists_of_run [∀ s i, Decidable (Ok s i)] (inputs : List ι) {P : σ → Prop}
    [DecidablePred P] (h : (run step Ok s₀ inputs).any (fun s => decide (P s)) = true) :
    ∃ s, Reachable step Ok s₀ s ∧ P s := by
  rw [Option.any_eq_true] at h
  obtain ⟨s, hs, hP⟩ := h
  exact ⟨s, of_run hs .start, of_decide_eq_true hP⟩

end Reachable

/-- Every input of a run meets the condition at its turn, as far as the run gets. -/
def Admissible (step : σ → ι → Option σ) (Ok : σ → ι → Prop) : σ → List ι → Prop
  | _, [] => True
  | s, i :: rest => Ok s i ∧ ∀ s', step s i = some s' → Admissible step Ok s' rest

theorem Admissible.cons_iff {step : σ → ι → Option σ} {Ok : σ → ι → Prop} {s s' : σ} {i : ι}
    (h : step s i = some s') (rest : List ι) :
    Admissible step Ok s (i :: rest) ↔ Ok s i ∧ Admissible step Ok s' rest := by
  rw [Admissible, h]
  simp only [Option.some.injEq, forall_eq']

/-- Conditions that agree at every state and input admit the same runs. -/
theorem Admissible.congr {step : σ → ι → Option σ} {Ok Ok' : σ → ι → Prop}
    (h : ∀ s i, Ok s i ↔ Ok' s i) (s : σ) (inputs : List ι) :
    Admissible step Ok s inputs ↔ Admissible step Ok' s inputs := by
  induction inputs generalizing s with
  | nil => exact Iff.rfl
  | cons i rest ih =>
    rw [Admissible, Admissible, h s i]
    refine and_congr_right fun _ => ?_
    exact forall₂_congr fun s' _ => ih s'

/-- If `Inv` is preserved and makes every input of the run admissible, the run is. -/
theorem Admissible.of_invariant {step : σ → ι → Option σ} {Ok : σ → ι → Prop} {Inv : σ → Prop}
    {inputs : List ι} (hok : ∀ s i, i ∈ inputs → Inv s → Ok s i)
    (hstep : ∀ s i s', i ∈ inputs → Inv s → step s i = some s' → Inv s') {s : σ} (hs : Inv s) :
    Admissible step Ok s inputs := by
  induction inputs generalizing s with
  | nil => exact trivial
  | cons i rest ih =>
    refine ⟨hok s i List.mem_cons_self hs, ?_⟩
    intro s' hs'
    refine ih (fun t j hj => hok t j (List.mem_cons_of_mem _ hj))
      (fun t j t' hj => hstep t j t' (List.mem_cons_of_mem _ hj)) ?_
    exact hstep s i s' List.mem_cons_self hs hs'

/-! ### Replay -/

/-- What a replay that comes through has kept, one element at a time. -/
theorem foldlM_invariant {step : σ → ι → Option σ} (Inv : σ → List ι → Prop)
    (hstep : ∀ s i rest s', Inv s (i :: rest) → step s i = some s' → Inv s' rest)
    {s s' : σ} {inputs : List ι} (hs : Inv s inputs) (h : inputs.foldlM step s = some s') :
    Inv s' [] := by
  induction inputs generalizing s with
  | nil =>
    simp only [List.foldlM_nil, Option.pure_def, Option.some.injEq] at h
    exact h ▸ hs
  | cons i rest ih =>
    simp only [List.foldlM_cons, Option.bind_eq_bind, Option.bind_eq_some_iff] at h
    obtain ⟨t, ht, hrest⟩ := h
    exact ih (hstep _ _ _ _ hs ht) hrest

/-! ### Two replays side by side -/

section

variable {τ : Type} {step : σ → ι → Option σ} {step' : τ → ι → Option τ} {R : σ → τ → Prop}
  {Ok : σ → ι → Prop}

theorem rel_some_iff {s : σ} {t : τ} : Option.Rel R (some s) (some t) ↔ R s t := by
  constructor
  · rintro ⟨h⟩
    exact h
  · exact Option.Rel.some

/-- Where a step keeps two states related just if it meets the condition, two replays are
related as far as every step of the first one meets it, and no further. -/
theorem prefixes_related_iff
    (hstep : ∀ s t i, R s t → (Option.Rel R (step s i) (step' t i) ↔ Ok s i))
    (s : σ) (t : τ) (inputs : List ι) :
    (∀ done, done <+: inputs → Option.Rel R (done.foldlM step s) (done.foldlM step' t)) ↔
      R s t ∧ Admissible step Ok s inputs := by
  induction inputs generalizing s t with
  | nil =>
    simp only [List.prefix_nil, forall_eq, Admissible, and_true, List.foldlM_nil, Option.pure_def]
    exact rel_some_iff
  | cons i rest ih =>
    constructor
    · intro h
      -- the empty prefix gives the relation, the prefix of one input the condition on it
      have hrelated : R s t := rel_some_iff.mp (h [] List.nil_prefix)
      have hone := h [i] ⟨rest, rfl⟩
      simp only [List.foldlM_cons, List.foldlM_nil, bind_pure] at hone
      refine ⟨hrelated, (hstep s t i hrelated).mp hone, ?_⟩
      intro s' hs'
      obtain ⟨t', ht'⟩ : ∃ t', step' t i = some t' := by
        rw [hs'] at hone
        cases ht : step' t i with
        | none =>
          rw [ht] at hone
          cases hone
        | some t' => exact ⟨t', rfl⟩
      refine ((ih s' t').mp ?_).2
      intro done hdone
      have hlonger := h (i :: done) ((List.prefix_cons_inj i).mpr hdone)
      simpa only [List.foldlM_cons, hs', ht', Option.bind_eq_bind, Option.bind_some] using hlonger
    · rintro ⟨hrelated, hok, hrest⟩ done hdone
      cases done with
      | nil => exact .some hrelated
      | cons j done =>
        obtain ⟨rfl, htail⟩ := List.cons_prefix_cons.mp hdone
        have hone := (hstep s t j hrelated).mpr hok
        rw [List.foldlM_cons, List.foldlM_cons]
        cases hs : step s j with
        | none =>
          rw [hs] at hone
          cases ht : step' t j with
          | none => exact .none
          | some t' =>
            rw [ht] at hone
            cases hone
        | some s' =>
          rw [hs] at hone
          cases ht : step' t j with
          | none =>
            rw [ht] at hone
            cases hone
          | some t' =>
            rw [ht] at hone
            exact (ih s' t').mpr ⟨rel_some_iff.mp hone, hrest s' hs⟩ done htail

end

/-! ### Batches -/

/-- Every element of a batch meets the condition when its turn comes. -/
def Along (step : σ → ι → σ) (Ok : σ → ι → Prop) : σ → List ι → Prop
  | _, [] => True
  | s, i :: rest => Ok s i ∧ Along step Ok (step s i) rest

instance Along.decidable {step : σ → ι → σ} {Ok : σ → ι → Prop} [∀ s i, Decidable (Ok s i)] :
    (s : σ) → (batch : List ι) → Decidable (Along step Ok s batch)
  | _, [] => .isTrue trivial
  | s, i :: rest =>
    have : Decidable (Along step Ok (step s i) rest) := decidable (step s i) rest
    inferInstanceAs (Decidable (Ok s i ∧ Along step Ok (step s i) rest))

theorem Along.mono {step : σ → ι → σ} {Ok Ok' : σ → ι → Prop} (himp : ∀ s i, Ok s i → Ok' s i)
    {s : σ} {batch : List ι} (h : Along step Ok s batch) : Along step Ok' s batch := by
  induction batch generalizing s with
  | nil => exact trivial
  | cons i rest ih => exact ⟨himp s i h.1, ih h.2⟩

theorem Along.anyStep {step : σ → ι → σ} {s : σ} {batch : List ι} :
    Along step AnyStep s batch := by
  induction batch generalizing s with
  | nil => exact trivial
  | cons i rest ih => exact ⟨trivial, ih⟩

/-- If `Inv` is kept by the elements of the batch and gives each of them its condition, every
element meets the condition at its turn. -/
theorem Along.of_invariant {step : σ → ι → σ} {Ok : σ → ι → Prop} (Inv : σ → Prop) {batch : List ι}
    (hok : ∀ s, ∀ i ∈ batch, Inv s → Ok s i) (hstep : ∀ s, ∀ i ∈ batch, Inv s → Inv (step s i))
    {s : σ} (hs : Inv s) : Along step Ok s batch := by
  induction batch generalizing s with
  | nil => exact trivial
  | cons i rest ih =>
    constructor
    · exact hok s i List.mem_cons_self hs
    · exact ih (fun t j hj => hok t j (List.mem_cons_of_mem i hj))
        (fun t j hj => hstep t j (List.mem_cons_of_mem i hj)) (hstep s i List.mem_cons_self hs)

theorem along_append {step : σ → ι → σ} {Ok : σ → ι → Prop} {s : σ} {batch later : List ι} :
    Along step Ok s (batch ++ later) ↔
      Along step Ok s batch ∧ Along step Ok (batch.foldl step s) later := by
  induction batch generalizing s with
  | nil => simp only [List.nil_append, Along, List.foldl_nil, true_and]
  | cons i rest ih => simp only [List.cons_append, Along, List.foldl_cons, ih, and_assoc]

/-- What every element keeps at its turn, the whole batch keeps. -/
theorem Along.invariant {step : σ → ι → σ} {Ok : σ → ι → Prop} {Inv : σ → Prop}
    (hstep : ∀ s i, Inv s → Ok s i → Inv (step s i)) {s : σ} {batch : List ι}
    (hs : Inv s) (h : Along step Ok s batch) : Inv (batch.foldl step s) := by
  induction batch generalizing s with
  | nil => exact hs
  | cons i rest ih =>
    obtain ⟨hok, hrest⟩ := h
    exact ih (hstep s i hs hok) hrest

/-! ### Logs -/

/-- What is read off a log when one more entry is made. -/
theorem filterMap_concat {α β : Type} (f : α → Option β) (l : List α) (a : α) :
    (l ++ [a]).filterMap f = l.filterMap f ++ (f a).toList := by
  rw [List.filterMap_append]
  rcases hf : f a with _ | b
  · rw [List.filterMap_cons_none hf]
    rfl
  · rw [List.filterMap_cons_some hf]
    rfl

/-- The last entry of a kind. -/
def IsLast {α : Type} (p : α → Prop) (log : List α) (a : α) : Prop :=
  ∃ before after, log = before ++ a :: after ∧ p a ∧ ∀ b ∈ after, ¬ p b

theorem not_isLast_nil {α : Type} {p : α → Prop} {a : α} : ¬ IsLast p [] a := by
  rintro ⟨before, after, h, -⟩
  exact List.append_ne_nil_of_right_ne_nil before (List.cons_ne_nil a after) h.symm

theorem isLast_concat {α : Type} {p : α → Prop} {log : List α} {a b : α} :
    IsLast p (log ++ [b]) a ↔ p b ∧ a = b ∨ ¬ p b ∧ IsLast p log a := by
  constructor
  · rintro ⟨before, after, hlog, ha, hafter⟩
    rcases List.eq_nil_or_concat after with rfl | ⟨rest, last, rfl⟩
    · obtain ⟨-, hlast⟩ := List.append_inj' hlog rfl
      obtain rfl := List.singleton_inj.mp hlast
      exact Or.inl ⟨ha, rfl⟩
    · rw [List.concat_eq_append, ← List.cons_append, ← List.append_assoc] at hlog
      obtain ⟨rfl, hlast⟩ := List.append_inj' hlog rfl
      obtain rfl := List.singleton_inj.mp hlast
      rw [List.concat_eq_append] at hafter
      refine Or.inr ⟨hafter b (List.mem_append_right _ List.mem_cons_self), before, rest, rfl, ha,
        fun c hc => hafter c (List.mem_append_left _ hc)⟩
  · rintro (⟨hb, rfl⟩ | ⟨hb, before, after, rfl, ha, hafter⟩)
    · exact ⟨log, [], rfl, hb, fun _ h => absurd h List.not_mem_nil⟩
    · refine ⟨before, after ++ [b], by rw [List.append_assoc, List.cons_append], ha, ?_⟩
      intro c hc
      rcases List.mem_append.mp hc with hold | hnew
      · exact hafter c hold
      · exact List.mem_singleton.mp hnew ▸ hb
