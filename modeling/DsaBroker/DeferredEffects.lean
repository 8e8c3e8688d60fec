import DsaBroker.Runs

/-!
# Commands whose effects are deferred to the end of a batch

A system takes a batch of commands.  For each command it decides at once what to do: what to
forward, what to answer, and which effects the command has on the state; of the state itself
only the counters advance at once.  The effects are performed after the whole batch, in
order, and may send further output.  So a command is decided on the state that the batch
started with, whatever the commands before it have decided.

`settled` is the state as it would be if the effects decided so far were performed.  Two
rules are derived from it.  Invariants of a batch may be proved command by command on the
settled state (`finish_invariant`, `finish_total`).  And a batch does what its commands do
one after the other if no command is disturbed by what is pending before it
(`batch_eq_each`).
-/

/-- What a system decides about a command. -/
structure Decision (α ε ρ ω : Type) where
  advances : α
  effects : List ε
  forwarded : List ρ
  answered : List ω

/-- A system with deferred effects.  An effect neither reads nor changes the counters. -/
structure DeferredSystem (σ ι α ε ρ ω : Type) where
  advance : α → σ → σ
  decide : σ → ι → Decision α ε ρ ω
  perform : σ → ε → Option (σ × List ω)
  perform_advance : ∀ a s e,
    perform (advance a s) e = (perform s e).map fun r => (advance a r.1, r.2)

/-- A batch being worked off: the state the commands see, the effects still to be performed
and the output so far. -/
structure Turn (σ ε ρ ω : Type) where
  present : σ
  pending : List ε := []
  forwarded : List ρ := []
  answered : List ω := []

/-- What a batch comes to. -/
structure Worked (σ ρ ω : Type) where
  state : σ
  forwarded : List ρ
  sent : List ω

namespace DeferredSystem

variable {σ ι α ε ρ ω : Type} (sys : DeferredSystem σ ι α ε ρ ω)

/-- Performs effects in order. -/
def performAll (s : σ) : List ε → Option (σ × List ω)
  | [] => some (s, [])
  | e :: rest =>
      (sys.perform s e).bind fun first =>
        (performAll first.1 rest).map fun later => (later.1, first.2 ++ later.2)

/-- Decides one command. -/
def take (t : Turn σ ε ρ ω) (i : ι) : Turn σ ε ρ ω :=
  let d := sys.decide t.present i
  { present := sys.advance d.advances t.present
    pending := t.pending ++ d.effects
    forwarded := t.forwarded ++ d.forwarded
    answered := t.answered ++ d.answered }

/-- Performs what is pending at the end of a batch. -/
def finish (t : Turn σ ε ρ ω) : Option (Worked σ ρ ω) :=
  (sys.performAll t.present t.pending).map fun r => ⟨r.1, t.forwarded, t.answered ++ r.2⟩

def batch (s : σ) (commands : List ι) : Option (Worked σ ρ ω) :=
  sys.finish (commands.foldl sys.take { present := s })

/-- The commands in batches of one. -/
def each (s : σ) : List ι → Option (Worked σ ρ ω)
  | [] => some ⟨s, [], []⟩
  | i :: rest =>
      (sys.batch s [i]).bind fun first =>
        (each first.state rest).map fun later =>
          ⟨later.state, first.forwarded ++ later.forwarded, first.sent ++ later.sent⟩

/-- The state with everything pending performed, and what that sends. -/
def settled (t : Turn σ ε ρ ω) : Option (σ × List ω) := sys.performAll t.present t.pending

/-! ### Performing effects -/

theorem performAll_append (s : σ) (xs ys : List ε) :
    sys.performAll s (xs ++ ys) =
      (sys.performAll s xs).bind fun first =>
        (sys.performAll first.1 ys).map fun later => (later.1, first.2 ++ later.2) := by
  induction xs generalizing s with
  | nil => simp [performAll]
  | cons e rest ih =>
    simp only [List.cons_append, performAll, ih]
    cases sys.perform s e with
    | none => rfl
    | some first =>
      simp only [Option.bind_some]
      cases sys.performAll first.1 rest with
      | none => rfl
      | some middle =>
        simp only [Option.bind_some, Option.map_some, Option.map_map]
        cases sys.performAll middle.1 ys with
        | none => rfl
        | some last => simp only [Option.map_some, Function.comp_apply, List.append_assoc]

theorem performAll_advance (a : α) (s : σ) (effects : List ε) :
    sys.performAll (sys.advance a s) effects =
      (sys.performAll s effects).map fun r => (sys.advance a r.1, r.2) := by
  induction effects generalizing s with
  | nil => rfl
  | cons e rest ih =>
    simp only [performAll, sys.perform_advance]
    cases sys.perform s e with
    | none => rfl
    | some first =>
      simp only [Option.map_some, Option.bind_some, ih, Option.map_map, Function.comp_def]

/-- Deciding a command, seen on the settled state: its effects come on top. -/
theorem settled_take (t : Turn σ ε ρ ω) (i : ι) :
    sys.settled (sys.take t i) =
      (sys.settled t).bind fun r =>
        (sys.performAll (sys.advance (sys.decide t.present i).advances r.1)
          (sys.decide t.present i).effects).map fun q => (q.1, r.2 ++ q.2) := by
  simp only [settled, take, performAll_append, performAll_advance]
  cases sys.performAll t.present t.pending with
  | none => rfl
  | some r =>
    simp only [Option.map_some, Option.bind_some, performAll_advance]

theorem settled_start (s : σ) : sys.settled { present := s } = some (s, []) := rfl

/-! ### Invariants of a batch -/

section Invariants

variable {Inv : Turn σ ε ρ ω → σ → List ω → Prop} {Ok : Turn σ ε ρ ω → ι → Prop}

/-- An invariant of turn, settled state and output, kept by every command at its turn, holds
when a batch has come through. -/
theorem finish_invariant
    (hstep : ∀ t i S outs S' outs', Inv t S outs → Ok t i → sys.settled t = some (S, outs) →
      sys.performAll (sys.advance (sys.decide t.present i).advances S)
        (sys.decide t.present i).effects = some (S', outs') →
      Inv (sys.take t i) S' (outs ++ outs'))
    {commands : List ι} {t : Turn σ ε ρ ω} {S : σ} {outs : List ω} {result : Worked σ ρ ω}
    (hsettled : sys.settled t = some (S, outs)) (ht : Inv t S outs)
    (hok : Along sys.take Ok t commands)
    (hresult : sys.finish (commands.foldl sys.take t) = some result) :
    ∃ S' outs', Inv (commands.foldl sys.take t) S' outs' ∧
      result = ⟨S', (commands.foldl sys.take t).forwarded,
        (commands.foldl sys.take t).answered ++ outs'⟩ := by
  induction commands generalizing t S outs with
  | nil =>
    refine ⟨S, outs, ht, ?_⟩
    have hfinal : sys.performAll t.present t.pending = some (S, outs) := hsettled
    simp only [List.foldl_nil, finish, hfinal, Option.map_some, Option.some.injEq] at hresult
    exact hresult.symm
  | cons i rest ih =>
    obtain ⟨hi, hrest⟩ := hok
    cases hperform : sys.performAll (sys.advance (sys.decide t.present i).advances S)
        (sys.decide t.present i).effects with
    | some q =>
      refine ih ?_ (hstep t i S outs q.1 q.2 ht hi hsettled hperform) hrest hresult
      rw [settled_take, hsettled, Option.bind_some, hperform]
      rfl
    | none =>
      -- a batch whose effects fail on the way does not come through
      exfalso
      have hfails : ∀ (later : List ι) (u : Turn σ ε ρ ω), sys.settled u = none →
          sys.finish (later.foldl sys.take u) = none := by
        intro later
        induction later with
        | nil =>
          intro u hu
          have hfinal : sys.performAll u.present u.pending = none := hu
          simp only [List.foldl_nil, finish, hfinal, Option.map_none]
        | cons j more ihmore =>
          intro u hu
          apply ihmore (sys.take u j)
          rw [settled_take, hu]
          rfl
      have hnone := hfails rest (sys.take t i) (by
        rw [settled_take, hsettled, Option.bind_some, hperform]
        rfl)
      rw [List.foldl_cons, hnone] at hresult
      cases hresult

/-- If moreover the effects of a command never fail on a settled state that satisfies the
invariant, every batch comes through. -/
theorem finish_total
    (hstep : ∀ t i S outs, Inv t S outs → Ok t i → sys.settled t = some (S, outs) →
      ∃ S' outs', sys.performAll (sys.advance (sys.decide t.present i).advances S)
          (sys.decide t.present i).effects = some (S', outs') ∧
        Inv (sys.take t i) S' (outs ++ outs'))
    {commands : List ι} {t : Turn σ ε ρ ω} {S : σ} {outs : List ω}
    (hsettled : sys.settled t = some (S, outs)) (ht : Inv t S outs)
    (hok : Along sys.take Ok t commands) :
    ∃ result, sys.finish (commands.foldl sys.take t) = some result := by
  induction commands generalizing t S outs with
  | nil =>
    have hfinal : sys.performAll t.present t.pending = some (S, outs) := hsettled
    refine ⟨⟨S, t.forwarded, t.answered ++ outs⟩, ?_⟩
    simp only [List.foldl_nil, finish, hfinal, Option.map_some]
  | cons i rest ih =>
    obtain ⟨hi, hrest⟩ := hok
    obtain ⟨S', outs', hperform, hinv⟩ := hstep t i S outs ht hi hsettled
    refine ih ?_ hinv hrest
    rw [settled_take, hsettled, Option.bind_some, hperform]
    rfl

end Invariants

/-! ### Batches and single commands -/

/-- Two decisions that come to the same when they are carried out on `S`. -/
def SameOutcome (S : σ) (d d' : Decision α ε ρ ω) : Prop :=
  d.forwarded = d'.forwarded ∧ d.answered = d'.answered ∧
    sys.performAll (sys.advance d.advances S) d.effects =
      sys.performAll (sys.advance d'.advances S) d'.effects

/-- A command is not disturbed by what is pending before it: the pending effects can be
performed and make no difference to what the command comes to, they send nothing that a
direct answer to it would overtake, and its own effects can be performed after them. -/
def Undisturbed (t : Turn σ ε ρ ω) (i : ι) : Prop :=
  ∃ S outs, sys.settled t = some (S, outs) ∧
    sys.SameOutcome S (sys.decide t.present i) (sys.decide S i) ∧
    ((sys.decide t.present i).answered ≠ [] → outs = []) ∧
    (sys.performAll (sys.advance (sys.decide t.present i).advances S)
      (sys.decide t.present i).effects).isSome = true

/-- From any turn on, finishing the batch is handling the commands that remain one by one on the
settled state, with what the turn has forwarded and answered in front. -/
theorem finish_eq_each {commands : List ι} {t : Turn σ ε ρ ω} {S : σ} {outs : List ω}
    (hsettled : sys.settled t = some (S, outs))
    (h : Along sys.take sys.Undisturbed t commands) :
    sys.finish (commands.foldl sys.take t) =
      (sys.each S commands).map fun later =>
        ⟨later.state, t.forwarded ++ later.forwarded, t.answered ++ outs ++ later.sent⟩ := by
  induction commands generalizing t S outs with
  | nil =>
    have hfinal : sys.performAll t.present t.pending = some (S, outs) := hsettled
    simp only [List.foldl_nil, finish, hfinal, Option.map_some, each, List.append_nil]
  | cons i rest ih =>
    obtain ⟨⟨S₁, outs₁, hsettled₁, hsame, hanswer, hsome⟩, hrest⟩ := h
    rw [hsettled] at hsettled₁
    cases hsettled₁
    obtain ⟨hforwarded, hanswered, heffects⟩ := hsame
    obtain ⟨⟨S', outs'⟩, hperform⟩ := Option.isSome_iff_exists.mp hsome
    have hnext : sys.settled (sys.take t i) = some (S', outs ++ outs') := by
      rw [settled_take, hsettled, Option.bind_some, hperform]
      rfl
    have hone : sys.batch S [i] =
        some ⟨S', (sys.decide t.present i).forwarded,
          (sys.decide t.present i).answered ++ outs'⟩ := by
      simp only [batch, List.foldl_cons, List.foldl_nil, finish, take, List.nil_append,
        ← heffects, hperform, Option.map_some, hforwarded, hanswered]
    -- the direct answer comes before the output of the effects, in the batch of all and alone
    have hcomm : (sys.decide t.present i).answered ++ outs
        = outs ++ (sys.decide t.present i).answered := by
      by_cases hnil : (sys.decide t.present i).answered = []
      · rw [hnil, List.nil_append, List.append_nil]
      · rw [hanswer hnil, List.nil_append, List.append_nil]
    rw [List.foldl_cons, ih hnext hrest, each, hone, Option.bind_some, Option.map_map]
    congr 1
    funext later
    simp only [take, Function.comp_apply, List.append_assoc, Worked.mk.injEq, true_and]
    rw [← List.append_assoc _ outs, hcomm, List.append_assoc]

/-- **Batch equivalence.**  If no command of a batch is disturbed, the batch does what its
commands do one after the other. -/
theorem batch_eq_each {s : σ} {commands : List ι}
    (h : Along sys.take sys.Undisturbed { present := s } commands) :
    sys.batch s commands = sys.each s commands := by
  rw [batch, sys.finish_eq_each (sys.settled_start s) h]
  simp

end DeferredSystem
