import Mathlib.Data.List.Basic

/-!
# Stores of a snapshot and the events since

What an event-sourced system keeps on disk: the last snapshot that was stored, if any, and the
events journaled since.  Recovery starts from the snapshot, or from nothing, and replays the
events.  A live state is recoverable if recovery comes through with a state that is related to
it, for whatever relation the system calls agreement.
-/

/-- The last snapshot, and the events journaled since. -/
structure EventStore (π ε : Type) where
  snapshot : Option π
  journal : List ε

namespace EventStore

variable {π ε σ : Type}

def empty : EventStore π ε := ⟨none, []⟩

/-- Journals an event. -/
def append (store : EventStore π ε) (event : ε) : EventStore π ε :=
  { store with journal := store.journal ++ [event] }

/-- Stores a snapshot; the events up to it are deleted. -/
def save (_ : EventStore π ε) (snapshot : π) : EventStore π ε := ⟨some snapshot, []⟩

/-- `offer` is the state that a snapshot, or none, starts recovery from. -/
def recover (offer : Option π → σ) (restore : σ → ε → Option σ) (store : EventStore π ε) :
    Option σ := store.journal.foldlM restore (offer store.snapshot)

/-- Recovery comes through, with a state related to the live one. -/
def Recoverable (offer : Option π → σ) (restore : σ → ε → Option σ) (Agrees : σ → σ → Prop)
    (store : EventStore π ε) (live : σ) : Prop :=
  ∃ s, store.recover offer restore = some s ∧ Agrees s live

variable {offer : Option π → σ} {restore : σ → ε → Option σ} {Agrees : σ → σ → Prop}
  {store : EventStore π ε} {live live' : σ}

/-- What replay does as the live step has done it can be journaled. -/
theorem Recoverable.append (h : Recoverable offer restore Agrees store live) {event : ε}
    (hevent : ∀ s, Agrees s live → ∃ s', restore s event = some s' ∧ Agrees s' live') :
    Recoverable offer restore Agrees (store.append event) live' := by
  obtain ⟨s, hrecover, hagrees⟩ := h
  obtain ⟨s', hrestore, hagrees'⟩ := hevent s hagrees
  refine ⟨s', ?_, hagrees'⟩
  rw [recover] at hrecover
  rw [recover, EventStore.append, List.foldlM_append, hrecover]
  simp only [List.foldlM_cons, List.foldlM_nil, hrestore, Option.bind_eq_bind, Option.bind_some,
    Option.pure_def]

theorem recoverable_save (store : EventStore π ε) {snapshot : π}
    (h : Agrees (offer (some snapshot)) live) :
    Recoverable offer restore Agrees (store.save snapshot) live := ⟨_, rfl, h⟩

/-- The live state may change to one that agrees with the same states. -/
theorem Recoverable.congr (h : Recoverable offer restore Agrees store live)
    (hsame : ∀ s, Agrees s live → Agrees s live') :
    Recoverable offer restore Agrees store live' := by
  obtain ⟨s, hrecover, hagrees⟩ := h
  exact ⟨s, hrecover, hsame s hagrees⟩

end EventStore
