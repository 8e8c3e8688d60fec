import Mathlib.Data.List.Basic

/-!
# Queues that drop what they have no room for

A bounded buffer between a producer that is never held up and a consumer that asks for one element
at a time.  An element that finds the buffer full is dropped, or it takes the place of others.
Whatever the strategy, what arrives was offered, in that order.
-/

/-- What is done with an element that finds the buffer full. -/
inductive OverflowStrategy where
  /-- the oldest element is dropped -/
  | dropHead
  /-- the youngest element is dropped -/
  | dropTail
  /-- all of the elements are dropped -/
  | dropBuffer
  /-- the element itself is dropped -/
  | dropNew
deriving DecidableEq, Repr

structure SourceQueue (α : Type) where
  maxBuffer : Nat
  strategy : OverflowStrategy
  buffer : List α
  /-- The consumer has asked for an element and has none yet. -/
  demand : Bool
  /-- What the consumer has got. -/
  pushed : List α
  pos : 0 < maxBuffer
  bounded : buffer.length ≤ maxBuffer

namespace SourceQueue

variable {α : Type}

def start (maxBuffer : Nat) (strategy : OverflowStrategy) (pos : 0 < maxBuffer) :
    SourceQueue α where
  maxBuffer := maxBuffer
  strategy := strategy
  buffer := []
  demand := false
  pushed := []
  pos := pos
  bounded := Nat.zero_le _

/-- The buffer with one more element. -/
def buffered (q : SourceQueue α) (a : α) : List α :=
  if q.buffer.length < q.maxBuffer then q.buffer ++ [a]
  else
    match q.strategy with
    | .dropHead => q.buffer.tail ++ [a]
    | .dropTail => q.buffer.dropLast ++ [a]
    | .dropBuffer => [a]
    | .dropNew => q.buffer

theorem length_buffered_le (q : SourceQueue α) (a : α) :
    (q.buffered a).length ≤ q.maxBuffer := by
  have hpos := q.pos
  have hbounded := q.bounded
  rw [buffered]
  split_ifs with hroom
  · rw [List.length_append, List.length_singleton]
    omega
  · split
    · rw [List.length_append, List.length_tail, List.length_singleton]
      omega
    · rw [List.length_append, List.length_dropLast, List.length_singleton]
      omega
    · exact hpos
    · exact hbounded

def enqueue (q : SourceQueue α) (a : α) : SourceQueue α :=
  { q with buffer := q.buffered a, bounded := q.length_buffered_le a }

/-- The consumer asks for an element, and gets it as soon as there is one. -/
def pull (q : SourceQueue α) : SourceQueue α :=
  match h : q.buffer with
  | [] => { q with demand := true }
  | a :: rest =>
      { q with
        buffer := rest
        demand := false
        pushed := q.pushed ++ [a]
        bounded := by
          have hbounded := q.bounded
          rw [h, List.length_cons] at hbounded
          omega }

def offer (q : SourceQueue α) (a : α) : SourceQueue α :=
  if q.demand then (q.enqueue a).pull else q.enqueue a

/-- What has arrived or may still arrive. -/
def kept (q : SourceQueue α) : List α := q.pushed ++ q.buffer

@[simp] theorem kept_start (maxBuffer : Nat) (strategy : OverflowStrategy)
    (pos : 0 < maxBuffer) : (start maxBuffer strategy pos : SourceQueue α).kept = [] := rfl

@[simp] theorem kept_pull (q : SourceQueue α) : q.pull.kept = q.kept := by
  unfold pull
  split
  case h_1 => rfl
  case h_2 a rest hbuffer =>
    have hkept : q.kept = q.pushed ++ a :: rest := by rw [kept, hbuffer]
    rw [hkept, kept, List.append_assoc, List.singleton_append]

theorem kept_offer (q : SourceQueue α) (a : α) :
    (q.offer a).kept = q.pushed ++ q.buffered a := by
  rw [offer]
  split_ifs
  · rw [kept_pull]
    rfl
  · rfl

@[simp] theorem strategy_offer (q : SourceQueue α) (a : α) :
    (q.offer a).strategy = q.strategy := by
  rw [offer, pull]
  split_ifs
  · split <;> rfl
  · rfl

@[simp] theorem strategy_pull (q : SourceQueue α) : q.pull.strategy = q.strategy := by
  rw [pull]
  split <;> rfl

@[simp] theorem maxBuffer_offer (q : SourceQueue α) (a : α) :
    (q.offer a).maxBuffer = q.maxBuffer := by
  rw [offer, pull]
  split_ifs
  · split <;> rfl
  · rfl

@[simp] theorem maxBuffer_pull (q : SourceQueue α) : q.pull.maxBuffer = q.maxBuffer := by
  rw [pull]
  split <;> rfl

theorem buffered_sublist (q : SourceQueue α) (a : α) :
    (q.buffered a).Sublist (q.buffer ++ [a]) := by
  rw [buffered]
  split_ifs
  · exact List.Sublist.refl _
  · split
    · exact (List.tail_sublist _).append_right _
    · exact (List.dropLast_sublist _).append_right _
    · exact List.sublist_append_right _ _
    · exact List.sublist_append_left _ _

/-- **Order.**  What is kept of the elements was offered, in that order. -/
theorem kept_offer_sublist {q : SourceQueue α} {offered : List α} (h : q.kept.Sublist offered)
    (a : α) : (q.offer a).kept.Sublist (offered ++ [a]) := by
  have hkept : (q.pushed ++ (q.buffer ++ [a])).Sublist (offered ++ [a]) := by
    rw [← List.append_assoc]
    exact h.append_right [a]
  rw [kept_offer]
  exact ((q.buffered_sublist a).append_left q.pushed).trans hkept

/-- **Room.**  Nothing is dropped while there is room. -/
theorem kept_offer_of_room {q : SourceQueue α} (h : q.buffer.length < q.maxBuffer) (a : α) :
    (q.offer a).kept = q.kept ++ [a] := by
  rw [kept_offer, buffered, if_pos h, kept, List.append_assoc]

/-- The strategies that never drop the first element of the buffer. -/
def KeepsFirst (q : SourceQueue α) : Prop :=
  q.strategy = .dropNew ∨ q.strategy = .dropTail ∧ 1 < q.maxBuffer

theorem head?_buffered {q : SourceQueue α} (h : q.KeepsFirst) {first : α}
    (hfirst : q.buffer.head? = some first) (a : α) :
    (q.buffered a).head? = some first := by
  obtain ⟨rest, hbuffer⟩ := List.head?_eq_some_iff.mp hfirst
  rw [buffered]
  split_ifs with hroom
  · rw [List.head?_append_of_ne_nil _ (by rw [hbuffer]; exact List.cons_ne_nil _ _), hfirst]
  · rcases h with hnew | ⟨htail, hmany⟩
    · rw [hnew]
      exact hfirst
    · rw [htail]
      rcases rest with _ | ⟨second, rest⟩
      · rw [hbuffer, List.length_singleton] at hroom
        omega
      · rw [hbuffer, List.dropLast_cons_of_ne_nil (List.cons_ne_nil _ _)]
        rfl

/-- **The first element.**  It is not lost, where the strategy drops younger ones. -/
theorem head?_kept_offer {q : SourceQueue α} (h : q.KeepsFirst) {first : α}
    (hfirst : q.kept.head? = some first) (a : α) : (q.offer a).kept.head? = some first := by
  rw [kept_offer]
  rw [kept] at hfirst
  rcases hpushed : q.pushed with _ | ⟨b, more⟩
  · rw [hpushed, List.nil_append] at hfirst
    exact head?_buffered h hfirst a
  · rw [hpushed] at hfirst
    exact hfirst

end SourceQueue
