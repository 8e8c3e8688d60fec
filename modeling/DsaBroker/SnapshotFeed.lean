import Mathlib.Data.List.Induction
import Mathlib.Data.Set.Insert

/-!
# A set announced by a snapshot and updates

A reader follows a set that changes.  It gets a snapshot of the set, in pieces, and an update for
every change; the pieces wait until they are sent, while the updates go out at once.  A feed is
faithful if the set is what the reader will see when the rest of the snapshot has come: then,
once everything is sent, the reader sees the set (`Feed.Faithful.settled`).

Adding and sending keep a feed faithful.  Removing an element does so exactly if the element is
not in the rest of the snapshot (`Feed.Faithful.remove_iff`): what is sent later would bring it
back.
-/

/-- A change of a set. -/
inductive Update (α : Type) where
  | add (a : α)
  | remove (a : α)
deriving DecidableEq

variable {α : Type}

section

variable [DecidableEq α]

/-- The reader's view after an update. -/
def Update.applied (view : List α) : Update α → List α
  | add a => if a ∈ view then view else view ++ [a]
  | remove a => view.filter (· ≠ a)

/-- What the reader sees after some updates. -/
def viewOf (updates : List (Update α)) : List α := updates.foldl Update.applied []

theorem viewOf_snoc (updates : List (Update α)) (last : Update α) :
    viewOf (updates ++ [last]) = last.applied (viewOf updates) := by
  rw [viewOf, List.foldl_append]
  rfl

theorem mem_viewOf_add {updates : List (Update α)} {a b : α} :
    b ∈ viewOf (updates ++ [.add a]) ↔ b = a ∨ b ∈ viewOf updates := by
  rw [viewOf_snoc, Update.applied]
  split
  case isTrue ha =>
    constructor
    · exact Or.inr
    · rintro (rfl | hb)
      · exact ha
      · exact hb
  case isFalse => rw [List.mem_append, List.mem_singleton, or_comm]

theorem mem_viewOf_remove {updates : List (Update α)} {a b : α} :
    b ∈ viewOf (updates ++ [.remove a]) ↔ b ∈ viewOf updates ∧ b ≠ a := by
  rw [viewOf_snoc, Update.applied, List.mem_filter, decide_eq_true_eq]

theorem mem_viewOf_adds {updates : List (Update α)} {names : List α} {b : α} :
    b ∈ viewOf (updates ++ names.map .add) ↔ b ∈ viewOf updates ∨ b ∈ names := by
  induction names generalizing updates with
  | nil => simp
  | cons a rest ih =>
    rw [List.map_cons, List.append_cons, ih, mem_viewOf_add, List.mem_cons, or_assoc,
      or_left_comm]

/-- The element that an update is about. -/
def Update.element : Update α → α
  | add a => a
  | remove a => a

/-- Whether an element is seen depends on the updates about it. -/
theorem mem_viewOf_filter {updates : List (Update α)} {a : α} :
    a ∈ viewOf (updates.filter fun u => u.element = a) ↔ a ∈ viewOf updates := by
  induction updates using List.reverseRecOn with
  | nil => exact Iff.rfl
  | append_singleton before last ih =>
    rw [List.filter_append, List.filter_cons, List.filter_nil]
    rcases last with b | b
    · rw [Update.element, mem_viewOf_add, ← ih]
      split_ifs with hb
      · rw [mem_viewOf_add]
      · have hne : a ≠ b := fun heq => hb (decide_eq_true heq.symm)
        rw [List.append_nil, or_iff_right hne]
    · rw [Update.element, mem_viewOf_remove, ← ih]
      split_ifs with hb
      · rw [mem_viewOf_remove]
      · have hne : a ≠ b := fun heq => hb (decide_eq_true heq.symm)
        rw [List.append_nil, and_iff_left hne]

end

/-! ### Feeds -/

/-- The set, the updates that go to the reader in this order, and the part of the snapshot that
is not sent. -/
structure Feed (α : Type) where
  members : Set α
  updates : List (Update α)
  unsent : List α

namespace Feed

/-- An element is added, and announced. -/
def add (f : Feed α) (a : α) : Feed α :=
  ⟨insert a f.members, f.updates ++ [.add a], f.unsent⟩

/-- An element is removed, and announced. -/
def remove (f : Feed α) (a : α) : Feed α :=
  ⟨f.members \ {a}, f.updates ++ [.remove a], f.unsent⟩

/-- A piece of the snapshot is sent, and the rest remains. -/
def send (f : Feed α) (piece rest : List α) : Feed α :=
  ⟨f.members, f.updates ++ piece.map .add, rest⟩

variable [DecidableEq α]

def Faithful (f : Feed α) : Prop := ∀ a, a ∈ f.members ↔ a ∈ viewOf f.updates ∨ a ∈ f.unsent

namespace Faithful

variable {f : Feed α}

/-- A snapshot of the set, of which nothing is sent. -/
theorem start {members : Set α} {snapshot : List α} (h : ∀ a, a ∈ snapshot ↔ a ∈ members) :
    Faithful ⟨members, [], snapshot⟩ := by
  intro a
  rw [← h a]
  constructor
  · exact Or.inr
  · rintro (hnone | ha)
    · cases hnone
    · exact ha

theorem add (h : f.Faithful) (a : α) : (f.add a).Faithful := by
  intro b
  simp only [Feed.add, Set.mem_insert_iff, mem_viewOf_add, h b, or_assoc]

/-- An element that is removed must not be in the rest of the snapshot. -/
theorem remove_iff (h : f.Faithful) (a : α) : (f.remove a).Faithful ↔ a ∉ f.unsent := by
  constructor
  · intro hremove ha
    have hmember := (hremove a).mpr (Or.inr ha)
    exact hmember.2 rfl
  · intro ha b
    simp only [Feed.remove, Set.mem_sdiff, Set.mem_singleton_iff, mem_viewOf_remove, h b]
    constructor
    · rintro ⟨hview | hunsent, hne⟩
      · exact Or.inl ⟨hview, hne⟩
      · exact Or.inr hunsent
    · rintro (⟨hview, hne⟩ | hunsent)
      · exact ⟨Or.inl hview, hne⟩
      · exact ⟨Or.inr hunsent, fun heq => ha (heq ▸ hunsent)⟩

theorem send (h : f.Faithful) {piece rest : List α} (hunsent : f.unsent = piece ++ rest) :
    (f.send piece rest).Faithful := by
  intro b
  simp only [Feed.send, mem_viewOf_adds, h b, hunsent, List.mem_append, or_assoc]

/-- Once the snapshot is sent, the reader sees the set. -/
theorem settled (h : f.Faithful) (hunsent : f.unsent = []) (a : α) :
    a ∈ viewOf f.updates ↔ a ∈ f.members := by
  rw [h a, hunsent]
  simp

end Faithful

end Feed
