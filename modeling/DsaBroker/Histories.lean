import Mathlib.Data.List.Induction

/-!
# The latest entry of a history

A history is a list of entries, the latest one last.  For one key of interest `touch` says what
an entry does to the value of the key: `none` leaves it alone, `some none` removes it and
`some (some a)` sets it.  `latest` is what the whole history leaves behind, and that is the
value of the last entry that touches the key (`latest_eq_some_iff`).
-/

namespace Histories

variable {ε α : Type}

/-- The value after an entry. -/
def settle (touch : ε → Option (Option α)) (value : Option α) (entry : ε) : Option α :=
  (touch entry).getD value

/-- The value that a history leaves. -/
def latest (touch : ε → Option (Option α)) (history : List ε) : Option α :=
  history.foldl (settle touch) none

theorem latest_append (touch : ε → Option (Option α)) (history later : List ε) :
    latest touch (history ++ later) = later.foldl (settle touch) (latest touch history) :=
  List.foldl_append

/-- The last entry that touches the key sets it to `a`. -/
def LastSet (touch : ε → Option (Option α)) (history : List ε) (a : α) : Prop :=
  ∃ before entry after, history = before ++ entry :: after ∧ touch entry = some (some a) ∧
    ∀ later ∈ after, touch later = none

theorem lastSet_snoc {touch : ε → Option (Option α)} {history : List ε} {last : ε} {a : α} :
    LastSet touch (history ++ [last]) a ↔
      touch last = some (some a) ∨ (touch last = none ∧ LastSet touch history a) := by
  constructor
  · rintro ⟨before, entry, after, hsplit, hentry, hafter⟩
    rcases List.eq_nil_or_concat after with rfl | ⟨rest, final, rfl⟩
    · obtain ⟨_, hlast⟩ := List.append_inj' hsplit rfl
      cases hlast
      exact Or.inl hentry
    · rw [List.concat_eq_append] at hsplit hafter
      rw [← List.cons_append, ← List.append_assoc] at hsplit
      obtain ⟨hhistory, hlast⟩ := List.append_inj' hsplit rfl
      cases hlast
      refine Or.inr ⟨hafter last List.mem_concat_self, before, entry, rest, hhistory, hentry, ?_⟩
      exact fun later hlater => hafter later (List.mem_append_left _ hlater)
  · rintro (hlast | ⟨hlast, before, entry, after, rfl, hentry, hafter⟩)
    · exact ⟨history, last, [], rfl, hlast, fun _ hlater => absurd hlater List.not_mem_nil⟩
    · refine ⟨before, entry, after ++ [last], ?_, hentry, ?_⟩
      · rw [List.append_assoc, List.cons_append]
      · intro later hlater
        rcases List.mem_append.mp hlater with hlater | hlater
        · exact hafter later hlater
        · rw [List.mem_singleton.mp hlater, hlast]

theorem latest_eq_some_iff {touch : ε → Option (Option α)} {history : List ε} {a : α} :
    latest touch history = some a ↔ LastSet touch history a := by
  induction history using List.reverseRecOn with
  | nil =>
    constructor
    · rintro ⟨⟩
    · rintro ⟨before, entry, after, hsplit, _⟩
      exact absurd hsplit.symm (List.append_ne_nil_of_right_ne_nil _ (List.cons_ne_nil _ _))
  | append_singleton history last ih =>
    rw [latest_append, List.foldl_cons, List.foldl_nil, settle, lastSet_snoc, ← ih]
    cases htouch : touch last with
    | none => simp only [Option.getD_none, reduceCtorEq, true_and, false_or]
    | some value => simp only [Option.getD_some, Option.some.injEq, reduceCtorEq, false_and,
        or_false]

end Histories
