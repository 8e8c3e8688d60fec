import DsaBroker.Registries
import Mathlib.Algebra.Order.Ring.Int

/-!
# Ids taken in bulk

`inc(count)` takes `count` ids from a counter with a few operations on 32-bit integers, where
`inc` takes them one by one.  The counter starts again at `init` after `Int.MaxValue`, so the ids
that are taken in bulk are one interval, or two when the counter comes round (`incBy_eq_incs`).
-/

namespace DsaBroker

/-! ### Intervals -/

theorem intsUntil_self (start : Int) : intsUntil start start = [] := by
  simp [intsUntil]

theorem intsUntil_cons {start stop : Int} (h : start < stop) :
    intsUntil start stop = start :: intsUntil (start + 1) stop := by
  have hlength : (stop - start).toNat = (stop - (start + 1)).toNat + 1 := by omega
  rw [intsUntil, hlength, List.range_succ_eq_map, List.map_cons, List.map_map, intsUntil]
  refine congrArg₂ List.cons (by simp) (List.map_congr_left fun i _ => ?_)
  simp only [Function.comp_apply]
  omega

theorem intsUntil_append_last {start last : Int} (h : start ≤ last) :
    intsUntil start last ++ [last] = intsUntil start (last + 1) := by
  have hlength : (last + 1 - start).toNat = (last - start).toNat + 1 := by omega
  rw [intsUntil, intsUntil, hlength, List.range_succ, List.map_append, List.map_singleton]
  have hlast : start + ((last - start).toNat : Int) = last := by omega
  rw [hlast]

namespace IntCounter

/-! ### One by one -/

/-- The ids of `n` calls of `inc`, and the counter after them. -/
def incs (c : IntCounter) : Nat → List Int × IntCounter
  | 0 => ([], c)
  | n + 1 =>
      let later := c.inc.2.incs n
      (c.inc.1 :: later.1, later.2)

theorem incs_succ (c : IntCounter) (n : Nat) :
    c.incs (n + 1) = (c.value :: (c.inc.2.incs n).1, (c.inc.2.incs n).2) := rfl

theorem incs_add (c : IntCounter) (m n : Nat) :
    c.incs (m + n) = ((c.incs m).1 ++ ((c.incs m).2.incs n).1, ((c.incs m).2.incs n).2) := by
  induction m generalizing c with
  | zero => rw [Nat.zero_add, incs, List.nil_append]
  | succ m ih => rw [Nat.succ_add, incs_succ, ih, incs_succ, List.cons_append]

/-- Without coming round. -/
theorem incs_of_le {c : IntCounter} {n : Nat} (h : c.value + n ≤ maxInt) :
    c.incs n = (intsUntil c.value (c.value + n), { c with value := c.value + n }) := by
  induction n generalizing c with
  | zero => simp [incs, intsUntil_self]
  | succ n ih =>
    push_cast at h ⊢
    have hinc : c.inc.2 = { c with value := c.value + 1 } := by
      rw [inc, if_neg (by omega)]
    have hfrom : c.value + 1 + (n : Int) = c.value + (n + 1) := by omega
    have hrest := ih (c := { c with value := c.value + 1 }) (by simp only; omega)
    rw [incs_succ, hinc, hrest, intsUntil_cons (by omega : c.value < c.value + (n + 1))]
    simp only [hfrom]

/-- Up to the last id: the counter starts again. -/
theorem incs_to_maxInt {c : IntCounter} {n : Nat} (h : c.value + n = maxInt) :
    c.incs (n + 1) = (intsUntil c.value (maxInt + 1), { c with value := c.init }) := by
  have hlast : (IntCounter.mk c.init maxInt).incs 1 = ([maxInt], ⟨c.init, c.init⟩) := by
    rw [incs_succ, inc, if_pos rfl, incs]
  rw [incs_add, incs_of_le (le_of_eq h), h, hlast, intsUntil_append_last (by omega)]

/-! ### In bulk -/

/-- The counter has a value that it can reach. -/
structure InRange (c : IntCounter) : Prop where
  low : c.init ≤ c.value
  high : c.value ≤ maxInt

/-- A number that an `Int` can hold. -/
def FitsInt (n : Int) : Prop := -2147483648 ≤ n ∧ n ≤ maxInt

/-- The exact results of the operations that `inc(count)` executes, in their order. -/
def incByResults (c : IntCounter) (count : Int) : List Int :=
  let start := c.value
  (maxInt - count) ::
    if toInt32 (maxInt - count) ≥ start then [c.value + count]
    else
      [count - 1, maxInt - start, count - 1 - (maxInt - start),
        count - 1 - (maxInt - start) + c.init]

/-- The exact results of the operations of `n` calls of `inc`. -/
def incsResults (c : IntCounter) : Nat → List Int
  | 0 => []
  | n + 1 => (if c.value = maxInt then [] else [c.value + 1]) ++ c.inc.2.incsResults n

theorem InRange.inc {c : IntCounter} (h : c.InRange) (hinit : c.init ≤ maxInt) :
    c.inc.2.InRange := by
  obtain ⟨hlow, hhigh⟩ := h
  constructor
  · rw [inc_snd_init, inc_snd_value]
    split_ifs <;> omega
  · rw [inc_snd_value]
    split_ifs <;> omega

theorem fitsInt_incsResults {c : IntCounter} (h : c.InRange) (hinit : 0 ≤ c.init) (n : Nat) :
    ∀ x ∈ c.incsResults n, FitsInt x := by
  induction n generalizing c with
  | zero =>
    intro x hx
    cases hx
  | succ n ih =>
    intro x hx
    rcases List.mem_append.mp hx with hx | hx
    · have hlow := h.low
      have hhigh := h.high
      split_ifs at hx with hmax
      · cases hx
      · rw [List.mem_singleton.mp hx]
        exact ⟨by omega, by omega⟩
    · exact ih (h.inc (le_trans h.low h.high)) hinit x hx

/-- `maxInt - count` does not overflow. -/
theorem toInt32_room {n : Nat} (hn : (n : Int) ≤ maxInt) : toInt32 (maxInt - n) = maxInt - n :=
  toInt32_of_range (by simp only [maxInt] at *; omega) (by omega)

section

variable {c : IntCounter} {n : Nat}

theorem fitsInt_incByResults (hinit : c.init = 0 ∨ c.init = 1) (h : c.InRange)
    (hn : (n : Int) ≤ maxInt) : ∀ x ∈ c.incByResults n, FitsInt x := by
  obtain ⟨hlow, hhigh⟩ := h
  intro x hx
  rw [incByResults, toInt32_room hn] at hx
  unfold FitsInt
  unfold maxInt at *
  rcases List.mem_cons.mp hx with hx | hx
  · omega
  · split_ifs at hx with hroom
    · have hsum := List.mem_singleton.mp hx
      omega
    · simp only [List.mem_cons, List.not_mem_nil, or_false] at hx
      omega

/-- The branch of the sum. -/
theorem incBy_of_le (hlow : 0 ≤ c.value) (hsum : c.value + n ≤ maxInt) :
    c.incBy n = (intsUntil c.value (c.value + n), { c with value := c.value + n }) := by
  have hfits : toInt32 (c.value + n) = c.value + n := toInt32_of_range (by omega) hsum
  have hroom : toInt32 (maxInt - n) = maxInt - n := toInt32_room (by omega)
  simp only [incBy, hroom, hfits, if_pos (by omega : maxInt - n ≥ c.value)]

/-- The branch that comes round; `rest` ids are taken after the last one. -/
theorem incBy_of_gt {rest : Nat} (hinit : 0 ≤ c.init) (hround : c.init + rest ≤ maxInt)
    (hn : (n : Int) ≤ maxInt) (hsum : c.value + n = maxInt + 1 + rest) :
    c.incBy n =
      (intsUntil c.value (maxInt + 1) ++ intsUntil c.init (c.init + rest),
        { c with value := c.init + rest }) := by
  have hvalue : n - 1 - (maxInt - c.value) + c.init = c.init + rest := by omega
  have hfits : toInt32 (c.init + rest) = c.init + rest := toInt32_of_range (by omega) hround
  simp only [incBy, toInt32_room hn, if_neg (by omega : ¬ maxInt - n ≥ c.value), hvalue, hfits]

/-- `inc(count)` is `count` calls of `inc`. -/
theorem incBy_eq (hinit : c.init = 0 ∨ c.init = 1) (h : c.InRange) (hn : (n : Int) ≤ maxInt) :
    c.incBy n = c.incs n ∧ (c.incBy n).2.InRange := by
  obtain ⟨hlow, hhigh⟩ := h
  by_cases hsum : c.value + n ≤ maxInt
  · rw [incs_of_le hsum, incBy_of_le (by omega) hsum]
    exact ⟨rfl, ⟨by simp only; omega, hsum⟩⟩
  · -- first up to the last id, then from `init` again
    obtain ⟨first, hfirst⟩ := Int.eq_ofNat_of_zero_le (by omega : 0 ≤ maxInt - c.value)
    obtain ⟨rest, hrest⟩ := Int.eq_ofNat_of_zero_le (by omega : 0 ≤ c.value + n - maxInt - 1)
    have hround : c.init + rest ≤ maxInt := by omega
    have hbulk := incBy_of_gt (by omega) hround hn (by omega)
    have hcount : n = first + 1 + rest := by omega
    have hsplit : c.incs n = (intsUntil c.value (maxInt + 1) ++ intsUntil c.init (c.init + rest),
        { c with value := c.init + rest }) := by
      rw [hcount, incs_add, incs_to_maxInt (by omega : c.value + first = maxInt),
        incs_of_le (c := { c with value := c.init }) hround]
    rw [hsplit, hbulk]
    exact ⟨rfl, ⟨by simp only; omega, hround⟩⟩

end

end IntCounter

/-- **Bulk and single increments agree.**  `inc(count)` returns the ids of `count` calls of `inc`
and leaves the counter where they do; no operation of either overflows, and the value stays
between `init` and `Int.MaxValue`. -/
theorem incBy_eq_incs {c : IntCounter} (hinit : c.init = 0 ∨ c.init = 1) (h : c.InRange) {n : Nat}
    (hn : (n : Int) ≤ maxInt) :
    c.incBy n = c.incs n ∧ (∀ x ∈ c.incByResults n ++ c.incsResults n, IntCounter.FitsInt x) ∧
      (c.incBy n).2.InRange := by
  obtain ⟨heq, hrange⟩ := IntCounter.incBy_eq hinit h hn
  refine ⟨heq, ?_, hrange⟩
  intro x hx
  rcases List.mem_append.mp hx with hx | hx
  · exact IntCounter.fitsInt_incByResults hinit h hn x hx
  · exact IntCounter.fitsInt_incsResults h (by omega) n x hx

/-- Three ids from the last but one: the counter comes round to `init` and goes on. -/
theorem incBy_eq_incs_round :
    (IntCounter.mk 1 2147483646).incBy (3 : Nat) = ([2147483646, 2147483647, 1], ⟨1, 2⟩) :=
  (incBy_eq_incs (Or.inr rfl) ⟨by decide, by decide⟩ (by decide)).1.trans (by decide)

end DsaBroker
