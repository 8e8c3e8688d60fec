import Mathlib.Data.List.DropRight
import Mathlib.Data.List.Nodup

/-!
# Base64

Base64 over any alphabet: three bytes become four digits, and what is left at the end is
filled up with padding.  The decoder also reads text whose padding is missing; the one that
insists on whole groups is `decodePadded`.
-/

namespace DsaBroker

/-- Sixty-four digits and a character for padding. -/
structure Base64Alphabet (χ : Type) where
  digit : Nat → χ
  value : χ → Option Nat
  pad : χ
  value_digit : ∀ n, n < 64 → value (digit n) = some n
  value_pad : value pad = none

namespace Base64Alphabet

variable {χ : Type}

/-- The alphabet with these digits, in order. -/
def ofTable [DecidableEq χ] (table : List χ) (pad : χ) (hlength : table.length = 64)
    (hnodup : table.Nodup) (hpad : pad ∉ table) : Base64Alphabet χ where
  digit := fun n => table.getD n pad
  value := fun c => if c ∈ table then some (table.idxOf c) else none
  pad := pad
  value_digit := by
    intro n hn
    have hlt : n < table.length := hlength ▸ hn
    have hdigit : table.getD n pad = table[n] := by simp [hlt]
    rw [hdigit, if_pos (List.getElem_mem hlt), hnodup.idxOf_getElem n hlt]
  value_pad := if_neg hpad

variable (a : Base64Alphabet χ)

/-! ### Encoding -/

/-- The digits without the padding. -/
def encodeDigits : List UInt8 → List χ
  | [] => []
  | [x] => [a.digit (x.toNat / 4), a.digit (x.toNat % 4 * 16)]
  | [x, y] =>
      [a.digit (x.toNat / 4), a.digit (x.toNat % 4 * 16 + y.toNat / 16),
        a.digit (y.toNat % 16 * 4)]
  | x :: y :: z :: rest =>
      a.digit (x.toNat / 4) :: a.digit (x.toNat % 4 * 16 + y.toNat / 16) ::
        a.digit (y.toNat % 16 * 4 + z.toNat / 64) :: a.digit (z.toNat % 64) ::
        encodeDigits rest

/-- How many padding characters fill up a group. -/
def missing (length : Nat) : Nat := (4 - length % 4) % 4

def addPadding (text : List χ) : List χ := text ++ List.replicate (missing text.length) a.pad

def encode (bytes : List UInt8) : List χ := a.addPadding (a.encodeDigits bytes)

theorem length_encodeDigits : ∀ bytes : List UInt8,
    (a.encodeDigits bytes).length = (4 * bytes.length + 2) / 3
  | [] => rfl
  | [_] => by simp only [encodeDigits, List.length_cons, List.length_nil]
  | [_, _] => by simp only [encodeDigits, List.length_cons, List.length_nil]
  | x :: y :: z :: rest => by
      have ih := length_encodeDigits rest
      simp only [encodeDigits, List.length_cons, ih]
      omega

/-! ### Decoding -/

def oneByte (p q : χ) : Option (List UInt8) := do
  let i ← a.value p
  let j ← a.value q
  some [UInt8.ofNat (i * 4 + j / 16)]

def twoBytes (p q r : χ) : Option (List UInt8) := do
  let i ← a.value p
  let j ← a.value q
  let k ← a.value r
  some [UInt8.ofNat (i * 4 + j / 16), UInt8.ofNat (j % 16 * 16 + k / 4)]

def threeBytes (p q r s : χ) : Option (List UInt8) := do
  let i ← a.value p
  let j ← a.value q
  let k ← a.value r
  let l ← a.value s
  some [UInt8.ofNat (i * 4 + j / 16), UInt8.ofNat (j % 16 * 16 + k / 4),
    UInt8.ofNat (k % 4 * 64 + l)]

variable [DecidableEq χ]

/-- Decoding; the padding of the last group may be missing, but not half of it. -/
def decode : List χ → Option (List UInt8)
  | [] => some []
  | [_] => none
  | [p, q] => a.oneByte p q
  | [p, q, r] => a.twoBytes p q r
  | p :: q :: r :: s :: rest =>
      if s = a.pad ∧ rest = [] then
        if r = a.pad then a.oneByte p q else a.twoBytes p q r
      else do
        let bytes ← a.threeBytes p q r s
        let more ← decode rest
        some (bytes ++ more)

/-- Decoding of whole groups only. -/
def decodePadded (text : List χ) : Option (List UInt8) :=
  if text.length % 4 = 0 then a.decode text else none

def stripPadding (text : List χ) : List χ := text.rdropWhile (· = a.pad)

/-! ### Digits are no padding -/

omit [DecidableEq χ] in
theorem digit_ne_pad {n : Nat} (h : n < 64) : a.digit n ≠ a.pad := by
  intro heq
  have hvalue := a.value_digit n h
  rw [heq, a.value_pad] at hvalue
  cases hvalue

omit [DecidableEq χ] in
theorem mem_encodeDigits {bytes : List UInt8} {c : χ}
    (h : c ∈ a.encodeDigits bytes) : ∃ n < 64, c = a.digit n := by
  induction bytes using encodeDigits.induct with
  | case1 => exact absurd h List.not_mem_nil
  | case2 x =>
    have hx := x.toNat_lt
    simp only [encodeDigits, List.mem_cons, List.not_mem_nil, or_false] at h
    rcases h with rfl | rfl
    · exact ⟨_, by omega, rfl⟩
    · exact ⟨_, by omega, rfl⟩
  | case3 x y =>
    have hx := x.toNat_lt
    have hy := y.toNat_lt
    simp only [encodeDigits, List.mem_cons, List.not_mem_nil, or_false] at h
    rcases h with rfl | rfl | rfl
    · exact ⟨_, by omega, rfl⟩
    · exact ⟨_, by omega, rfl⟩
    · exact ⟨_, by omega, rfl⟩
  | case4 x y z rest ih =>
    have hx := x.toNat_lt
    have hy := y.toNat_lt
    have hz := z.toNat_lt
    simp only [encodeDigits, List.mem_cons] at h
    rcases h with rfl | rfl | rfl | rfl | hrest
    · exact ⟨_, by omega, rfl⟩
    · exact ⟨_, by omega, rfl⟩
    · exact ⟨_, by omega, rfl⟩
    · exact ⟨_, by omega, rfl⟩
    · exact ih hrest

omit [DecidableEq χ] in
theorem pad_not_mem_encodeDigits (bytes : List UInt8) : a.pad ∉ a.encodeDigits bytes := by
  intro h
  obtain ⟨n, hn, heq⟩ := a.mem_encodeDigits h
  exact a.digit_ne_pad hn heq.symm

/-- What was stripped can be added again. -/
theorem stripPadding_encode (bytes : List UInt8) :
    a.stripPadding (a.encode bytes) = a.encodeDigits bytes := by
  have hpad := a.pad_not_mem_encodeDigits bytes
  have hstrip : ∀ (k : Nat) (text : List χ), a.pad ∉ text →
      a.stripPadding (text ++ List.replicate k a.pad) = text := by
    intro k text htext
    induction k with
    | zero =>
      rw [List.replicate_zero, List.append_nil, stripPadding, List.rdropWhile_eq_self_iff]
      intro hne hlast
      exact htext (of_decide_eq_true hlast ▸ List.getLast_mem hne)
    | succ k ih =>
      have hlast : decide (a.pad = a.pad) = true := decide_eq_true rfl
      rw [List.replicate_succ', ← List.append_assoc, stripPadding,
        List.rdropWhile_concat_pos (fun c => decide (c = a.pad)) _ _ hlast]
      exact ih
  exact hstrip _ _ hpad

/-! ### Round trip -/

omit [DecidableEq χ] in
theorem oneByte_digits (x : UInt8) :
    a.oneByte (a.digit (x.toNat / 4)) (a.digit (x.toNat % 4 * 16)) = some [x] := by
  have hx := x.toNat_lt
  have hfirst : x.toNat / 4 * 4 + x.toNat % 4 * 16 / 16 = x.toNat := by omega
  simp only [oneByte, a.value_digit _ (show x.toNat / 4 < 64 by omega),
    a.value_digit _ (show x.toNat % 4 * 16 < 64 by omega), Option.bind_eq_bind, Option.bind_some,
    hfirst, UInt8.ofNat_toNat]

omit [DecidableEq χ] in
theorem twoBytes_digits (x y : UInt8) :
    a.twoBytes (a.digit (x.toNat / 4)) (a.digit (x.toNat % 4 * 16 + y.toNat / 16))
      (a.digit (y.toNat % 16 * 4)) = some [x, y] := by
  have hx := x.toNat_lt
  have hy := y.toNat_lt
  have hfirst : x.toNat / 4 * 4 + (x.toNat % 4 * 16 + y.toNat / 16) / 16 = x.toNat := by omega
  have hsecond : (x.toNat % 4 * 16 + y.toNat / 16) % 16 * 16 + y.toNat % 16 * 4 / 4 = y.toNat := by
    omega
  simp only [twoBytes, a.value_digit _ (show x.toNat / 4 < 64 by omega),
    a.value_digit _ (show x.toNat % 4 * 16 + y.toNat / 16 < 64 by omega),
    a.value_digit _ (show y.toNat % 16 * 4 < 64 by omega), Option.bind_eq_bind, Option.bind_some,
    hfirst, hsecond, UInt8.ofNat_toNat]

omit [DecidableEq χ] in
theorem threeBytes_digits (x y z : UInt8) :
    a.threeBytes (a.digit (x.toNat / 4)) (a.digit (x.toNat % 4 * 16 + y.toNat / 16))
      (a.digit (y.toNat % 16 * 4 + z.toNat / 64)) (a.digit (z.toNat % 64)) = some [x, y, z] := by
  have hx := x.toNat_lt
  have hy := y.toNat_lt
  have hz := z.toNat_lt
  have hfirst : x.toNat / 4 * 4 + (x.toNat % 4 * 16 + y.toNat / 16) / 16 = x.toNat := by omega
  have hsecond : (x.toNat % 4 * 16 + y.toNat / 16) % 16 * 16 +
      (y.toNat % 16 * 4 + z.toNat / 64) / 4 = y.toNat := by omega
  have hthird : (y.toNat % 16 * 4 + z.toNat / 64) % 4 * 64 + z.toNat % 64 = z.toNat := by omega
  simp only [threeBytes, a.value_digit _ (show x.toNat / 4 < 64 by omega),
    a.value_digit _ (show x.toNat % 4 * 16 + y.toNat / 16 < 64 by omega),
    a.value_digit _ (show y.toNat % 16 * 4 + z.toNat / 64 < 64 by omega),
    a.value_digit _ (show z.toNat % 64 < 64 by omega), Option.bind_eq_bind, Option.bind_some,
    hfirst, hsecond, hthird, UInt8.ofNat_toNat]

omit [DecidableEq χ] in
theorem encode_cons (x y z : UInt8) (rest : List UInt8) :
    a.encode (x :: y :: z :: rest) =
      a.digit (x.toNat / 4) :: a.digit (x.toNat % 4 * 16 + y.toNat / 16) ::
        a.digit (y.toNat % 16 * 4 + z.toNat / 64) :: a.digit (z.toNat % 64) :: a.encode rest := by
  have hmissing : ∀ n, missing (n + 1 + 1 + 1 + 1) = missing n := by
    intro n
    simp only [missing]
    omega
  simp only [encode, addPadding, encodeDigits, List.length_cons, hmissing, List.cons_append]

/-- Decoding gives back the bytes that were encoded. -/
theorem decode_encode (bytes : List UInt8) : a.decode (a.encode bytes) = some bytes := by
  induction bytes using encodeDigits.induct with
  | case1 => simp [encode, encodeDigits, addPadding, missing, decode]
  | case2 x =>
    have hpadding : a.encode [x] =
        [a.digit (x.toNat / 4), a.digit (x.toNat % 4 * 16), a.pad, a.pad] := rfl
    rw [hpadding, decode, if_pos ⟨rfl, rfl⟩, if_pos rfl, oneByte_digits]
  | case3 x y =>
    have hy := y.toNat_lt
    have hpadding : a.encode [x, y] =
        [a.digit (x.toNat / 4), a.digit (x.toNat % 4 * 16 + y.toNat / 16),
          a.digit (y.toNat % 16 * 4), a.pad] := rfl
    have hdigit := a.digit_ne_pad (show y.toNat % 16 * 4 < 64 by omega)
    rw [hpadding, decode, if_pos ⟨rfl, rfl⟩, if_neg hdigit, twoBytes_digits]
  | case4 x y z rest ih =>
    have hdigit := a.digit_ne_pad (show z.toNat % 64 < 64 by omega)
    have hbranch : ¬(a.digit (z.toNat % 64) = a.pad ∧ a.encode rest = []) := by
      intro h
      exact hdigit h.1
    rw [encode_cons, decode, if_neg hbranch, threeBytes_digits, ih]
    rfl

omit [DecidableEq χ] in
theorem length_addPadding (text : List χ) : (a.addPadding text).length % 4 = 0 := by
  rw [addPadding, List.length_append, List.length_replicate, missing]
  omega

theorem decodePadded_encode (bytes : List UInt8) :
    a.decodePadded (a.encode bytes) = some bytes := by
  have hlength : (a.encode bytes).length % 4 = 0 := a.length_addPadding (a.encodeDigits bytes)
  rw [decodePadded, if_pos hlength, decode_encode]

/-- Stripping the padding and adding it again loses nothing. -/
theorem decodePadded_addPadding_stripPadding (bytes : List UInt8) :
    a.decodePadded (a.addPadding (a.stripPadding (a.encode bytes))) = some bytes := by
  rw [stripPadding_encode]
  exact a.decodePadded_encode bytes

end Base64Alphabet

end DsaBroker
