import DsaBroker.RemoteKeys
import Mathlib.Algebra.Order.Ring.Int
import Mathlib.Tactic.Ring

/-!
# Bytes of a shared secret

`BigInteger.toByteArray` writes a number in two's complement, with as few bytes as will do: a
coordinate of 256 bits takes up to 33 of them, or fewer than 32.  `RemoteKey.normalize` fills up
or cuts off in front, and both leave the number as it is (`normalize_keeps_value`).
-/

namespace DsaBroker

/-! ### Unsigned numbers -/

/-- The low `k` bytes of a number, the highest one first. -/
def bigEndian (k n : Nat) : List UInt8 :=
  (List.range k).reverse.map fun i => UInt8.ofNat (n / 256 ^ i)

theorem length_bigEndian (k n : Nat) : (bigEndian k n).length = k := by
  rw [bigEndian, List.length_map, List.length_reverse, List.length_range]

theorem unsigned_bigEndian (k n : Nat) : unsigned (bigEndian k n) = n % 256 ^ k :=
  unsigned_map_range n k

theorem unsigned_append (front rest : List UInt8) :
    unsigned (front ++ rest) = unsigned front * 256 ^ rest.length + unsigned rest := by
  induction front with
  | nil => rw [List.nil_append, unsigned, Nat.zero_mul, Nat.zero_add]
  | cons b front ih =>
    rw [List.cons_append, unsigned, ih, unsigned, List.length_append, pow_add]
    ring

theorem unsigned_lt (data : List UInt8) : unsigned data < 256 ^ data.length := by
  induction data with
  | nil => exact Nat.one_pos
  | cons b rest ih =>
    have hb : b.toNat + 1 ≤ 256 := b.toNat_lt
    calc unsigned (b :: rest) = b.toNat * 256 ^ rest.length + unsigned rest := rfl
      _ < (b.toNat + 1) * 256 ^ rest.length := by rw [Nat.add_mul, Nat.one_mul]; omega
      _ ≤ 256 * 256 ^ rest.length := Nat.mul_le_mul_right _ hb
      _ = 256 ^ (b :: rest).length := by rw [List.length_cons, Nat.pow_succ, Nat.mul_comm]

/-- As many bytes stand for different numbers unless they are the same. -/
theorem eq_of_unsigned {data other : List UInt8} (hlength : data.length = other.length)
    (h : unsigned data = unsigned other) : data = other := by
  induction data generalizing other with
  | nil => exact (List.eq_nil_of_length_eq_zero hlength.symm).symm
  | cons b rest ih =>
    obtain ⟨c, more, rfl⟩ := List.exists_cons_of_length_pos
      (by rw [← hlength]; exact Nat.succ_pos _ : 0 < other.length)
    have htail : rest.length = more.length := Nat.succ.inj hlength
    have hrest := unsigned_lt rest
    have hmore := unsigned_lt more
    rw [unsigned, unsigned, htail] at h
    rw [htail] at hrest
    -- both heads are the quotient by the same power
    have hdiv : ∀ (x y : Nat), y < 256 ^ more.length →
        (x * 256 ^ more.length + y) / 256 ^ more.length = x := by
      intro x y hy
      rw [Nat.mul_comm, Nat.mul_add_div (Nat.pow_pos (by decide)), Nat.div_eq_of_lt hy,
        Nat.add_zero]
    have hhead : b.toNat = c.toNat := by
      rw [← hdiv b.toNat _ hrest, ← hdiv c.toNat _ hmore, h]
    rw [hhead] at h
    rw [UInt8.toNat_inj.mp hhead, ih htail (Nat.add_left_cancel h)]

/-! ### Two's complement -/

/-- `new BigInteger(data)` for bytes that are not empty: the first bit is the sign. -/
def signed : List UInt8 → Int
  | [] => 0
  | b :: rest =>
      if b.toNat < 128 then unsigned (b :: rest)
      else unsigned (b :: rest) - 256 ^ (rest.length + 1)

/-- The bytes stand for the number in two's complement, and no fewer bytes do. -/
structure IsMinimalTwosComplement (x : Int) (data : List UInt8) : Prop where
  nonempty : data ≠ []
  signed_eq : signed data = x
  minimal : ∀ other, other ≠ [] → signed other = x → data.length ≤ other.length

theorem toByteArray_eq (n : Nat) : toByteArray n = bigEndian (n.size / 8 + 1) n := rfl

theorem bigEndian_succ (k n : Nat) :
    bigEndian (k + 1) n = UInt8.ofNat (n / 256 ^ k) :: bigEndian k n := by
  rw [bigEndian, List.range_succ, List.reverse_append, List.reverse_singleton,
    List.singleton_append, List.map_cons, bigEndian]

theorem signed_toByteArray (n : Nat) : signed (toByteArray n) = n := by
  have hbyte : n / 256 ^ (n.size / 8) < 128 := by
    apply Nat.div_lt_of_lt_mul
    calc n < 2 ^ n.size := Nat.lt_size_self n
      _ ≤ 2 ^ (8 * (n.size / 8) + 7) := Nat.pow_le_pow_right (by decide) (by omega)
      _ = 256 ^ (n.size / 8) * 128 := by rw [Nat.pow_add, Nat.pow_mul]
  have hhead : (UInt8.ofNat (n / 256 ^ (n.size / 8))).toNat < 128 := by
    rw [UInt8.toNat_ofNat', Nat.mod_eq_of_lt (by omega)]
    exact hbyte
  have hvalue := unsigned_toByteArray n
  rw [toByteArray_eq, bigEndian_succ] at hvalue ⊢
  rw [signed, if_pos hhead, hvalue]

/-- A number that is not negative fits into the bits that the sign leaves. -/
theorem lt_of_signed_eq {n : Nat} {b : UInt8} {rest : List UInt8} (h : signed (b :: rest) = n) :
    n < 2 ^ (8 * rest.length + 7) := by
  rw [signed] at h
  split_ifs at h with hb
  · have hrest := unsigned_lt rest
    have hn : unsigned (b :: rest) = n := Int.ofNat.inj h
    calc n = b.toNat * 256 ^ rest.length + unsigned rest := hn.symm
      _ < (b.toNat + 1) * 256 ^ rest.length := by rw [Nat.add_mul, Nat.one_mul]; omega
      _ ≤ 128 * 256 ^ rest.length := Nat.mul_le_mul_right _ hb
      _ = 2 ^ (8 * rest.length + 7) := by rw [Nat.pow_add, Nat.pow_mul, Nat.mul_comm]
  · have hlt := unsigned_lt (b :: rest)
    rw [List.length_cons] at hlt
    have hcast : (unsigned (b :: rest) : Int) < 256 ^ (rest.length + 1) := by exact_mod_cast hlt
    omega

theorem toByteArray_isMinimal (n : Nat) : IsMinimalTwosComplement n (toByteArray n) where
  nonempty := by
    rw [toByteArray_eq, bigEndian_succ]
    exact List.cons_ne_nil _ _
  signed_eq := signed_toByteArray n
  minimal := by
    intro other hne hsigned
    obtain ⟨b, rest, rfl⟩ := List.exists_cons_of_ne_nil hne
    have hsize : n.size ≤ 8 * rest.length + 7 := Nat.size_le.mpr (lt_of_signed_eq hsigned)
    rw [toByteArray_eq, length_bigEndian, List.length_cons]
    omega

/-! ### `RemoteKey.normalize` -/

/-- The zeros in front do not count, and what is cut off is worth a multiple of `2 ^ 256`. -/
theorem unsigned_normalizeSecret_mod (data : List UInt8) :
    unsigned (normalizeSecret data) = unsigned data % 2 ^ 256 := by
  have hpow : 2 ^ 256 = 256 ^ 32 := by decide
  rw [normalizeSecret, unsigned_replicate_zero, hpow]
  by_cases hshort : data.length ≤ 32
  · rw [Nat.sub_eq_zero_of_le hshort, List.drop_zero]
    refine (Nat.mod_eq_of_lt ?_).symm
    exact lt_of_lt_of_le (unsigned_lt data) (Nat.pow_le_pow_right (by decide) hshort)
  · have hlength : (data.drop (data.length - 32)).length = 32 := by
      rw [List.length_drop]
      omega
    have hlt := unsigned_lt (data.drop (data.length - 32))
    have hsplit := unsigned_append (data.take (data.length - 32)) (data.drop (data.length - 32))
    rw [List.take_append_drop, hlength] at hsplit
    rw [hlength] at hlt
    rw [hsplit, Nat.mul_comm, Nat.mul_add_mod, Nat.mod_eq_of_lt hlt]

theorem normalizeSecret_eq (data : List UInt8) :
    normalizeSecret data = bigEndian 32 (unsigned data) := by
  apply eq_of_unsigned
  · rw [length_normalizeSecret, length_bigEndian]
  · have hpow : 2 ^ 256 = 256 ^ 32 := by decide
    rw [unsigned_normalizeSecret_mod, unsigned_bigEndian, hpow]

/-- **Normalising keeps the value.**  From the bytes that `BigInteger.toByteArray` gives for a
number below `2 ^ 256` it makes the 32 big-endian bytes of the number; and whatever the bytes are,
there are 32 after it, and they stand for the same number modulo `2 ^ 256`. -/
theorem normalize_keeps_value {x : Nat} (hx : x < 2 ^ 256) (data : List UInt8) :
    (IsMinimalTwosComplement x (toByteArray x) ∧
      normalizeSecret (toByteArray x) = bigEndian 32 x ∧ unsigned (bigEndian 32 x) = x) ∧
    (normalizeSecret data).length = 32 ∧
      unsigned (normalizeSecret data) = unsigned data % 2 ^ 256 := by
  refine ⟨⟨toByteArray_isMinimal x, ?_, ?_⟩, length_normalizeSecret data,
    unsigned_normalizeSecret_mod data⟩
  · rw [normalizeSecret_eq, unsigned_toByteArray]
  · rw [unsigned_bigEndian]
    exact Nat.mod_eq_of_lt (lt_of_lt_of_eq hx (by decide))

/-- A coordinate whose first bit is set takes 33 bytes, and keeps 32. -/
theorem normalize_keeps_value_high :
    (toByteArray (2 ^ 255 + 7)).length = 33 ∧
      normalizeSecret (toByteArray (2 ^ 255 + 7)) = 128 :: List.replicate 30 0 ++ [7] :=
  ⟨by decide +kernel,
    (normalize_keeps_value (by decide : 2 ^ 255 + 7 < 2 ^ 256) []).1.2.1.trans (by decide +kernel)⟩

end DsaBroker
