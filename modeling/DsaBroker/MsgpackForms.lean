import DsaBroker.MsgpackFraming

/-!
# Forms of numbers and sizes

A number or a size may be written in any form that has room for it: in the header byte, or in the
bytes after a header byte that says how many they are.  The codecs read every form (`PackedFor`),
and the packer writes one of them.

An unsigned number of 64 bits is read by `readLong`, so half of these forms stand for a number
below zero.
-/

namespace DsaBroker

open StreamReader

/-! ### Numbers -/

theorem length_written (k : Nat) (n : Int) : (written k n).length = k := length_bigEndian _ _

theorem unsigned_written {k : Nat} {n : Int} (hpos : 0 ≤ n) (hlt : n < 256 ^ k) :
    (unsigned (written k n) : Int) = n := by
  have hmod : n % 256 ^ k = n := Int.emod_eq_of_lt hpos hlt
  have hcast : (n.toNat : Int) = n := Int.toNat_of_nonneg hpos
  have hnat : n.toNat < 256 ^ k := by
    rw [← hcast] at hlt
    exact_mod_cast hlt
  rw [written, unsigned_bigEndian, hmod, Nat.mod_eq_of_lt hnat, hcast]

/-- The first bit is the sign: it is set from the middle of the range on. -/
theorem signed_eq {data : List UInt8} (h : data ≠ []) :
    signed data = if 2 * unsigned data < 256 ^ data.length then (unsigned data : Int)
      else unsigned data - 256 ^ data.length := by
  obtain ⟨b, rest, rfl⟩ := List.exists_cons_of_ne_nil h
  have hrest := unsigned_lt rest
  have hiff : b.toNat < 128 ↔ 2 * unsigned (b :: rest) < 256 ^ (b :: rest).length := by
    rw [unsigned, List.length_cons, Nat.pow_succ]
    constructor
    · intro hb
      have hle : (b.toNat + 1) * 256 ^ rest.length ≤ 128 * 256 ^ rest.length :=
        Nat.mul_le_mul_right _ hb
      rw [Nat.add_mul] at hle
      omega
    · intro hlt
      by_contra hb
      have hle : 128 * 256 ^ rest.length ≤ b.toNat * 256 ^ rest.length :=
        Nat.mul_le_mul_right _ (Nat.le_of_not_lt hb)
      omega
  rw [signed]
  by_cases hb : b.toNat < 128
  · rw [if_pos hb, if_pos (hiff.mp hb)]
  · rw [if_neg hb, if_neg fun hlt => hb (hiff.mpr hlt), List.length_cons]

theorem signed_written {k : Nat} (hk : k ≠ 0) {n : Int} (hlow : -256 ^ k ≤ 2 * n)
    (hhigh : 2 * n < 256 ^ k) : signed (written k n) = n := by
  have hne : written k n ≠ [] := by
    rw [← List.length_pos_iff, length_written]
    exact Nat.pos_of_ne_zero hk
  have hpos : (0 : Int) < 256 ^ k := Int.pow_pos (by decide)
  have hunsigned : (unsigned (written k n) : Int) = n % 256 ^ k := by
    have hnonneg := Int.emod_nonneg n hpos.ne'
    have hlt := Int.emod_lt_of_pos n hpos
    rw [← unsigned_written hnonneg hlt, written, written, Int.emod_emod_of_dvd n (dvd_refl _)]
  have hcast : 2 * unsigned (written k n) < 256 ^ (written k n).length ↔
      2 * (n % 256 ^ k) < 256 ^ k := by
    rw [← hunsigned, length_written]
    exact_mod_cast Iff.rfl
  rw [signed_eq hne, hunsigned]
  rcases lt_or_ge n 0 with hneg | hge
  · have hmod : n % 256 ^ k = n + 256 ^ k := by
      rw [← Int.add_mul_emod_self_left n (256 ^ k) 1, Int.mul_one]
      exact Int.emod_eq_of_lt (by omega) (by omega)
    rw [if_neg (by rw [hcast, hmod]; omega), hmod, length_written]
    omega
  · have hmod : n % 256 ^ k = n := Int.emod_eq_of_lt hge (by omega)
    rw [if_pos (by rw [hcast, hmod]; exact hhigh), hmod]

/-! ### Forms -/

/-- A size in the header byte, or in `k` bytes after one of the wide headers. -/
inductive SizeForm (fixed : UInt8) (limit : Nat) (wide : List (UInt8 × Nat × Nat)) (size : Nat) :
    List UInt8 → Prop where
  | fixed (h : size < limit) : SizeForm fixed limit wide size [fixed ||| UInt8.ofNat size]
  | wide (headerByte : UInt8) (k bound : Nat) (hmem : (headerByte, k, bound) ∈ wide)
      (h : size < bound) : SizeForm fixed limit wide size (headerByte :: written k size)

abbrev TextSize : Nat → List UInt8 → Prop :=
  SizeForm MP_FIXSTR 32 [(MP_STR8, 1, 2 ^ 8), (MP_STR16, 2, 2 ^ 16), (MP_STR32, 4, 2 ^ 31)]

abbrev ArraySize : Nat → List UInt8 → Prop :=
  SizeForm MP_FIXARRAY 16 [(MP_ARRAY16, 2, 2 ^ 16), (MP_ARRAY32, 4, 2 ^ 31)]

abbrev MapSize : Nat → List UInt8 → Prop :=
  SizeForm MP_FIXMAP 16 [(MP_MAP16, 2, 2 ^ 16), (MP_MAP32, 4, 2 ^ 31)]

/-- The forms of a whole number. -/
inductive LongForm (n : Int) : List UInt8 → Prop where
  | byte (hlow : -32 ≤ n) (hhigh : n < 128) : LongForm n [UInt8.ofNat (n + 256).toNat]
  | unsigned (headerByte : UInt8) (k : Nat)
      (hmem : (headerByte, k) ∈ [(MP_UINT8, 1), (MP_UINT16, 2), (MP_UINT32, 4)]) (hpos : 0 ≤ n)
      (hlt : n < 256 ^ k) : LongForm n (headerByte :: written k n)
  | signed (headerByte : UInt8) (k : Nat)
      (hmem : (headerByte, k) ∈
        [(MP_INT8, 1), (MP_INT16, 2), (MP_INT32, 4), (MP_INT64, 8), (MP_UINT64, 8)])
      (hlow : -256 ^ k ≤ 2 * n) (hhigh : 2 * n < 256 ^ k) :
      LongForm n (headerByte :: written k n)

/-! ### Codecs -/

/-- The map has a reader for the header byte of the code, and it reads the rest of it. -/
def PackedFor {α : Type} (m : FastByteMap (Unpacker α)) (code : List UInt8)
    (outcome : Except UnpackError α) : Prop :=
  ∃ headerByte tail r, code = headerByte :: tail ∧ (headerByte, r) ∈ m ∧ Yields r tail outcome

theorem FastByteMap.get_of_mem {ν : Type} {m : FastByteMap ν} (hnodup : (m.map Prod.fst).Nodup)
    {b : UInt8} {v : ν} (h : (b, v) ∈ m) : m.get b = some v := by
  induction m with
  | nil => exact absurd h List.not_mem_nil
  | cons thing rest ih =>
    obtain ⟨k, w⟩ := thing
    obtain ⟨hk, hrest⟩ := List.nodup_cons.mp hnodup
    rw [FastByteMap.get]
    rcases List.mem_cons.mp h with heq | hmem
    · obtain ⟨rfl, rfl⟩ := Prod.mk.inj heq
      have hnone : FastByteMap.get rest b = none := by
        rcases hget : FastByteMap.get rest b with _ | other
        · rfl
        · exact absurd (List.mem_map_of_mem (FastByteMap.mem_of_get hget)) hk
      rw [hnone, Option.none_or, if_pos rfl]
    · rw [ih hrest hmem, Option.some_or]

theorem PackedFor.yields {α : Type} {m : FastByteMap (Unpacker α)} {code : List UInt8}
    {outcome : Except UnpackError α} (h : PackedFor m code outcome)
    (hnodup : (m.map Prod.fst).Nodup) : Yields (Codec.unpack m) code outcome := by
  obtain ⟨headerByte, tail, r, rfl, hmem, hr⟩ := h
  intro rest
  rw [List.cons_append, codec_unpack_cons, FastByteMap.get_of_mem hnodup hmem, Option.getD_some]
  exact hr rest

theorem PackedFor.left {α : Type} {m : FastByteMap (Unpacker α)} {code : List UInt8}
    {outcome : Except UnpackError α} (h : PackedFor m code outcome)
    (other : FastByteMap (Unpacker α)) : PackedFor (m ++ other) code outcome := by
  obtain ⟨headerByte, tail, r, hcode, hmem, hr⟩ := h
  exact ⟨headerByte, tail, r, hcode, List.mem_append_left other hmem, hr⟩

theorem PackedFor.right {α : Type} {m : FastByteMap (Unpacker α)} {code : List UInt8}
    {outcome : Except UnpackError α} (h : PackedFor m code outcome)
    (other : FastByteMap (Unpacker α)) : PackedFor (other ++ m) code outcome := by
  obtain ⟨headerByte, tail, r, hcode, hmem, hr⟩ := h
  exact ⟨headerByte, tail, r, hcode, List.mem_append_right other hmem, hr⟩

theorem PackedFor.length_pos {α : Type} {m : FastByteMap (Unpacker α)} {code : List UInt8}
    {outcome : Except UnpackError α} (h : PackedFor m code outcome) : 0 < code.length := by
  obtain ⟨headerByte, tail, -, rfl, -⟩ := h
  exact Nat.succ_pos _

theorem PackedFor.map {α γ : Type} {m : FastByteMap (Unpacker α)} {code : List UInt8}
    {outcome : Except UnpackError α} (h : PackedFor m code outcome) (g : α → γ) :
    PackedFor (m.mapValues fun r => g <$> r) code (outcome.map g) := by
  obtain ⟨headerByte, tail, r, hcode, hmem, hr⟩ := h
  exact ⟨headerByte, tail, g <$> r, hcode, List.mem_map.mpr ⟨_, hmem, rfl⟩, hr.map g⟩

theorem yields_readFully (data : List UInt8) : Yields (readFully data.length) data (.ok data) :=
  yields_taking _ data

theorem yields_readUnsigned {k : Nat} {n : Int} (hpos : 0 ≤ n) (hlt : n < 256 ^ k) :
    Yields (readUnsigned k) (written k n) (.ok n) := by
  have hread := (yields_readFully (written k n)).map fun data => (unsigned data : Int)
  rw [length_written] at hread
  rw [readUnsigned]
  rwa [Except.map, unsigned_written hpos hlt] at hread

theorem yields_readSigned {k : Nat} (hk : k ≠ 0) {n : Int} (hlow : -256 ^ k ≤ 2 * n)
    (hhigh : 2 * n < 256 ^ k) : Yields (readSigned k) (written k n) (.ok n) := by
  have hread := (yields_readFully (written k n)).map signed
  rw [length_written] at hread
  rw [readSigned]
  rwa [Except.map, signed_written hk hlow hhigh] at hread

theorem packedFor_byte {n : Int} (hlow : -32 ≤ n) (hhigh : n < 128) :
    PackedFor LongCodec.unpackFuncMap [UInt8.ofNat (n + 256).toNat] (.ok n) := by
  refine ⟨_, [], pure n, rfl, List.mem_append_right _ ?_, yields_pure n⟩
  refine List.mem_map.mpr ⟨(n + 32).toNat, List.mem_range.mpr (by omega), ?_⟩
  have hvalue : (((n + 32).toNat : Int) - 32) = n := by omega
  have hbyte : (n + 32).toNat + 224 = (n + 256).toNat := by omega
  rw [hvalue, hbyte]

theorem written_one (n : Int) : written 1 n = [UInt8.ofNat (n % 256).toNat] := by
  rw [written, bigEndian_succ, pow_one, pow_zero, Nat.div_one]
  rfl

theorem packedFor_long {n : Int} {code : List UInt8} (h : LongForm n code) :
    PackedFor LongCodec.unpackFuncMap code (.ok n) := by
  have hunsigned : ∀ form ∈ [(MP_UINT8, 1), (MP_UINT16, 2), (MP_UINT32, 4)],
      (form.1, readUnsigned form.2) ∈ LongCodec.unpackFuncMap := by
    simp [LongCodec.unpackFuncMap]
  have hsigned : ∀ form ∈ [(MP_INT8, 1), (MP_INT16, 2), (MP_INT32, 4), (MP_INT64, 8),
      (MP_UINT64, 8)], (form.1, readSigned form.2) ∈ LongCodec.unpackFuncMap ∧ form.2 ≠ 0 := by
    simp [LongCodec.unpackFuncMap]
  cases h with
  | byte hlow hhigh => exact packedFor_byte hlow hhigh
  | unsigned headerByte k hmem hpos hlt =>
    exact ⟨_, _, _, rfl, hunsigned _ hmem, yields_readUnsigned hpos hlt⟩
  | signed headerByte k hmem hlow hhigh =>
    obtain ⟨hread, hk⟩ := hsigned _ hmem
    exact ⟨_, _, _, rfl, hread, yields_readSigned hk hlow hhigh⟩

/-- The header of a collection leads to the reader of as many items. -/
theorem packedFor_sized {α : Type} {fixed wide16 wide32 : UInt8} {sized : Int → Unpacker α}
    {size : Nat} {header : List UInt8}
    (h : SizeForm fixed 16 [(wide16, 2, 2 ^ 16), (wide32, 4, 2 ^ 31)] size header)
    {code : List UInt8} {outcome : Except UnpackError α}
    (hsized : Yields (sized size) code outcome) :
    PackedFor (sizedFuncMap fixed wide16 wide32 sized) (header ++ code) outcome := by
  rcases h with hlt | ⟨headerByte, k, bound, hmem, hlt⟩
  · exact ⟨_, _, _, rfl, List.mem_append_right _ (List.mem_map.mpr ⟨size,
      List.mem_range.mpr hlt, rfl⟩), hsized⟩
  · simp only [List.mem_cons, List.not_mem_nil, or_false, Prod.mk.injEq] at hmem
    rcases hmem with ⟨rfl, rfl, rfl⟩ | ⟨rfl, rfl, rfl⟩
    · exact ⟨_, _, _, rfl, List.mem_append_left _ List.mem_cons_self,
        (yields_readUnsigned (by omega) (by omega)).bind hsized⟩
    · exact ⟨_, _, _, rfl, List.mem_append_left _ (List.mem_cons_of_mem _ List.mem_cons_self),
        (yields_readSigned (by decide) (by omega) (by omega)).bind hsized⟩

theorem packedFor_text (rt : JavaRuntime) {data header : List UInt8}
    (h : TextSize data.length header) :
    PackedFor (StringCodec.unpackFuncMap rt) (header ++ data) (.ok (rt.newString data)) := by
  have hdata : Yields (unpackString rt data.length) data (.ok (rt.newString data)) := by
    rw [unpackString, unpackRaw, if_neg (by omega), Int.toNat_natCast]
    exact (yields_readFully data).map rt.newString
  have hmem : ∀ thing ∈ [(MP_STR8, readOrEnd >>= unpackString rt),
      (MP_STR16, readUnsigned 2 >>= unpackString rt), (MP_STR32, readSigned 4 >>= unpackString rt)],
      thing ∈ StringCodec.unpackFuncMap rt := fun thing => List.mem_append_left _
  rcases h with hlt | ⟨headerByte, k, bound, hform, hlt⟩
  · exact ⟨_, _, _, rfl, List.mem_append_right _ (List.mem_map.mpr ⟨data.length,
      List.mem_range.mpr hlt, rfl⟩), hdata⟩
  · simp only [List.mem_cons, List.not_mem_nil, or_false, Prod.mk.injEq] at hform
    rcases hform with ⟨rfl, rfl, rfl⟩ | ⟨rfl, rfl, rfl⟩ | ⟨rfl, rfl, rfl⟩
    · have hsize : Yields readOrEnd (written 1 data.length) (.ok (data.length : Int)) := by
        intro rest
        have hbyte : ((UInt8.ofNat (data.length % 256 : Int).toNat).toNat : Int) =
            data.length := by
          rw [UInt8.toNat_ofNat']
          omega
        rw [written_one, List.singleton_append, readOrEnd, hbyte]
        rfl
      exact ⟨_, _, _, rfl, hmem _ (by simp), hsize.bind hdata⟩
    · exact ⟨_, _, _, rfl, hmem _ (by simp),
        (yields_readUnsigned (by omega) (by omega)).bind hdata⟩
    · exact ⟨_, _, _, rfl, hmem _ (by simp),
        (yields_readSigned (by decide) (by omega) (by omega)).bind hdata⟩

/-! ### What the packer writes -/

theorem longForm_packLong {n : Int} (hlow : -2 ^ 63 ≤ n) (hhigh : n < 2 ^ 63) :
    LongForm n (packLong n) := by
  unfold packLong MAX_7BIT MAX_8BIT MAX_16BIT MAX_32BIT MAX_5BIT MAX_15BIT MAX_31BIT
  split
  · split
    · have hbyte : UInt8.ofNat n.toNat ||| MP_FIXNUM = UInt8.ofNat (n + 256).toNat := by
        rw [MP_FIXNUM, UInt8.or_zero, ← UInt8.toNat_inj, UInt8.toNat_ofNat', UInt8.toNat_ofNat']
        omega
      rw [hbyte]
      exact .byte (by omega) (by omega)
    · split
      · exact .unsigned _ 1 (by decide) (by omega) (by omega)
      · split
        · exact .unsigned _ 2 (by decide) (by omega) (by omega)
        · split
          · exact .unsigned _ 4 (by decide) (by omega) (by omega)
          · exact .signed _ 8 (by decide) (by omega) (by omega)
  · split
    · have hmod : n % 256 = n + 256 := by omega
      rw [written_one, hmod]
      exact .byte (by omega) (by omega)
    · split
      · exact .signed _ 1 (by decide) (by omega) (by omega)
      · split
        · exact .signed _ 2 (by decide) (by omega) (by omega)
        · split
          · exact .signed _ 4 (by decide) (by omega) (by omega)
          · exact .signed _ 8 (by decide) (by omega) (by omega)

theorem sizeForm_sizeHeader (fixed wide16 wide32 : UInt8) {size : Nat} (h : size < 2 ^ 31) :
    SizeForm fixed 16 [(wide16, 2, 2 ^ 16), (wide32, 4, 2 ^ 31)] size
      (sizeHeader fixed wide16 wide32 size) := by
  unfold sizeHeader MAX_4BIT MAX_16BIT
  split
  · rw [UInt8.or_comm]
    exact .fixed (by omega)
  · split
    · exact .wide wide16 2 (2 ^ 16) List.mem_cons_self (by omega)
    · exact .wide wide32 4 (2 ^ 31) (List.mem_cons_of_mem _ List.mem_cons_self) h

theorem textSize_packString {s : Str} (h : (getBytesUtf8 s).length < 2 ^ 31) :
    ∃ header, packString s = header ++ getBytesUtf8 s ∧
      TextSize (getBytesUtf8 s).length header := by
  refine ⟨_, rfl, ?_⟩
  unfold MAX_5BIT MAX_8BIT MAX_16BIT
  split
  · rw [UInt8.or_comm]
    exact .fixed (by omega)
  · split
    · exact .wide MP_STR8 1 (2 ^ 8) (by decide) (by omega)
    · split
      · exact .wide MP_STR16 2 (2 ^ 16) (by decide) (by omega)
      · exact .wide MP_STR32 4 (2 ^ 31) (by decide) h

theorem SizeForm.length_pos {fixed : UInt8} {limit : Nat} {wide : List (UInt8 × Nat × Nat)}
    {size : Nat} {header : List UInt8} (h : SizeForm fixed limit wide size header) :
    0 < header.length := by
  rcases h with _ | _
  · exact Nat.one_pos
  · exact Nat.succ_pos _

end DsaBroker
