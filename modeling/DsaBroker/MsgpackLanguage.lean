import DsaBroker.MsgpackRoundTrip
import Mathlib.Algebra.Order.BigOperators.Group.List

/-!
# The language of MessagePack

The codes of a value as a grammar: a number or a size may be written in any form that has room for
it, and the entries of an object in any order, some of them more than once.  `unpack` accepts just
the frames that begin with such a code (`accepts_iff`), and the code that is packed is no longer
than any other that keeps to whole numbers and to UTF-8 (`packJson_shortest`).

An unsigned number of 64 bits is read by `readLong`, so half of these forms stand for a number
below zero.
-/

namespace DsaBroker

open StreamReader

/-! ### The grammar -/

/-- The codes of numbers and the data of texts. -/
structure Spelling where
  number : Rat → List UInt8 → Prop
  text : Str → List UInt8 → Prop

/-- The codes of a text. -/
def TextForm (S : Spelling) (s : Str) (code : List UInt8) : Prop :=
  ∃ header data, code = header ++ data ∧ TextSize data.length header ∧ S.text s data

section Grammar

variable [ScanOrder Str]

mutual

inductive Encodes (S : Spelling) : Json → List UInt8 → Prop where
  | null : Encodes S .null [MP_NULL]
  | boolean (value : Bool) : Encodes S (.boolean value) [if value then MP_TRUE else MP_FALSE]
  | number (value : Rat) (code : List UInt8) (h : S.number value code) :
      Encodes S (.number value) code
  | string (value : Str) (code : List UInt8) (h : TextForm S value code) :
      Encodes S (.string value) code
  | array (items : List Json) (header code : List UInt8) (hsize : ArraySize items.length header)
      (hitems : EncodesItems S items code) : Encodes S (.array items) (header ++ code)
  | object (fields : List (Str × Json)) (header code : List UInt8)
      (hsize : MapSize fields.length header) (hfields : EncodesFields S fields code) :
      Encodes S (.object (ScanMap.ofEntries fields).entries) (header ++ code)

inductive EncodesItems (S : Spelling) : List Json → List UInt8 → Prop where
  | nil : EncodesItems S [] []
  | cons (item : Json) (rest : List Json) (front back : List UInt8) (hitem : Encodes S item front)
      (hrest : EncodesItems S rest back) : EncodesItems S (item :: rest) (front ++ back)

inductive EncodesFields (S : Spelling) : List (Str × Json) → List UInt8 → Prop where
  | nil : EncodesFields S [] []
  | cons (key : Str) (value : Json) (rest : List (Str × Json)) (front middle back : List UInt8)
      (hkey : TextForm S key front) (hvalue : Encodes S value middle)
      (hrest : EncodesFields S rest back) :
      EncodesFields S ((key, value) :: rest) (front ++ middle ++ back)

end

end Grammar

/-- What the reader takes for a number and for a text. -/
def JavaRuntime.spelling (rt : JavaRuntime) : Spelling where
  number value code :=
    (∃ n : Int, value = n ∧ LongForm n code) ∨
      (∃ bits, rt.ofFloat bits = some value ∧ code = MP_FLOAT :: written 4 bits.toNat) ∨
      ∃ bits, rt.ofDouble bits = some value ∧ code = MP_DOUBLE :: written 8 bits.toNat
  text s data := rt.newString data = s

/-- Whole numbers, and texts in UTF-8. -/
def plainSpelling : Spelling where
  number value code := ∃ n : Int, value = n ∧ LongForm n code
  text s data := data = getBytesUtf8 s

/-! ### What is read is a code -/

theorem reads_readFully (k : Nat) :
    ReadsOnly (readFully k) fun data code => code = data ∧ data.length = k := reads_taking _ k

theorem written_unsigned {k : Nat} {data : List UInt8} (h : data.length = k) :
    (unsigned data : Int) < 256 ^ k ∧ data = written k (unsigned data) := by
  have hlt : (unsigned data : Int) < 256 ^ k := by
    rw [← h]
    exact_mod_cast unsigned_lt data
  refine ⟨hlt, eq_of_unsigned (by rw [length_written, h]) ?_⟩
  have hvalue := unsigned_written (Int.natCast_nonneg (unsigned data)) hlt
  exact_mod_cast hvalue.symm

theorem reads_readUnsigned (k : Nat) :
    ReadsOnly (readUnsigned k) fun n code => 0 ≤ n ∧ n < 256 ^ k ∧ code = written k n := by
  apply (reads_readFully k).map
  rintro _ data ⟨rfl, hlength⟩
  exact ⟨Int.natCast_nonneg _, written_unsigned hlength⟩

theorem reads_readSigned {k : Nat} (hk : k ≠ 0) :
    ReadsOnly (readSigned k) fun n code =>
      -256 ^ k ≤ 2 * n ∧ 2 * n < 256 ^ k ∧ code = written k n := by
  apply (reads_readFully k).map
  rintro _ data ⟨rfl, hlength⟩
  have hne : data ≠ [] := by
    rw [← List.length_pos_iff, hlength]
    exact Nat.pos_of_ne_zero hk
  obtain ⟨hlt, hdata⟩ := written_unsigned hlength
  have hpos := Int.natCast_nonneg (unsigned data)
  have hsigned := signed_eq hne
  rw [hlength] at hsigned
  have hmod : signed data % 256 ^ k = unsigned data := by
    rw [hsigned]
    split_ifs
    · exact Int.emod_eq_of_lt hpos hlt
    · rw [Int.sub_emod_right]
      exact Int.emod_eq_of_lt hpos hlt
  have hhalf : 2 * unsigned data < 256 ^ k ↔ (2 * unsigned data : Int) < 256 ^ k := by
    exact_mod_cast Iff.rfl
  have hbounds : -256 ^ k ≤ 2 * signed data ∧ 2 * signed data < 256 ^ k := by
    rw [hsigned]
    split_ifs with h
    · have := hhalf.mp h
      omega
    · have := mt hhalf.mpr h
      omega
  refine ⟨hbounds.1, hbounds.2, ?_⟩
  rw [written, hmod]
  rwa [written, Int.emod_eq_of_lt hpos hlt] at hdata

/-- Behind each header byte of the map, what is read ends a code that begins with it. -/
def AllRead {α : Type} (m : FastByteMap (Unpacker α)) (L : α → List UInt8 → Prop) : Prop :=
  ∀ thing ∈ m, ReadsOnly thing.2 fun a tail => L a (thing.1 :: tail)

theorem AllRead.append {α : Type} {m other : FastByteMap (Unpacker α)}
    {L : α → List UInt8 → Prop} (h : AllRead m L) (hother : AllRead other L) :
    AllRead (m ++ other) L := fun thing hthing =>
  (List.mem_append.mp hthing).elim (h thing) (hother thing)

theorem AllRead.map {α γ : Type} {m : FastByteMap (Unpacker α)} {L : α → List UInt8 → Prop}
    (h : AllRead m L) {g : α → γ} {M : γ → List UInt8 → Prop}
    (hg : ∀ a code, L a code → M (g a) code) : AllRead (m.mapValues fun r => g <$> r) M := by
  intro thing hthing
  obtain ⟨inner, hinner, rfl⟩ := List.mem_map.mp hthing
  exact (h inner hinner).map fun a tail => hg a (inner.1 :: tail)

theorem reads_codec {α : Type} {m : FastByteMap (Unpacker α)} {L : α → List UInt8 → Prop}
    (h : AllRead m L) : ReadsOnly (Codec.unpack m) L := by
  intro input a rest hrun
  rcases input with _ | ⟨b, tail⟩
  · rw [codec_unpack_nil] at hrun
    simp only [reduceCtorEq] at hrun
  · rw [codec_unpack_cons] at hrun
    rcases hget : m.get b with _ | r
    · rw [hget, Option.getD_none, refuse] at hrun
      simp only [reduceCtorEq] at hrun
    · rw [hget, Option.getD_some] at hrun
      obtain ⟨code, rfl, hcode⟩ := h _ (FastByteMap.mem_of_get hget) _ _ _ hrun
      exact ⟨b :: code, rfl, hcode⟩

theorem allRead_longCodec : AllRead LongCodec.unpackFuncMap LongForm := by
  intro thing hthing
  rcases List.mem_append.mp hthing with hread | hbyte
  · have hunsigned : ∀ {headerByte : UInt8} {k : Nat},
        (headerByte, k) ∈ [(MP_UINT8, 1), (MP_UINT16, 2), (MP_UINT32, 4)] →
          ReadsOnly (readUnsigned k) fun n tail => LongForm n (headerByte :: tail) := by
      intro headerByte k hmem input n rest hrun
      obtain ⟨code, hinput, hpos, hlt, rfl⟩ := reads_readUnsigned k _ _ _ hrun
      exact ⟨_, hinput, .unsigned headerByte k hmem hpos hlt⟩
    have hsigned : ∀ {headerByte : UInt8} {k : Nat}, k ≠ 0 → (headerByte, k) ∈
        [(MP_INT8, 1), (MP_INT16, 2), (MP_INT32, 4), (MP_INT64, 8), (MP_UINT64, 8)] →
          ReadsOnly (readSigned k) fun n tail => LongForm n (headerByte :: tail) := by
      intro headerByte k hk hmem input n rest hrun
      obtain ⟨code, hinput, hlow, hhigh, rfl⟩ := reads_readSigned hk _ _ _ hrun
      exact ⟨_, hinput, .signed headerByte k hmem hlow hhigh⟩
    simp only [List.mem_cons, List.not_mem_nil, or_false] at hread
    rcases hread with rfl | rfl | rfl | rfl | rfl | rfl | rfl | rfl
    · exact hunsigned (by decide)
    · exact hsigned (by decide) (by decide)
    · exact hunsigned (by decide)
    · exact hsigned (by decide) (by decide)
    · exact hsigned (by decide) (by decide)
    · exact hsigned (by decide) (by decide)
    · exact hunsigned (by decide)
    · exact hsigned (by decide) (by decide)
  · obtain ⟨i, hi, rfl⟩ := List.mem_map.mp hbyte
    have hlt := List.mem_range.mp hi
    apply reads_pure
    have hbyte : UInt8.ofNat (i + 224) = UInt8.ofNat ((i : Int) - 32 + 256).toNat := by
      congr 1
      omega
    rw [hbyte]
    exact .byte (by omega) (by omega)

/-- A size in one of its forms, and the code of something that has this size. -/
def Sized {α : Type} (form : Nat → List UInt8 → Prop) (L : Nat → α → List UInt8 → Prop) (a : α)
    (code : List UInt8) : Prop :=
  ∃ size header body, code = header ++ body ∧ form size header ∧ L size a body

/-- The reader for a size that may turn out to be below zero refuses it. -/
def ReadsSized {α : Type} (sized : Int → Unpacker α) (L : Nat → α → List UInt8 → Prop) : Prop :=
  ∀ n : Int, ReadsOnly (sized n) fun a body => 0 ≤ n ∧ L n.toNat a body

section Sizes

variable {α : Type} {sized : Int → Unpacker α} {L : Nat → α → List UInt8 → Prop} {fixed : UInt8}
  {limit : Nat} {wide : List (UInt8 × Nat × Nat)}

theorem reads_wide (h : ReadsSized sized L) {headerByte : UInt8} {k bound : Nat}
    (hmem : (headerByte, k, bound) ∈ wide) {r : Unpacker Int}
    (hr : ReadsOnly r fun n code => n < bound ∧ code = written k n) :
    ReadsOnly (r >>= sized) fun a tail =>
      Sized (SizeForm fixed limit wide) L a (headerByte :: tail) := by
  apply hr.bind
  rintro n _ ⟨hlt, rfl⟩
  apply (h n).mono
  rintro a body ⟨hpos, hbody⟩
  have hcast : (n.toNat : Int) = n := Int.toNat_of_nonneg hpos
  refine ⟨n.toNat, headerByte :: written k n, body, rfl, ?_, hbody⟩
  rw [← hcast]
  exact .wide headerByte k bound hmem (by omega)

theorem reads_fixed (h : ReadsSized sized L) {size : Nat} (hlt : size < limit) :
    ReadsOnly (sized size) fun a tail =>
      Sized (SizeForm fixed limit wide) L a ((fixed ||| UInt8.ofNat size) :: tail) := by
  apply (h size).mono
  rintro a body ⟨-, hbody⟩
  exact ⟨size, _, body, rfl, .fixed hlt, hbody⟩

theorem reads_wide16 (h : ReadsSized sized L) {headerByte : UInt8}
    (hmem : (headerByte, 2, 2 ^ 16) ∈ wide) :
    ReadsOnly (readUnsigned 2 >>= sized) fun a tail =>
      Sized (SizeForm fixed limit wide) L a (headerByte :: tail) :=
  reads_wide h hmem ((reads_readUnsigned 2).mono fun _ _ hn => ⟨hn.2.1, hn.2.2⟩)

theorem reads_wide32 (h : ReadsSized sized L) {headerByte : UInt8}
    (hmem : (headerByte, 4, 2 ^ 31) ∈ wide) :
    ReadsOnly (readSigned 4 >>= sized) fun a tail =>
      Sized (SizeForm fixed limit wide) L a (headerByte :: tail) := by
  apply reads_wide h hmem
  apply (reads_readSigned (by decide)).mono
  intro n code hn
  exact ⟨by omega, hn.2.2⟩

theorem allRead_sizedFuncMap (h : ReadsSized sized L) (fixed wide16 wide32 : UInt8) :
    AllRead (sizedFuncMap fixed wide16 wide32 sized)
      (Sized (SizeForm fixed 16 [(wide16, 2, 2 ^ 16), (wide32, 4, 2 ^ 31)]) L) := by
  intro thing hthing
  rcases List.mem_append.mp hthing with hread | hfix
  · simp only [List.mem_cons, List.not_mem_nil, or_false] at hread
    rcases hread with rfl | rfl
    · exact reads_wide16 h List.mem_cons_self
    · exact reads_wide32 h (List.mem_cons_of_mem _ List.mem_cons_self)
  · obtain ⟨len, hlen, rfl⟩ := List.mem_map.mp hfix
    exact reads_fixed h (List.mem_range.mp hlen)

end Sizes

theorem readsSized_unpackString (rt : JavaRuntime) :
    ReadsSized (unpackString rt) fun size s body => body.length = size ∧ rt.newString body = s := by
  intro n
  rw [unpackString, unpackRaw]
  split_ifs with hneg
  · exact (reads_refuse _ fun _ _ => False).map fun _ _ h => h.elim
  · apply (reads_readFully n.toNat).map
    rintro _ data ⟨rfl, hlength⟩
    exact ⟨by omega, hlength, rfl⟩

theorem allRead_stringCodec (rt : JavaRuntime) :
    AllRead (StringCodec.unpackFuncMap rt) (TextForm rt.spelling) := by
  have hsized := readsSized_unpackString rt
  have hform : ∀ s code, Sized TextSize
      (fun size s body => body.length = size ∧ rt.newString body = s) s code →
        TextForm rt.spelling s code := by
    rintro s code ⟨_, header, body, hcode, hsize, rfl, hbody⟩
    exact ⟨header, body, hcode, hsize, hbody⟩
  intro thing hthing
  rcases List.mem_append.mp hthing with hread | hfix
  · simp only [List.mem_cons, List.not_mem_nil, or_false] at hread
    rcases hread with rfl | rfl | rfl
    · rw [readOrEnd_bind_unpackString]
      apply (reads_next UnpackError.bytesTooLarge).bind
      rintro b _ rfl
      apply (hsized b.toNat).mono
      rintro s body ⟨-, hbody⟩
      have hwritten : [b] = written 1 (b.toNat : Int) := by
        have hlt := b.toNat_lt
        rw [written_one, Int.emod_eq_of_lt (Int.natCast_nonneg _) (by omega), Int.toNat_natCast,
          UInt8.ofNat_toNat]
      apply hform
      refine ⟨b.toNat, MP_STR8 :: written 1 b.toNat, body, by rw [← hwritten]; rfl, ?_, hbody⟩
      exact .wide MP_STR8 1 (2 ^ 8) List.mem_cons_self b.toNat_lt
    · have hmem : (MP_STR16, 2, 2 ^ 16) ∈
          [(MP_STR8, 1, 2 ^ 8), (MP_STR16, 2, 2 ^ 16), (MP_STR32, 4, 2 ^ 31)] := by decide
      exact (reads_wide16 hsized hmem).mono fun s tail => hform s _
    · have hmem : (MP_STR32, 4, 2 ^ 31) ∈
          [(MP_STR8, 1, 2 ^ 8), (MP_STR16, 2, 2 ^ 16), (MP_STR32, 4, 2 ^ 31)] := by decide
      exact (reads_wide32 hsized hmem).mono fun s tail => hform s _
  · obtain ⟨len, hlen, rfl⟩ := List.mem_map.mp hfix
    exact (reads_fixed hsized (List.mem_range.mp hlen)).mono fun s tail => hform s _

section Sound

variable [ScanOrder Str] {S : Spelling} {codec : Unpacker Json}

theorem reads_items (h : ReadsOnly codec (Encodes S)) (n : Nat) :
    ReadsOnly (repeated codec n) fun items code =>
      items.length = n ∧ EncodesItems S items code := by
  induction n with
  | zero => exact reads_pure ⟨rfl, .nil⟩
  | succ n ih =>
    apply h.bind
    intro item front hitem
    apply ih.bind
    rintro rest back ⟨rfl, hrest⟩
    apply reads_pure
    rw [List.append_nil]
    exact ⟨rfl, .cons item rest front back hitem hrest⟩

theorem reads_fields {keyCodec : Unpacker Str} (hkey : ReadsOnly keyCodec (TextForm S))
    (h : ReadsOnly codec (Encodes S)) (n : Nat) :
    ReadsOnly (repeated (unpackEntry keyCodec codec) n) fun fields code =>
      fields.length = n ∧ EncodesFields S fields code := by
  induction n with
  | zero => exact reads_pure ⟨rfl, .nil⟩
  | succ n ih =>
    have hentry : ReadsOnly (unpackEntry keyCodec codec) fun entry code =>
        ∃ front middle, code = front ++ middle ∧ TextForm S entry.1 front ∧
          Encodes S entry.2 middle := by
      apply hkey.bind
      intro key front hfront
      apply h.bind
      intro value middle hmiddle
      apply reads_pure
      rw [List.append_nil]
      exact ⟨front, middle, rfl, hfront, hmiddle⟩
    apply hentry.bind
    rintro ⟨key, value⟩ _ ⟨front, middle, rfl, hfront, hmiddle⟩
    apply ih.bind
    rintro rest back ⟨rfl, hrest⟩
    apply reads_pure
    rw [List.append_nil]
    exact ⟨rfl, .cons key value rest front middle back hfront hmiddle hrest⟩

theorem reads_bits {β : Type} {headerByte : UInt8} {k : Nat} {ofNat : Nat → β} {toNat : β → Nat}
    (hbits : ∀ n < 256 ^ k, toNat (ofNat n) = n) {read : β → Option Rat}
    (hS : ∀ q bits, read bits = some q → S.number q (headerByte :: written k (toNat bits))) :
    AllRead (FastByteMap.mapValues
      [(headerByte, (fun data => ofNat (unsigned data)) <$> readFully k)]
        fun r => r >>= fun b => bigDecimal (read b)) (Encodes S) := by
  have hread : ReadsOnly ((fun data => ofNat (unsigned data)) <$> readFully k) fun bits code =>
      code = written k (toNat bits) := by
    apply (reads_readFully k).map
    rintro _ data ⟨rfl, hlength⟩
    obtain ⟨hlt, hdata⟩ := written_unsigned hlength
    rw [hbits _ (by exact_mod_cast hlt)]
    exact hdata
  intro thing hthing
  rw [List.mem_singleton.mp hthing]
  apply hread.bind
  rintro bits _ rfl
  rcases hq : read bits with _ | q
  · exact reads_refuse _ _
  · apply reads_pure
    rw [List.append_nil]
    exact .number _ _ (hS q bits hq)

theorem allRead_jsNumberCodec (rt : JavaRuntime) :
    AllRead (JsNumberCodec.unpackFuncMap rt) (Encodes rt.spelling) := by
  rw [JsNumberCodec.unpackFuncMap]
  apply AllRead.append
  · apply AllRead.append
    · apply allRead_longCodec.map
      intro n code hcode
      exact .number _ _ (Or.inl ⟨n, rfl, hcode⟩)
    · apply reads_bits
      · intro n hn
        exact UInt32.toNat_ofNat_of_lt hn
      · intro q bits hq
        exact Or.inr (Or.inl ⟨bits, hq, rfl⟩)
  · apply reads_bits
    · intro n hn
      exact UInt64.toNat_ofNat_of_lt hn
    · intro q bits hq
      exact Or.inr (Or.inr ⟨bits, hq, rfl⟩)

/-- Every codec reads codes of the grammar only, if the values inside collections are read so. -/
theorem allRead_jsValue (rt : JavaRuntime) (h : ReadsOnly codec (Encodes rt.spelling)) :
    AllRead (jsValueFuncMap rt codec) (Encodes rt.spelling) := by
  have hstring := allRead_stringCodec rt
  have hseq : ReadsSized (unpackSeq codec) fun size items body =>
      items.length = size ∧ EncodesItems rt.spelling items body := by
    intro n
    rw [unpackSeq]
    split_ifs with hneg
    · exact reads_refuse _ _
    · exact (reads_items h n.toNat).mono fun items body hitems => ⟨by omega, hitems⟩
  have hmap : ReadsSized (unpackMap (Codec.unpack (StringCodec.unpackFuncMap rt)) codec)
      fun size map body => ∃ fields, map = ScanMap.ofEntries fields ∧ fields.length = size ∧
        EncodesFields rt.spelling fields body := by
    intro n
    rw [unpackMap]
    split_ifs with hneg
    · exact reads_refuse _ _
    · apply (reads_fields (reads_codec hstring) h n.toNat).map
      intro fields body hfields
      exact ⟨by omega, fields, rfl, hfields⟩
  rw [jsValueFuncMap]
  refine ((((AllRead.append ?_ ?_).append ?_).append (allRead_jsNumberCodec rt)).append
    ?_).append ?_
  · intro thing hthing
    rw [List.mem_singleton.mp hthing]
    exact reads_pure .null
  · have hboolean : AllRead BooleanCodec.unpackFuncMap fun value code =>
        code = [if value then MP_TRUE else MP_FALSE] := by
      rw [AllRead, BooleanCodec.unpackFuncMap, List.forall_mem_cons, List.forall_mem_singleton]
      exact ⟨reads_pure rfl, reads_pure rfl⟩
    apply hboolean.map
    rintro value _ rfl
    exact .boolean value
  · exact hstring.map fun s code hcode => .string s code hcode
  · apply (allRead_sizedFuncMap hmap _ _ _).map
    rintro _ _ ⟨_, header, body, rfl, hsize, fields, rfl, rfl, hfields⟩
    exact .object fields header body hsize hfields
  · apply (allRead_sizedFuncMap hseq _ _ _).map
    rintro items _ ⟨_, header, body, rfl, hsize, rfl, hitems⟩
    exact .array items header body hsize hitems

theorem reads_unpackJson (rt : JavaRuntime) : ∀ depth,
    ReadsOnly (unpackJson rt depth) (Encodes rt.spelling)
  | 0 => reads_refuse _ _
  | depth + 1 => reads_codec (allRead_jsValue rt (reads_unpackJson rt depth))

end Sound

/-! ### Every code is read -/

theorem packedFor_spelling {rt : JavaRuntime} {value : Rat} {code : List UInt8}
    (h : rt.spelling.number value code) :
    PackedFor (JsNumberCodec.unpackFuncMap rt) code (.ok (.number value)) := by
  rcases h with ⟨n, rfl, hlong⟩ | ⟨bits, hbits, rfl⟩ | ⟨bits, hbits, rfl⟩
  · exact (((packedFor_long hlong).map fun n : Int => (JsValue.number (n : Rat) : Json)).left
      _).left _
  · have hpacked := packedFor_bits MP_FLOAT (show bits.toNat < 256 ^ 4 from bits.toNat_lt)
      UInt32.ofNat rt.ofFloat
    rw [UInt32.ofNat_toNat, hbits] at hpacked
    exact (hpacked.right _).left _
  · have hpacked := packedFor_bits MP_DOUBLE (show bits.toNat < 256 ^ 8 from bits.toNat_lt)
      UInt64.ofNat rt.ofDouble
    rw [UInt64.ofNat_toNat, hbits] at hpacked
    exact hpacked.right _

theorem packedFor_textForm {rt : JavaRuntime} {s : Str} {code : List UInt8}
    (h : TextForm rt.spelling s code) :
    PackedFor (StringCodec.unpackFuncMap rt) code (.ok s) := by
  obtain ⟨header, data, rfl, hsize, hdata⟩ := h
  rw [← hdata]
  exact packedFor_text rt hsize

section Complete

variable [ScanOrder Str]

mutual

/-- By induction on the derivation; the header byte of a collection counts for its depth. -/
theorem packedFor_encodes {rt : JavaRuntime} : ∀ {v : Json} {code : List UInt8},
    Encodes rt.spelling v code → ∀ depth, code.length ≤ depth + 1 →
      PackedFor (jsValueFuncMap rt (unpackJson rt depth)) code (.ok v)
  | _, _, .null, _, _ => ⟨MP_NULL, [], _, rfl, List.mem_cons_self, yields_pure _⟩
  | _, _, .boolean value, depth, hdepth =>
      packedFor_packJson rt (.boolean value) trivial depth hdepth
  | _, _, .number _ _ h, _, _ => (((packedFor_spelling h).right _).left _).left _
  | _, _, .string _ _ h, _, _ => by
      have hvalue := (packedFor_textForm h).map (JsValue.string : Str → Json)
      exact (((hvalue.right _).left _).left _).left _
  | _, _, .array items header code hsize hitems, depth, hdepth => by
      have hpos := hsize.length_pos
      rw [List.length_append] at hdepth
      have hseq : Yields (unpackSeq (unpackJson rt depth) items.length) code (.ok items) := by
        rw [unpackSeq, if_neg (by omega), Int.toNat_natCast]
        exact yields_encodesItems hitems depth (by omega)
      exact ((packedFor_sized hsize hseq).map (JsValue.array : List Json → Json)).right _
  | _, _, .object fields header code hsize hfields, depth, hdepth => by
      have hpos := hsize.length_pos
      rw [List.length_append] at hdepth
      have hmap : Yields (unpackMap (Codec.unpack (StringCodec.unpackFuncMap rt))
          (unpackJson rt depth) fields.length) code (.ok (ScanMap.ofEntries fields)) := by
        rw [unpackMap, if_neg (by omega), Int.toNat_natCast]
        exact (yields_encodesFields hfields depth (by omega)).map ScanMap.ofEntries
      have hvalue := (packedFor_sized hsize hmap).map fun map => (JsValue.object map.entries : Json)
      exact (hvalue.right _).left _

theorem yields_encodesItems {rt : JavaRuntime} : ∀ {items : List Json} {code : List UInt8},
    EncodesItems rt.spelling items code → ∀ depth, code.length ≤ depth →
      Yields (repeated (unpackJson rt depth) items.length) code (.ok items)
  | _, _, .nil, _, _ => yields_pure []
  | _, _, .cons item rest front back hitem hrest, depth, hdepth => by
      rw [List.length_append] at hdepth
      have hhead := yields_of_packedFor (packedFor_encodes hitem) depth (by omega)
      exact hhead.repeated_succ (yields_encodesItems hrest depth (by omega))

theorem yields_encodesFields {rt : JavaRuntime} : ∀ {fields : List (Str × Json)}
    {code : List UInt8}, EncodesFields rt.spelling fields code → ∀ depth, code.length ≤ depth →
      Yields (repeated (unpackEntry (Codec.unpack (StringCodec.unpackFuncMap rt))
        (unpackJson rt depth)) fields.length) code (.ok fields)
  | _, _, .nil, _, _ => yields_pure []
  | _, _, .cons key value rest front middle back hkey hvalue hrest, depth, hdepth => by
      rw [List.length_append, List.length_append] at hdepth
      have hbody := yields_of_packedFor (packedFor_encodes hvalue) depth (by omega)
      have hentry : Yields (unpackEntry (Codec.unpack (StringCodec.unpackFuncMap rt))
          (unpackJson rt depth)) (front ++ middle) (.ok (key, value)) := by
        apply ((packedFor_textForm hkey).yields (nodup_stringCodec rt)).bind
        have hpair := hbody.map fun value => (key, value)
        rwa [map_eq_bind] at hpair
      exact hentry.repeated_succ (yields_encodesFields hrest depth (by omega))

end

/-- **What is accepted.**  A frame gives a value just when it begins with a code of the value. -/
theorem accepts_iff (rt : JavaRuntime) (data : List UInt8) (v : Json) :
    unpack rt data = .ok v ↔ ∃ code, code <+: data ∧ Encodes rt.spelling v code := by
  constructor
  · intro h
    obtain ⟨⟨_, rest⟩, hrun, rfl⟩ := except_map_eq_ok.mp h
    obtain ⟨code, rfl, hcode⟩ := reads_unpackJson rt _ _ _ _ hrun
    exact ⟨code, List.prefix_append code rest, hcode⟩
  · rintro ⟨code, ⟨rest, rfl⟩, hcode⟩
    have hlength : code.length ≤ (code ++ rest).length + 1 := by
      rw [List.length_append]
      omega
    rw [unpack, yields_of_packedFor (packedFor_encodes hcode) _ hlength rest]
    rfl

end Complete

/-! ### The shortest codes -/

theorem LongForm.validLong_eq {n : Int} {code : List UInt8} (h : LongForm n code) :
    validLong n = some n := by
  have hrange : -2 ^ 63 ≤ n ∧ n < 2 ^ 63 := by
    rcases h with ⟨hlow, hhigh⟩ | ⟨_, k, hmem, hpos, hlt⟩ | ⟨_, k, hmem, hlow, hhigh⟩
    · omega
    · simp only [List.mem_cons, List.not_mem_nil, or_false, Prod.mk.injEq] at hmem
      rcases hmem with ⟨-, rfl⟩ | ⟨-, rfl⟩ | ⟨-, rfl⟩ <;> omega
    · simp only [List.mem_cons, List.not_mem_nil, or_false, Prod.mk.injEq] at hmem
      rcases hmem with ⟨-, rfl⟩ | ⟨-, rfl⟩ | ⟨-, rfl⟩ | ⟨-, rfl⟩ | ⟨-, rfl⟩ <;> omega
  exact if_pos ⟨Rat.den_intCast n, hrange⟩

theorem LongForm.packLong_le {n : Int} {code : List UInt8} (h : LongForm n code) :
    (packLong n).length ≤ code.length := by
  unfold packLong MAX_7BIT MAX_8BIT MAX_16BIT MAX_32BIT MAX_5BIT MAX_15BIT MAX_31BIT
  rcases h with ⟨hlow, hhigh⟩ | ⟨_, k, hmem, hpos, hlt⟩ | ⟨_, k, hmem, hlow, hhigh⟩
  · split_ifs <;> simp only [List.length_cons, List.length_nil, length_written] <;> omega
  · simp only [List.mem_cons, List.not_mem_nil, or_false, Prod.mk.injEq] at hmem
    rcases hmem with ⟨-, rfl⟩ | ⟨-, rfl⟩ | ⟨-, rfl⟩ <;>
      split_ifs <;> simp only [List.length_cons, List.length_nil, length_written] <;> omega
  · simp only [List.mem_cons, List.not_mem_nil, or_false, Prod.mk.injEq] at hmem
    rcases hmem with ⟨-, rfl⟩ | ⟨-, rfl⟩ | ⟨-, rfl⟩ | ⟨-, rfl⟩ | ⟨-, rfl⟩ <;>
      split_ifs <;> simp only [List.length_cons, List.length_nil, length_written] <;> omega

/-- A smaller size needs no longer a header. -/
theorem sizeHeader_le {fixed wide16 wide32 : UInt8} {size larger : Nat} {header : List UInt8}
    (hle : size ≤ larger)
    (h : SizeForm fixed 16 [(wide16, 2, 2 ^ 16), (wide32, 4, 2 ^ 31)] larger header) :
    (sizeHeader fixed wide16 wide32 size).length ≤ header.length := by
  unfold sizeHeader MAX_4BIT MAX_16BIT
  rcases h with hlt | ⟨_, k, bound, hmem, hlt⟩
  · rw [if_pos (by omega)]
    exact le_refl _
  · simp only [List.mem_cons, List.not_mem_nil, or_false, Prod.mk.injEq] at hmem
    rcases hmem with ⟨-, rfl, rfl⟩ | ⟨-, rfl, rfl⟩ <;>
      split_ifs <;> simp only [List.length_cons, List.length_nil, length_written] <;> omega

theorem packString_le {s : Str} {code : List UInt8} (h : TextForm plainSpelling s code) :
    (packString s).length ≤ code.length := by
  obtain ⟨header, data, rfl, hsize, rfl⟩ := h
  unfold packString MAX_5BIT MAX_8BIT MAX_16BIT
  simp only [List.length_append, Nat.add_le_add_iff_right]
  rcases hsize with hlt | ⟨_, k, bound, hmem, hlt⟩
  · rw [if_pos (by omega)]
    exact le_refl _
  · simp only [List.mem_cons, List.not_mem_nil, or_false, Prod.mk.injEq] at hmem
    rcases hmem with ⟨-, rfl, rfl⟩ | ⟨-, rfl, rfl⟩ | ⟨-, rfl, rfl⟩ <;>
      split_ifs <;> simp only [List.length_cons, List.length_nil, length_written] <;> omega

theorem length_packFields (rt : JavaRuntime) (fields : List (Str × Json)) :
    (packFields rt fields).length =
      (fields.map fun field => (packString field.1 ++ packJson rt field.2).length).sum := by
  induction fields with
  | nil => rfl
  | cons field rest ih =>
    rw [packFields, List.length_append, ih, List.map_cons, List.sum_cons]

section Shortest

variable [ScanOrder Str]

/-- The fields of the map are some of those that were written. -/
theorem length_packFields_ofEntries_le (rt : JavaRuntime) (fields : List (Str × Json)) :
    (packFields rt (ScanMap.ofEntries fields).entries).length ≤
      (packFields rt fields).length := by
  obtain ⟨others, hperm, hsublist⟩ := ScanMap.entries_ofEntries_subperm fields
  rw [length_packFields, length_packFields, ← (hperm.map _).sum_eq]
  exact (hsublist.map _).sum_le_sum fun _ _ => Nat.zero_le _

mutual

theorem length_packJson_le (rt : JavaRuntime) : ∀ {v : Json} {code : List UInt8},
    Encodes plainSpelling v code → (packJson rt v).length ≤ code.length
  | _, _, .null => le_refl _
  | _, _, .boolean _ => le_refl _
  | _, _, .number _ _ h => by
      obtain ⟨n, rfl, hlong⟩ := h
      rw [packJson, JsNumberCodec.pack, hlong.validLong_eq]
      exact hlong.packLong_le
  | _, _, .string _ _ h => packString_le h
  | _, _, .array items header code hsize hitems => by
      have hheader := sizeHeader_le (le_refl items.length) hsize
      have hcode := length_packItems_le rt hitems
      rw [packJson, writeSeqHeader, List.length_append, List.length_append]
      exact Nat.add_le_add hheader hcode
  | _, _, .object fields header code hsize hfields => by
      have hheader := sizeHeader_le (ScanMap.entries_ofEntries_subperm fields).length_le hsize
      have hcode := length_packFields_le rt hfields
      have hsome := length_packFields_ofEntries_le rt fields
      rw [packJson, writeMapHeader, List.length_append, List.length_append]
      exact Nat.add_le_add hheader (hsome.trans hcode)

theorem length_packItems_le (rt : JavaRuntime) : ∀ {items : List Json} {code : List UInt8},
    EncodesItems plainSpelling items code → (packItems rt items).length ≤ code.length
  | _, _, .nil => le_refl _
  | _, _, .cons item rest front back hitem hrest => by
      have hfront := length_packJson_le rt hitem
      have hback := length_packItems_le rt hrest
      rw [packItems, List.length_append, List.length_append]
      exact Nat.add_le_add hfront hback

theorem length_packFields_le (rt : JavaRuntime) : ∀ {fields : List (Str × Json)}
    {code : List UInt8}, EncodesFields plainSpelling fields code →
      (packFields rt fields).length ≤ code.length
  | _, _, .nil => le_refl _
  | _, _, .cons key value rest front middle back hkey hvalue hrest => by
      have hfront := packString_le hkey
      have hmiddle := length_packJson_le rt hvalue
      have hback := length_packFields_le rt hrest
      simp only [packFields, List.length_append]
      omega

end

/-- **Shortest codes.**  What is packed is no longer than any other code of the value that writes
whole numbers as such and texts in UTF-8. -/
theorem packJson_shortest (rt : JavaRuntime) {v : Json} {code : List UInt8}
    (h : Encodes plainSpelling v code) : (packJson rt v).length ≤ code.length :=
  length_packJson_le rt h

end Shortest

/-- `[5]`, its size and its number in the longest form. -/
theorem packJson_shortest_padded :
    (packJson fewNumbers (.array [.number 5])).length ≤
      ([MP_ARRAY32, 0, 0, 0, 1] ++ ([MP_UINT64, 0, 0, 0, 0, 0, 0, 0, 5] ++ [])).length := by
  apply packJson_shortest
  have hnumber : LongForm 5 [MP_UINT64, 0, 0, 0, 0, 0, 0, 0, 5] :=
    .signed MP_UINT64 8 (by decide) (by decide) (by decide)
  have hsize : ArraySize 1 [MP_ARRAY32, 0, 0, 0, 1] :=
    .wide MP_ARRAY32 4 (2 ^ 31) (by decide) (by decide)
  have hitem : Encodes plainSpelling (.number 5) [MP_UINT64, 0, 0, 0, 0, 0, 0, 0, 5] :=
    .number _ _ ⟨5, rfl, hnumber⟩
  exact .array [.number 5] _ _ hsize (.cons _ _ _ _ hitem .nil)

end DsaBroker
