import DsaBroker.MsgpackForms

/-!
# Unpacking what was packed

A packed value is read back whatever follows it, and `delivered` says as what.  Whole numbers of
64 bits arrive as they were, other numbers as the floating point number that they are packed as.
A surrogate without a partner arrives as a question mark, and the fields of an object in the order
of Scala's map.  So a value arrives unchanged, but for the order of fields, just when its texts and
its other numbers do (`round_trip_iff`).
-/

namespace DsaBroker

open StreamReader

/-! ### Texts -/

theorem utf8Decode_cons_points {point : Nat} (h : isScalar point = true) (data : List UInt8) :
    utf8Decode (((utf8Bytes point).map UInt8.ofNat ++ data).map UInt8.toNat) =
      (utf8Decode (data.map UInt8.toNat)).map (utf16 point ++ ·) := by
  have hlt : point < 0x110000 := by
    simp only [isScalar, Bool.or_eq_true, Bool.and_eq_true, decide_eq_true_eq] at h
    omega
  have hbytes : ((utf8Bytes point).map UInt8.ofNat).map UInt8.toNat = utf8Bytes point := by
    rw [List.map_map]
    conv_rhs => rw [← List.map_id (utf8Bytes point)]
    apply List.map_congr_left
    intro byte hbyte
    rw [Function.comp_apply, UInt8.toNat_ofNat', Nat.mod_eq_of_lt (utf8Bytes_lt hlt hbyte), id]
  rw [List.map_append, hbytes, utf8Decode_utf8Bytes h]

theorem utf8Decode_getBytesUtf8 (s : Str) :
    utf8Decode ((getBytesUtf8 s).map UInt8.toNat) = some (replaceUnpaired s) := by
  have hquestion : ∀ data : List UInt8,
      utf8Decode ((questionMark.toUInt8 :: data).map UInt8.toNat) =
        (utf8Decode (data.map UInt8.toNat)).map (questionMark :: ·) := fun data =>
    @utf8Decode_cons_points 63 (by decide) data
  fun_induction getBytesUtf8 s with
  | case1 => rfl
  | case2 c hhigh =>
    rw [hquestion, replaceUnpaired.eq_def]
    simp only [hhigh, if_true]
    rfl
  | case3 c hhigh d more hlow ih =>
    rw [utf8Decode_cons_points (isScalar_codePoint hhigh hlow), ih, utf16_codePoint hhigh hlow]
    conv_rhs => rw [replaceUnpaired.eq_def]
    simp only [hhigh, hlow, if_true]
    rfl
  | case4 c hhigh d more hlow ih =>
    rw [hquestion, ih]
    conv_rhs => rw [replaceUnpaired.eq_def]
    simp only [hhigh, hlow, if_true, if_false, Bool.false_eq_true]
    rfl
  | case5 c rest hhigh hlow ih =>
    rw [hquestion, ih]
    conv_rhs => rw [replaceUnpaired.eq_def]
    simp only [hhigh, hlow, if_true, if_false, Bool.false_eq_true]
    rfl
  | case6 c rest hhigh hlow ih =>
    rw [utf8Decode_cons_points (isScalar_toNat hhigh hlow), ih, utf16_toNat,
      replaceUnpaired_cons hhigh hlow]
    rfl

theorem newString_getBytesUtf8 (rt : JavaRuntime) (s : Str) :
    rt.newString (getBytesUtf8 s) = replaceUnpaired s := by
  rw [JavaRuntime.newString, utf8Decode_getBytesUtf8, Option.getD_some]

theorem packedFor_packString (rt : JavaRuntime) {s : Str}
    (h : (getBytesUtf8 s).length < 2 ^ 31) :
    PackedFor (StringCodec.unpackFuncMap rt) (packString s) (.ok (replaceUnpaired s)) := by
  obtain ⟨header, hcode, hsize⟩ := textSize_packString h
  rw [hcode, ← newString_getBytesUtf8 rt]
  exact packedFor_text rt hsize

/-! ### Values -/

def readNumber (read : Option Rat) : Except UnpackError Json :=
  match read with
  | some q => .ok (.number q)
  | none => .error .notANumber

/-- What a number that is packed arrives as. -/
def deliveredNumber (rt : JavaRuntime) (value : Rat) : Except UnpackError Json :=
  match validLong value with
  | some n => .ok (.number n)
  | none =>
      match rt.exactFloat value with
      | some bits => readNumber (rt.ofFloat bits)
      | none => readNumber (rt.ofDouble (rt.doubleValue value))

section Delivered

variable [ScanOrder Str]

mutual

/-- What a packed value is unpacked as. -/
def delivered (rt : JavaRuntime) : Json → Except UnpackError Json
  | .null => .ok .null
  | .boolean value => .ok (.boolean value)
  | .number value => deliveredNumber rt value
  | .string value => .ok (.string (replaceUnpaired value))
  | .array items => (deliveredItems rt items).map .array
  | .object fields =>
      (deliveredFields rt fields).map fun entries => .object (ScanMap.ofEntries entries).entries

def deliveredItems (rt : JavaRuntime) : List Json → Except UnpackError (List Json)
  | [] => .ok []
  | item :: rest => do
      let item' ← delivered rt item
      let rest' ← deliveredItems rt rest
      pure (item' :: rest')

def deliveredFields (rt : JavaRuntime) : List (Str × Json) → Except UnpackError (List (Str × Json))
  | [] => .ok []
  | (key, value) :: rest => do
      let value' ← delivered rt value
      let rest' ← deliveredFields rt rest
      pure ((replaceUnpaired key, value') :: rest')

end

end Delivered

mutual

/-- What Java holds: arrays and collections have less than `2 ^ 31` elements, and a map has a key
once. -/
def Fits : Json → Prop
  | .string value => (getBytesUtf8 value).length < 2 ^ 31
  | .array items => items.length < 2 ^ 31 ∧ FitItems items
  | .object fields => fields.length < 2 ^ 31 ∧ (fields.map Prod.fst).Nodup ∧ FitFields fields
  | _ => True

def FitItems : List Json → Prop
  | [] => True
  | item :: rest => Fits item ∧ FitItems rest

def FitFields : List (Str × Json) → Prop
  | [] => True
  | (key, value) :: rest =>
      (getBytesUtf8 key).length < 2 ^ 31 ∧ Fits value ∧ FitFields rest

end

/-- The header bytes that `JsValueCodec` knows. -/
def jsValueHeaders : List UInt8 :=
  [MP_NULL] ++ [MP_FALSE, MP_TRUE] ++
    ([MP_STR8, MP_STR16, MP_STR32] ++
      (List.range 32).map fun len => MP_FIXSTR ||| UInt8.ofNat len) ++
    ([MP_UINT16, MP_INT16, MP_UINT32, MP_INT32, MP_UINT64, MP_INT64, MP_UINT8, MP_INT8] ++
      ((List.range 160).map fun i => UInt8.ofNat (i + 224)) ++ [MP_FLOAT] ++ [MP_DOUBLE]) ++
    ([MP_MAP16, MP_MAP32] ++ (List.range 16).map fun len => MP_FIXMAP ||| UInt8.ofNat len) ++
    ([MP_ARRAY16, MP_ARRAY32] ++ (List.range 16).map fun len => MP_FIXARRAY ||| UInt8.ofNat len)

/-- No number comes twice, and none that was seen before. -/
def freshIn (seen : Nat) : List Nat → Bool
  | [] => true
  | n :: rest => !seen.testBit n && freshIn (seen ||| 2 ^ n) rest

theorem nodup_of_freshIn {seen : Nat} {numbers : List Nat} (h : freshIn seen numbers = true) :
    numbers.Nodup ∧ ∀ n ∈ numbers, seen.testBit n = false := by
  induction numbers generalizing seen with
  | nil => exact ⟨List.nodup_nil, fun n hn => absurd hn List.not_mem_nil⟩
  | cons n rest ih =>
    rw [freshIn, Bool.and_eq_true, Bool.not_eq_true'] at h
    obtain ⟨hnodup, hrest⟩ := ih h.2
    have hold : ∀ m ∈ rest, seen.testBit m = false ∧ n ≠ m := by
      intro m hm
      have hbit := hrest m hm
      rw [Nat.testBit_or, Bool.or_eq_false_iff, Nat.testBit_two_pow,
        decide_eq_false_iff_not] at hbit
      exact hbit
    refine ⟨List.nodup_cons.mpr ⟨fun hn => (hold n hn).2 rfl, hnodup⟩, ?_⟩
    rw [List.forall_mem_cons]
    exact ⟨h.1, fun m hm => (hold m hm).1⟩

theorem nodup_jsValueHeaders : jsValueHeaders.Nodup := by
  have hfresh : freshIn 0 (jsValueHeaders.map UInt8.toNat) = true := by decide +kernel
  exact List.Nodup.of_map UInt8.toNat (nodup_of_freshIn hfresh).1

theorem nodup_stringCodec (rt : JavaRuntime) :
    ((StringCodec.unpackFuncMap rt).map Prod.fst).Nodup := by
  have hkeys : (StringCodec.unpackFuncMap rt).map Prod.fst =
      [MP_STR8, MP_STR16, MP_STR32] ++
        (List.range 32).map fun len => MP_FIXSTR ||| UInt8.ofNat len := rfl
  rw [hkeys]
  decide +kernel

theorem packedFor_bits {β : Type} (headerByte : UInt8) {k n : Nat} (hlt : n < 256 ^ k)
    (ofNat : Nat → β) (read : β → Option Rat) :
    PackedFor (FastByteMap.mapValues
        [(headerByte, (fun data => ofNat (unsigned data)) <$> readFully k)]
        fun r => r >>= fun b => bigDecimal (read b))
      (headerByte :: written k n) (readNumber (read (ofNat n))) := by
  refine ⟨headerByte, written k n, _, rfl, List.mem_singleton_self _, ?_⟩
  have hbits := (yields_readFully (written k n)).map fun data => ofNat (unsigned data)
  have hvalue : unsigned (written k n) = n := by
    have hcast : (n : Int) < 256 ^ k := by exact_mod_cast hlt
    exact_mod_cast unsigned_written (Int.natCast_nonneg n) hcast
  rw [length_written, Except.map, hvalue] at hbits
  have hnumber : Yields (bigDecimal (read (ofNat n))) [] (readNumber (read (ofNat n))) := by
    intro rest
    rcases read (ofNat n) with _ | q
    · rfl
    · rfl
  rw [← List.append_nil (written k n)]
  exact hbits.bind hnumber

theorem validLong_eq_some {value : Rat} {n : Int} (h : validLong value = some n) :
    -2 ^ 63 ≤ n ∧ n < 2 ^ 63 ∧ value = n := by
  rw [validLong] at h
  split_ifs at h with hlong
  obtain rfl := Option.some.inj h
  exact ⟨hlong.2.1, hlong.2.2, (Rat.den_eq_one_iff value).mp hlong.1 |>.symm⟩

theorem packedFor_number (rt : JavaRuntime) (value : Rat) :
    PackedFor (JsNumberCodec.unpackFuncMap rt) (JsNumberCodec.pack rt value)
      (deliveredNumber rt value) := by
  rw [JsNumberCodec.pack, deliveredNumber]
  rcases hlong : validLong value with _ | n
  · rcases hfloat : rt.exactFloat value with _ | bits
    · apply PackedFor.right
      have hbits := packedFor_bits MP_DOUBLE (show (rt.doubleValue value).toNat < 256 ^ 8 from
        (rt.doubleValue value).toNat_lt) UInt64.ofNat rt.ofDouble
      rw [UInt64.ofNat_toNat] at hbits
      exact hbits
    · apply PackedFor.left
      apply PackedFor.right
      have hbits := packedFor_bits MP_FLOAT (show bits.toNat < 256 ^ 4 from bits.toNat_lt)
        UInt32.ofNat rt.ofFloat
      rw [UInt32.ofNat_toNat] at hbits
      exact hbits
  · obtain ⟨hlow, hhigh, -⟩ := validLong_eq_some hlong
    apply PackedFor.left
    apply PackedFor.left
    exact (packedFor_long (longForm_packLong hlow hhigh)).map fun n : Int =>
      (JsValue.number (n : Rat) : Json)

section Packed

variable [ScanOrder Str]

theorem map_fst_jsValueFuncMap (rt : JavaRuntime) (codec : Unpacker Json) :
    (jsValueFuncMap rt codec).map Prod.fst = jsValueHeaders := by
  have hvalues : ∀ {α γ : Type} (m : FastByteMap α) (f : α → γ),
      (m.mapValues f).map Prod.fst = m.map Prod.fst := by
    intro α γ m f
    rw [FastByteMap.mapValues, List.map_map]
    rfl
  simp only [jsValueFuncMap, JsNumberCodec.unpackFuncMap, JsObjectCodec.unpackFuncMap,
    List.map_append, hvalues]
  rfl

/-- A code that one of the codecs reads is read by `JsValueCodec`. -/
theorem PackedFor.yields_jsValue {rt : JavaRuntime} {depth : Nat} {code : List UInt8}
    {outcome : Except UnpackError Json}
    (h : PackedFor (jsValueFuncMap rt (unpackJson rt depth)) code outcome) :
    Yields (unpackJson rt (depth + 1)) code outcome := by
  apply h.yields
  rw [map_fst_jsValueFuncMap]
  exact nodup_jsValueHeaders

/-- A code is read at any depth that its length allows. -/
theorem yields_of_packedFor {rt : JavaRuntime} {code : List UInt8}
    {outcome : Except UnpackError Json} (h : ∀ depth, code.length ≤ depth + 1 →
      PackedFor (jsValueFuncMap rt (unpackJson rt depth)) code outcome) (depth : Nat)
    (hdepth : code.length ≤ depth) : Yields (unpackJson rt depth) code outcome := by
  have hpos := (h code.length (Nat.le_succ _)).length_pos
  obtain ⟨below, rfl⟩ := Nat.exists_eq_succ_of_ne_zero (Nat.ne_of_gt (hpos.trans_le hdepth))
  exact (h below hdepth).yields_jsValue

theorem yields_entry (rt : JavaRuntime) {depth : Nat} {key : Str} {code : List UInt8}
    {outcome : Except UnpackError Json} (hkey : (getBytesUtf8 key).length < 2 ^ 31)
    (hvalue : Yields (unpackJson rt depth) code outcome) :
    Yields (unpackEntry (Codec.unpack (StringCodec.unpackFuncMap rt)) (unpackJson rt depth))
      (packString key ++ code) (outcome.map fun value => (replaceUnpaired key, value)) := by
  apply ((packedFor_packString rt hkey).yields (nodup_stringCodec rt)).bind
  have hpair := hvalue.map fun value => (replaceUnpaired key, value)
  rwa [map_eq_bind] at hpair

mutual

/-- By cases of the value: it is packed for the codec of its kind.  The header byte of a collection
counts for its depth. -/
theorem packedFor_packJson (rt : JavaRuntime) : ∀ v : Json, Fits v → ∀ depth,
    (packJson rt v).length ≤ depth + 1 →
      PackedFor (jsValueFuncMap rt (unpackJson rt depth)) (packJson rt v) (delivered rt v)
  | .null, _, _, _ => ⟨MP_NULL, [], _, rfl, List.mem_cons_self, yields_pure _⟩
  | .boolean value, _, _, _ => by
      have hboolean : PackedFor BooleanCodec.unpackFuncMap (packJson rt (.boolean value))
          (.ok value) := by
        rcases value with _ | _
        · exact ⟨_, _, _, rfl, List.mem_cons_self, yields_pure false⟩
        · exact ⟨_, _, _, rfl, List.mem_cons_of_mem _ List.mem_cons_self, yields_pure true⟩
      have hvalue := hboolean.map (JsValue.boolean : Bool → Json)
      exact ((((hvalue.right _).left _).left _).left _).left _
  | .number value, _, _, _ => (((packedFor_number rt value).right _).left _).left _
  | .string value, hfits, _, _ => by
      have hvalue := (packedFor_packString rt hfits).map (JsValue.string : Str → Json)
      exact (((hvalue.right _).left _).left _).left _
  | .array items, hfits, depth, hdepth => by
      have hheader := sizeForm_sizeHeader MP_FIXARRAY MP_ARRAY16 MP_ARRAY32 hfits.1
      have hpos := hheader.length_pos
      rw [packJson, writeSeqHeader, List.length_append] at hdepth
      have hitems := yields_packItems rt items hfits.2 depth (by omega)
      have hseq : Yields (unpackSeq (unpackJson rt depth) items.length) (packItems rt items)
          (deliveredItems rt items) := by
        rw [unpackSeq, if_neg (by omega), Int.toNat_natCast]
        exact hitems
      have hvalue := (packedFor_sized hheader hseq).map (JsValue.array : List Json → Json)
      exact hvalue.right _
  | .object fields, hfits, depth, hdepth => by
      have hheader := sizeForm_sizeHeader MP_FIXMAP MP_MAP16 MP_MAP32 hfits.1
      -- the header takes at least one byte off the depth, so the fields have enough of it
      have hpos := hheader.length_pos
      rw [packJson, writeMapHeader, List.length_append] at hdepth
      have hfields := (yields_packFields rt fields hfits.2.2 depth (by omega)).map ScanMap.ofEntries
      have hmap : Yields (unpackMap (Codec.unpack (StringCodec.unpackFuncMap rt))
          (unpackJson rt depth) fields.length) (packFields rt fields)
          ((deliveredFields rt fields).map ScanMap.ofEntries) := by
        rw [unpackMap, if_neg (by omega), Int.toNat_natCast]
        exact hfields
      have hvalue := (packedFor_sized hheader hmap).map fun map =>
        (JsValue.object map.entries : Json)
      rw [delivered]
      rcases hdelivered : deliveredFields rt fields with e | entries
      · rw [hdelivered] at hvalue
        exact (hvalue.right _).left _
      · rw [hdelivered] at hvalue
        exact (hvalue.right _).left _

theorem yields_packItems (rt : JavaRuntime) : ∀ items : List Json, FitItems items → ∀ depth,
    (packItems rt items).length ≤ depth →
      Yields (repeated (unpackJson rt depth) items.length) (packItems rt items)
        (deliveredItems rt items)
  | [], _, _, _ => yields_pure []
  | item :: rest, hfits, depth, hdepth => by
      rw [packItems, List.length_append] at hdepth
      have hitem := yields_of_packedFor (packedFor_packJson rt item hfits.1) depth (by omega)
      exact hitem.repeated_succ (yields_packItems rt rest hfits.2 depth (by omega))

theorem yields_packFields (rt : JavaRuntime) : ∀ fields : List (Str × Json), FitFields fields →
    ∀ depth, (packFields rt fields).length ≤ depth →
      Yields (repeated (unpackEntry (Codec.unpack (StringCodec.unpackFuncMap rt))
        (unpackJson rt depth)) fields.length) (packFields rt fields) (deliveredFields rt fields)
  | [], _, _, _ => yields_pure []
  | (key, value) :: rest, hfits, depth, hdepth => by
      rw [packFields, List.length_append, List.length_append] at hdepth
      have hvalue := yields_of_packedFor (packedFor_packJson rt value hfits.2.1) depth
        (by omega)
      have hrest := yields_packFields rt rest hfits.2.2 depth (by omega)
      have hall := (yields_entry rt hfits.1 hvalue).repeated_succ hrest
      rw [deliveredFields]
      rcases hdelivered : delivered rt value with e | value'
      · rw [hdelivered] at hall
        exact hall
      · rw [hdelivered] at hall
        exact hall

end

/-- What a packed value gives, whatever follows it. -/
theorem unpack_packJson (rt : JavaRuntime) {v : Json} (h : Fits v) (rest : List UInt8) :
    unpack rt (packJson rt v ++ rest) = delivered rt v := by
  have hlength : (packJson rt v).length ≤ (packJson rt v ++ rest).length + 1 := by
    rw [List.length_append]
    omega
  rw [unpack, yields_of_packedFor (packedFor_packJson rt v h) _ hlength rest]
  rcases delivered rt v with e | v'
  · rfl
  · rfl

end Packed

/-! ### What arrives unchanged -/

mutual

/-- The same value, but for the order of the fields of its objects. -/
def Alike : Json → Json → Prop
  | .array items, other => ∃ items', other = .array items' ∧ AlikeItems items items'
  | .object fields, other =>
      ∃ fields' entries, other = .object entries ∧ AlikeFields fields fields' ∧
        fields'.Perm entries
  | v, other => other = v

def AlikeItems : List Json → List Json → Prop
  | [], items' => items' = []
  | item :: rest, items' =>
      ∃ item' rest', items' = item' :: rest' ∧ Alike item item' ∧ AlikeItems rest rest'

def AlikeFields : List (Str × Json) → List (Str × Json) → Prop
  | [], fields' => fields' = []
  | (key, value) :: rest, fields' =>
      ∃ value' rest', fields' = (key, value') :: rest' ∧ Alike value value' ∧ AlikeFields rest rest'

end

mutual

/-- No surrogate is without its partner, and the numbers are read as they were written. -/
def Portable (rt : JavaRuntime) : Json → Prop
  | .number value => deliveredNumber rt value = .ok (.number value)
  | .string value => hasUnpairedSurrogate value = false
  | .array items => PortableItems rt items
  | .object fields => PortableFields rt fields
  | _ => True

def PortableItems (rt : JavaRuntime) : List Json → Prop
  | [] => True
  | item :: rest => Portable rt item ∧ PortableItems rt rest

def PortableFields (rt : JavaRuntime) : List (Str × Json) → Prop
  | [] => True
  | (key, value) :: rest =>
      hasUnpairedSurrogate key = false ∧ Portable rt value ∧ PortableFields rt rest

end

theorem hasUnpairedSurrogate_replaceUnpaired (s : Str) :
    hasUnpairedSurrogate (replaceUnpaired s) = false := by
  apply replaceUnpaired_eq_self.mp
  fun_induction replaceUnpaired s with
  | case1 => rfl
  | case2 c hhigh => rfl
  | case3 c hhigh d more hlow ih =>
    rw [replaceUnpaired.eq_def]
    simp only [hhigh, hlow, if_true, ih]
  | case4 c hhigh d more hlow ih => rw [replaceUnpaired_cons (by decide) (by decide), ih]
  | case5 c rest hhigh hlow ih => rw [replaceUnpaired_cons (by decide) (by decide), ih]
  | case6 c rest hhigh hlow ih => rw [replaceUnpaired_cons hhigh hlow, ih]

theorem AlikeFields.keys_eq : ∀ {fields fields' : List (Str × Json)},
    AlikeFields fields fields' → fields'.map Prod.fst = fields.map Prod.fst
  | [], _, h => by
      rw [h]
  | (key, value) :: rest, _, h => by
      obtain ⟨value', rest', rfl, -, hrest⟩ := h
      rw [List.map_cons, List.map_cons, AlikeFields.keys_eq hrest]

section Arrives

variable [ScanOrder Str]

theorem deliveredFields_keys {rt : JavaRuntime} : ∀ {fields entries : List (Str × Json)},
    deliveredFields rt fields = .ok entries →
      entries.map Prod.fst = fields.map fun field => replaceUnpaired field.1
  | [], entries, h => by
      rw [← Except.ok.inj h]
      rfl
  | (key, value) :: rest, entries, h => by
      rw [deliveredFields] at h
      rcases hvalue : delivered rt value with e | value'
      · rw [hvalue] at h
        simp only [bind, Except.bind, reduceCtorEq] at h
      · rcases hrest : deliveredFields rt rest with e | rest'
        · rw [hvalue, hrest] at h
          simp only [bind, Except.bind, reduceCtorEq] at h
        · rw [hvalue, hrest] at h
          rw [← Except.ok.inj h, List.map_cons, List.map_cons, deliveredFields_keys hrest]

omit [ScanOrder Str] in
theorem except_map_eq_ok {ε α β : Type} {f : α → β} {x : Except ε α} {b : β} :
    x.map f = .ok b ↔ ∃ a, x = .ok a ∧ f a = b := by
  rcases x with e | a
  · simp [Except.map]
  · simp [Except.map]

omit [ScanOrder Str] in
theorem except_bind_eq_ok {ε α β : Type} {f : α → Except ε β} {x : Except ε α} {b : β} :
    (x >>= f) = .ok b ↔ ∃ a, x = .ok a ∧ f a = .ok b := by
  rcases x with e | a
  · simp [bind, Except.bind]
  · simp [bind, Except.bind]

/-- If an object arrives alike, its keys did, and its fields arrive in their places. -/
theorem alikeFields_of_alike {rt : JavaRuntime} {fields fields' entries : List (Str × Json)}
    (hnodup : (fields.map Prod.fst).Nodup) (halike : AlikeFields fields fields')
    (hentries : deliveredFields rt fields = .ok entries)
    (hperm : fields'.Perm (ScanMap.ofEntries entries).entries) : fields' = entries := by
  have hkeys := halike.keys_eq
  have hwell : ∀ k ∈ fields.map Prod.fst, replaceUnpaired k = k := by
    intro k hk
    rw [← hkeys] at hk
    obtain ⟨entry, hentry, rfl⟩ := List.mem_map.mp hk
    have hmem := ScanMap.mem_keys_ofEntries
      (ScanMap.mem_keys_of_mem_entries (hperm.subset hentry))
    rw [deliveredFields_keys hentries] at hmem
    obtain ⟨field, -, hfield⟩ := List.mem_map.mp hmem
    rw [← hfield]
    exact replaceUnpaired_eq_self.mpr (hasUnpairedSurrogate_replaceUnpaired _)
  have hsame : entries.map Prod.fst = fields.map Prod.fst := by
    rw [deliveredFields_keys hentries]
    apply List.map_congr_left
    intro field hfield
    exact hwell _ (List.mem_map_of_mem hfield)
  apply ScanMap.eq_of_perm_of_keys
  · have hall := hperm.trans (ScanMap.entries_perm_listing _)
    rw [ScanMap.listing_ofEntries (by rw [hsame]; exact hnodup)] at hall
    exact hall
  · rw [hkeys, hsame]
  · rw [hkeys]
    exact hnodup

mutual

theorem alike_delivered_iff (rt : JavaRuntime) : ∀ v : Json, Fits v →
    ((∃ v', delivered rt v = .ok v' ∧ Alike v v') ↔ Portable rt v)
  | .null, _ => by simp [delivered, Alike, Portable]
  | .boolean value, _ => by simp [delivered, Alike, Portable]
  | .number value, _ => by
      simp only [delivered, Alike, Portable]
      exact ⟨fun ⟨v', hv', heq⟩ => heq ▸ hv', fun h => ⟨_, h, rfl⟩⟩
  | .string value, _ => by
      simp only [delivered, Alike, Portable]
      rw [← replaceUnpaired_eq_self]
      constructor
      · rintro ⟨v', hv', rfl⟩
        exact JsValue.string.inj (Except.ok.inj hv')
      · intro h
        exact ⟨_, by rw [h], rfl⟩
  | .array items, hfits => by
      rw [Portable, ← alike_deliveredItems_iff rt items hfits.2, delivered]
      constructor
      · rintro ⟨v', hv', items', rfl, halike⟩
        obtain ⟨items'', hitems, heq⟩ := except_map_eq_ok.mp hv'
        obtain rfl := JsValue.array.inj heq
        exact ⟨_, hitems, halike⟩
      · rintro ⟨items', hitems, halike⟩
        exact ⟨.array items', except_map_eq_ok.mpr ⟨items', hitems, rfl⟩, items', rfl, halike⟩
  | .object fields, hfits => by
      rw [Portable, ← alike_deliveredFields_iff rt fields hfits.2.2, delivered]
      constructor
      · rintro ⟨v', hv', fields', entries, rfl, halike, hperm⟩
        obtain ⟨entries', hentries, heq⟩ := except_map_eq_ok.mp hv'
        obtain rfl := JsValue.object.inj heq
        obtain rfl := alikeFields_of_alike hfits.2.1 halike hentries hperm
        exact ⟨_, hentries, halike⟩
      · rintro ⟨fields', hfields, halike⟩
        refine ⟨_, except_map_eq_ok.mpr ⟨fields', hfields, rfl⟩, fields', _, rfl, halike, ?_⟩
        have hnodup : (fields'.map Prod.fst).Nodup := by
          rw [halike.keys_eq]
          exact hfits.2.1
        have hperm := ScanMap.entries_perm_listing (ScanMap.ofEntries fields')
        rw [ScanMap.listing_ofEntries hnodup] at hperm
        exact hperm.symm

theorem alike_deliveredItems_iff (rt : JavaRuntime) : ∀ items : List Json, FitItems items →
    ((∃ items', deliveredItems rt items = .ok items' ∧ AlikeItems items items') ↔
      PortableItems rt items)
  | [], _ => by simp [deliveredItems, AlikeItems, PortableItems]
  | item :: rest, hfits => by
      rw [PortableItems, ← alike_delivered_iff rt item hfits.1,
        ← alike_deliveredItems_iff rt rest hfits.2, deliveredItems]
      constructor
      · rintro ⟨_, hok, item', rest', rfl, hitem, hrest⟩
        obtain ⟨item'', hitem', hok⟩ := except_bind_eq_ok.mp hok
        obtain ⟨rest'', hrest', hok⟩ := except_bind_eq_ok.mp hok
        obtain ⟨rfl, rfl⟩ := List.cons.inj (Except.ok.inj hok)
        exact ⟨⟨_, hitem', hitem⟩, _, hrest', hrest⟩
      · rintro ⟨⟨item', hitem', hitem⟩, rest', hrest', hrest⟩
        refine ⟨item' :: rest', ?_, item', rest', rfl, hitem, hrest⟩
        exact except_bind_eq_ok.mpr ⟨_, hitem', except_bind_eq_ok.mpr ⟨_, hrest', rfl⟩⟩

theorem alike_deliveredFields_iff (rt : JavaRuntime) : ∀ fields : List (Str × Json),
    FitFields fields →
      ((∃ fields', deliveredFields rt fields = .ok fields' ∧ AlikeFields fields fields') ↔
        PortableFields rt fields)
  | [], _ => by simp [deliveredFields, AlikeFields, PortableFields]
  | (key, value) :: rest, hfits => by
      rw [PortableFields, ← alike_delivered_iff rt value hfits.2.1,
        ← alike_deliveredFields_iff rt rest hfits.2.2, ← replaceUnpaired_eq_self, deliveredFields]
      constructor
      · rintro ⟨_, hok, value', rest', rfl, hvalue, hrest⟩
        obtain ⟨value'', hvalue', hok⟩ := except_bind_eq_ok.mp hok
        obtain ⟨rest'', hrest', hok⟩ := except_bind_eq_ok.mp hok
        obtain ⟨hentry, rfl⟩ := List.cons.inj (Except.ok.inj hok)
        obtain ⟨hkey, rfl⟩ := Prod.mk.inj hentry
        exact ⟨hkey, ⟨_, hvalue', hvalue⟩, _, hrest', hrest⟩
      · rintro ⟨hkey, ⟨value', hvalue', hvalue⟩, rest', hrest', hrest⟩
        refine ⟨(key, value') :: rest', ?_, value', rest', rfl, hvalue, hrest⟩
        refine except_bind_eq_ok.mpr ⟨_, hvalue', except_bind_eq_ok.mpr ⟨_, hrest', ?_⟩⟩
        rw [hkey]
        rfl

end

/-- **The round trip.**  A value that Java holds is unpacked as it was packed, whatever follows it
and but for the order of fields, just when its surrogates have their partners and its numbers are
read as they were written. -/
theorem round_trip_iff (rt : JavaRuntime) {v : Json} (h : Fits v) (rest : List UInt8) :
    (∃ v', unpack rt (packJson rt v ++ rest) = .ok v' ∧ Alike v v') ↔ Portable rt v := by
  rw [unpack_packJson rt h rest]
  exact alike_delivered_iff rt v h

end Arrives

/-- `{"n": [-7, 0.5, "é"], "ok": true}`. -/
def sample : Json :=
  .object [(str "n", .array [.number (-7), .number (1 / 2), .string [0xE9]]),
    (str "ok", .boolean true)]

theorem round_trip_iff_sample :
    (∃ v', unpack fewNumbers (packJson fewNumbers sample ++ [0xC1]) = .ok v' ∧ Alike sample v') ↔
      Portable fewNumbers sample := by
  apply round_trip_iff fewNumbers
  simp only [sample, Fits, FitFields, FitItems, and_true, true_and]
  decide +kernel

end DsaBroker
