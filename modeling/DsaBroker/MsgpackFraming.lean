import DsaBroker.MsgpackFormat

/-!
# Where a packed value ends

Nothing in MessagePack says where a value ends but the value itself.  `unpack` goes by the bytes of
the value alone, and leaves what follows them unread: a frame with a value and anything after it is
accepted.  A frame that ends early is refused, as one with no more input; just after the header of
a text of 32 bytes or more, where the length is read by `read`, the end is taken for a length that
is too large (`unpack_frames`).
-/

namespace DsaBroker

open StreamReader

/-- How an input that ends within a value is refused. -/
def CutShort (initial : List UInt8) (e : UnpackError) : Prop :=
  e = .noMoreInput ∨ e = .bytesTooLarge ∧ initial.getLast? = some MP_STR8

/-- The reader is framed after the header byte. -/
def FramedAfter {α : Type} (headerByte : UInt8) (r : Unpacker α) : Prop :=
  Framed (fun initial e => CutShort (headerByte :: initial) e) r

theorem cutShort_endsOnly : EndsOnly CutShort := by
  rintro front initial e (rfl | ⟨rfl, hlast⟩)
  · exact Or.inl rfl
  · refine Or.inr ⟨rfl, ?_⟩
    rw [List.getLast?_append, hlast, Option.some_or]

theorem framedAfter_of_framed {α : Type} {r : Unpacker α} (h : Framed CutShort r)
    (headerByte : UInt8) : FramedAfter headerByte r :=
  h.mono fun initial e => cutShort_endsOnly [headerByte] initial e

/-! ### The readers of the stream -/

theorem framed_readByte : Framed CutShort readByte := framed_next (Or.inl rfl)

theorem framed_readFully (size : Nat) : Framed CutShort (readFully size) := by
  apply framed_taking
  exact fun _ => Or.inl rfl

theorem framed_readUnsigned (k : Nat) : Framed CutShort (readUnsigned k) :=
  (framed_readFully k).map _

theorem framed_readSigned (k : Nat) : Framed CutShort (readSigned k) :=
  (framed_readFully k).map _

theorem framed_unpackString (rt : JavaRuntime) (size : Int) :
    Framed CutShort (unpackString rt size) := by
  apply Framed.map
  rw [unpackRaw]
  split_ifs
  · exact framed_refuse _
  · exact framed_readFully _

theorem framed_unpackSeq {α : Type} {codec : Unpacker α} (h : Framed CutShort codec) (size : Int) :
    Framed CutShort (unpackSeq codec size) := by
  rw [unpackSeq]
  split_ifs
  · exact framed_refuse _
  · exact h.repeated cutShort_endsOnly _

theorem framed_unpackEntry {κ α : Type} {keyCodec : Unpacker κ} {valCodec : Unpacker α}
    (hkey : Framed CutShort keyCodec) (hval : Framed CutShort valCodec) :
    Framed CutShort (unpackEntry keyCodec valCodec) :=
  hkey.bind cutShort_endsOnly fun _ => hval.bind cutShort_endsOnly fun _ => framed_pure _

theorem framed_unpackMap {κ α : Type} [DecidableEq κ] {keyCodec : Unpacker κ}
    {valCodec : Unpacker α} (hkey : Framed CutShort keyCodec) (hval : Framed CutShort valCodec)
    (size : Int) : Framed CutShort (unpackMap keyCodec valCodec size) := by
  rw [unpackMap]
  split_ifs
  · exact framed_refuse _
  · exact ((framed_unpackEntry hkey hval).repeated cutShort_endsOnly _).map _

/-- At the end of the input the length is read as `-1`, and that is too large. -/
theorem readOrEnd_bind_unpackString (rt : JavaRuntime) :
    readOrEnd >>= unpackString rt = next .bytesTooLarge >>= fun b => unpackString rt b.toNat := by
  funext input
  rcases input with _ | ⟨b, rest⟩
  · rfl
  · rfl

theorem framedAfter_readOrEnd (rt : JavaRuntime) :
    FramedAfter MP_STR8 (readOrEnd >>= unpackString rt) := by
  rw [readOrEnd_bind_unpackString]
  apply Framed.bind_after
  · exact framed_next (Or.inr ⟨rfl, rfl⟩)
  · intro b front _
    apply (framed_unpackString rt _).mono
    intro initial e
    rw [← List.cons_append]
    exact cutShort_endsOnly _ initial e

/-! ### Codecs -/

theorem FastByteMap.mem_of_get {ν : Type} {m : FastByteMap ν} {b : UInt8} {v : ν}
    (h : m.get b = some v) : (b, v) ∈ m := by
  induction m with
  | nil => simp only [FastByteMap.get, reduceCtorEq] at h
  | cons thing rest ih =>
    obtain ⟨k, w⟩ := thing
    rw [FastByteMap.get] at h
    rcases Option.or_eq_some_iff.mp h with hrest | ⟨-, hhead⟩
    · exact List.mem_cons_of_mem _ (ih hrest)
    · split_ifs at hhead with hk
      rw [hk, Option.some.inj hhead]
      exact List.mem_cons_self

theorem codec_unpack_nil {α : Type} (m : FastByteMap (Unpacker α)) :
    Codec.unpack m [] = .error .noMoreInput := rfl

theorem codec_unpack_cons {α : Type} (m : FastByteMap (Unpacker α)) (b : UInt8)
    (rest : List UInt8) :
    Codec.unpack m (b :: rest) = (m.get b).getD (refuse (.invalidType b)) rest := rfl

/-- Every reader of the map is framed after its header byte. -/
def AllFramed {α : Type} (m : FastByteMap (Unpacker α)) : Prop :=
  ∀ thing ∈ m, FramedAfter thing.1 thing.2

theorem AllFramed.append {α : Type} {m other : FastByteMap (Unpacker α)} (h : AllFramed m)
    (hother : AllFramed other) : AllFramed (m ++ other) := fun thing hthing =>
  (List.mem_append.mp hthing).elim (h thing) (hother thing)

theorem allFramed_of_framed {α : Type} {m : FastByteMap (Unpacker α)}
    (h : ∀ thing ∈ m, Framed CutShort thing.2) : AllFramed m := fun thing hthing =>
  framedAfter_of_framed (h thing hthing) thing.1

theorem AllFramed.mapValues {α γ : Type} {m : FastByteMap (Unpacker α)} (h : AllFramed m)
    {f : Unpacker α → Unpacker γ} (hf : ∀ headerByte r, FramedAfter headerByte r →
      FramedAfter headerByte (f r)) : AllFramed (m.mapValues f) := by
  intro thing hthing
  obtain ⟨inner, hinner, rfl⟩ := List.mem_map.mp hthing
  exact hf _ _ (h inner hinner)

theorem framed_bigDecimal {cut : List UInt8 → UnpackError → Prop} (value : Option Rat) :
    Framed cut (bigDecimal value) := by
  rcases value with _ | q
  · exact framed_refuse _
  · exact framed_pure _

theorem allFramed_booleanCodec : AllFramed BooleanCodec.unpackFuncMap := by
  apply allFramed_of_framed
  rw [BooleanCodec.unpackFuncMap, List.forall_mem_cons, List.forall_mem_singleton]
  exact ⟨framed_pure _, framed_pure _⟩

theorem allFramed_longCodec : AllFramed LongCodec.unpackFuncMap := by
  apply allFramed_of_framed
  intro thing hthing
  rcases List.mem_append.mp hthing with hread | hbyte
  · simp only [List.mem_cons, List.not_mem_nil, or_false] at hread
    rcases hread with rfl | rfl | rfl | rfl | rfl | rfl | rfl | rfl
    · exact framed_readUnsigned 2
    · exact framed_readSigned 2
    · exact framed_readUnsigned 4
    · exact framed_readSigned 4
    · exact framed_readSigned 8
    · exact framed_readSigned 8
    · exact framed_readUnsigned 1
    · exact framed_readSigned 1
  · obtain ⟨i, -, rfl⟩ := List.mem_map.mp hbyte
    exact framed_pure _

theorem allFramed_stringCodec (rt : JavaRuntime) : AllFramed (StringCodec.unpackFuncMap rt) := by
  intro thing hthing
  rcases List.mem_append.mp hthing with hread | hfix
  · simp only [List.mem_cons, List.not_mem_nil, or_false] at hread
    rcases hread with rfl | rfl | rfl
    · exact framedAfter_readOrEnd rt
    · exact framedAfter_of_framed ((framed_readUnsigned 2).bind cutShort_endsOnly
        (framed_unpackString rt)) _
    · exact framedAfter_of_framed ((framed_readSigned 4).bind cutShort_endsOnly
        (framed_unpackString rt)) _
  · obtain ⟨strlen, -, rfl⟩ := List.mem_map.mp hfix
    exact framedAfter_of_framed (framed_unpackString rt _) _

theorem allFramed_sized {α : Type} {sized : Int → Unpacker α}
    (h : ∀ size, Framed CutShort (sized size)) (fixed wide16 wide32 : UInt8) :
    AllFramed (sizedFuncMap fixed wide16 wide32 sized) := by
  apply allFramed_of_framed
  intro thing hthing
  rcases List.mem_append.mp hthing with hread | hfix
  · simp only [List.mem_cons, List.not_mem_nil, or_false] at hread
    rcases hread with rfl | rfl
    · exact (framed_readUnsigned 2).bind cutShort_endsOnly h
    · exact (framed_readSigned 4).bind cutShort_endsOnly h
  · obtain ⟨len, -, rfl⟩ := List.mem_map.mp hfix
    exact h _

theorem framed_codec {α : Type} {m : FastByteMap (Unpacker α)} (h : AllFramed m) :
    Framed CutShort (Codec.unpack m) := by
  apply framed_readByte.bind_after
  intro headerByte front hfront
  have hsingle : front = [headerByte] := by
    rcases front with _ | ⟨b, rest⟩
    · rw [readByte, next] at hfront
      simp only [reduceCtorEq] at hfront
    · obtain ⟨rfl, rfl⟩ := Prod.mk.inj (Except.ok.inj hfront)
      rfl
  rw [hsingle]
  rcases hget : m.get headerByte with _ | r
  · exact framed_refuse _
  · exact h _ (FastByteMap.mem_of_get hget)

theorem allFramed_jsNumberCodec (rt : JavaRuntime) :
    AllFramed (JsNumberCodec.unpackFuncMap rt) := by
  have hbits : ∀ {γ : Type} (headerByte : UInt8) (k : Nat) (f : List UInt8 → γ),
      AllFramed [(headerByte, f <$> readFully k)] := by
    intro γ headerByte k f thing hthing
    rw [List.mem_singleton.mp hthing]
    exact framedAfter_of_framed ((framed_readFully k).map f) _
  rw [JsNumberCodec.unpackFuncMap]
  apply AllFramed.append
  · apply AllFramed.append
    · exact allFramed_longCodec.mapValues fun _ _ h => h.map _
    · exact (hbits _ _ _).mapValues fun _ _ h => h.bind_after fun _ _ _ => framed_bigDecimal _
  · exact (hbits _ _ _).mapValues fun _ _ h => h.bind_after fun _ _ _ => framed_bigDecimal _

section Values

variable [ScanOrder Str]

theorem allFramed_jsValue (rt : JavaRuntime) {codec : Unpacker Json}
    (h : Framed CutShort codec) : AllFramed (jsValueFuncMap rt codec) := by
  have hstring := allFramed_stringCodec rt
  have hnull : AllFramed [(MP_NULL, (pure .null : Unpacker Json))] := by
    apply allFramed_of_framed
    rw [List.forall_mem_singleton]
    exact framed_pure _
  refine (((((hnull.append ?_).append ?_).append (allFramed_jsNumberCodec rt)).append ?_).append ?_)
  · exact allFramed_booleanCodec.mapValues fun _ _ hr => hr.map _
  · exact hstring.mapValues fun _ _ hr => hr.map _
  · exact (allFramed_sized (framed_unpackMap (framed_codec hstring) h) _ _ _).mapValues
      fun _ _ hr => hr.map _
  · exact (allFramed_sized (framed_unpackSeq h) _ _ _).mapValues fun _ _ hr => hr.map _

theorem framed_unpackJson (rt : JavaRuntime) : ∀ depth, Framed CutShort (unpackJson rt depth)
  | 0 => framed_refuse _
  | depth + 1 => framed_codec (allFramed_jsValue rt (framed_unpackJson rt depth))

end Values

/-! ### The depth is never reached -/

/-- The maps have the same header bytes, with readers that agree. -/
def MapsAgree (n : Nat) {α : Type} : FastByteMap (Unpacker α) → FastByteMap (Unpacker α) → Prop :=
  List.Forall₂ fun thing thing' => thing.1 = thing'.1 ∧ AgreeUpTo n thing.2 thing'.2

theorem mapsAgree_refl (n : Nat) {α : Type} (m : FastByteMap (Unpacker α)) : MapsAgree n m m :=
  List.forall₂_same.mpr fun thing _ => ⟨rfl, agreeUpTo_refl n thing.2⟩

theorem MapsAgree.append {n : Nat} {α : Type} {m₁ m₂ m₁' m₂' : FastByteMap (Unpacker α)}
    (h₁ : MapsAgree n m₁ m₁') (h₂ : MapsAgree n m₂ m₂') :
    MapsAgree n (m₁ ++ m₂) (m₁' ++ m₂') := List.rel_append h₁ h₂

theorem MapsAgree.map {n : Nat} {α γ : Type} {m m' : FastByteMap (Unpacker α)}
    (h : MapsAgree n m m') (hframed : AllFramed m) (g : α → γ) :
    MapsAgree n (m.mapValues fun r => g <$> r) (m'.mapValues fun r => g <$> r) := by
  induction h with
  | nil => exact List.Forall₂.nil
  | cons hthing hrest ih =>
    obtain ⟨hhead, htail⟩ := List.forall_mem_cons.mp hframed
    exact List.Forall₂.cons ⟨hthing.1, hthing.2.map hhead.shrinks g⟩ (ih htail)

theorem mapsAgree_sized {n : Nat} {α : Type} {sized sized' : Int → Unpacker α}
    (h : ∀ size, AgreeUpTo n (sized size) (sized' size)) (fixed wide16 wide32 : UInt8) :
    MapsAgree n (sizedFuncMap fixed wide16 wide32 sized)
      (sizedFuncMap fixed wide16 wide32 sized') := by
  apply MapsAgree.append
  · refine List.Forall₂.cons ⟨rfl, ?_⟩ (List.Forall₂.cons ⟨rfl, ?_⟩ List.Forall₂.nil)
    · exact (agreeUpTo_refl n _).bind (framed_readUnsigned 2).shrinks h
    · exact (agreeUpTo_refl n _).bind (framed_readSigned 4).shrinks h
  · apply List.forall₂_map_left_iff.mpr
    apply List.forall₂_map_right_iff.mpr
    exact List.forall₂_same.mpr fun len _ => ⟨rfl, h _⟩

theorem MapsAgree.get {n : Nat} {α : Type} {m m' : FastByteMap (Unpacker α)}
    (h : MapsAgree n m m') (b : UInt8) {other other' : Unpacker α}
    (hother : AgreeUpTo n other other') :
    AgreeUpTo n ((m.get b).getD other) ((m'.get b).getD other') := by
  induction h generalizing other other' with
  | nil => exact hother
  | @cons thing thing' rest rest' hthing hrest ih =>
    obtain ⟨k, r⟩ := thing
    obtain ⟨k', r'⟩ := thing'
    obtain ⟨rfl, hr⟩ := hthing
    rw [FastByteMap.get, FastByteMap.get, Option.getD_or, Option.getD_or]
    apply ih
    by_cases hk : k = b
    · rw [if_pos hk, if_pos hk]
      exact hr
    · rw [if_neg hk, if_neg hk]
      exact hother

theorem agreeUpTo_unpackSeq {n : Nat} {α : Type} {codec codec' : Unpacker α}
    (h : AgreeUpTo n codec codec') (hshrinks : codec.Shrinks) (size : Int) :
    AgreeUpTo n (unpackSeq codec size) (unpackSeq codec' size) := by
  rw [unpackSeq, unpackSeq]
  split_ifs
  · exact agreeUpTo_refl n _
  · exact h.repeated hshrinks _

theorem agreeUpTo_unpackMap {n : Nat} {κ α : Type} [DecidableEq κ] {keyCodec : Unpacker κ}
    (hkey : Framed CutShort keyCodec) {codec codec' : Unpacker α} (h : AgreeUpTo n codec codec')
    (hcodec : Framed CutShort codec) (size : Int) :
    AgreeUpTo n (unpackMap keyCodec codec size) (unpackMap keyCodec codec' size) := by
  have hentry : AgreeUpTo n (unpackEntry keyCodec codec) (unpackEntry keyCodec codec') :=
    (agreeUpTo_refl n keyCodec).bind hkey.shrinks fun _ =>
      h.bind hcodec.shrinks fun _ => agreeUpTo_refl n _
  have hframed := framed_unpackEntry hkey hcodec
  rw [unpackMap, unpackMap]
  split_ifs
  · exact agreeUpTo_refl n _
  · exact (hentry.repeated hframed.shrinks _).map
      (hframed.repeated cutShort_endsOnly _).shrinks ScanMap.ofEntries

section Depth

variable [ScanOrder Str]

theorem mapsAgree_jsValue (rt : JavaRuntime) {n : Nat} {codec codec' : Unpacker Json}
    (h : AgreeUpTo n codec codec') (hcodec : Framed CutShort codec) :
    MapsAgree n (jsValueFuncMap rt codec) (jsValueFuncMap rt codec') := by
  have hkey := framed_codec (allFramed_stringCodec rt)
  apply MapsAgree.append
  · apply (mapsAgree_refl n _).append
    exact (mapsAgree_sized (agreeUpTo_unpackMap hkey h hcodec) _ _ _).map
      (allFramed_sized (framed_unpackMap hkey hcodec) _ _ _) _
  · exact (mapsAgree_sized (agreeUpTo_unpackSeq h hcodec.shrinks) _ _ _).map
      (allFramed_sized (framed_unpackSeq hcodec) _ _ _) _

/-- By induction on the length: the header byte is taken before the values inside are read. -/
theorem agreeUpTo_unpackJson (rt : JavaRuntime) (n : Nat) : ∀ {depth depth' : Nat}, n < depth →
    n < depth' → AgreeUpTo n (unpackJson rt depth) (unpackJson rt depth') := by
  induction n with
  | zero =>
    rintro (_ | depth) (_ | depth') hdepth hdepth' input hinput
    · rfl
    · exact absurd hdepth (lt_irrefl 0)
    · exact absurd hdepth' (lt_irrefl 0)
    · rw [List.eq_nil_of_length_eq_zero (Nat.le_zero.mp hinput), unpackJson, unpackJson,
        codec_unpack_nil, codec_unpack_nil]
  | succ n ih =>
    rintro (_ | depth) (_ | depth') hdepth hdepth' input hinput
    · rfl
    · exact absurd hdepth (Nat.not_lt_zero _)
    · exact absurd hdepth' (Nat.not_lt_zero _)
    · have hinner := ih (Nat.lt_of_succ_lt_succ hdepth) (Nat.lt_of_succ_lt_succ hdepth')
      rw [unpackJson, unpackJson]
      rcases input with _ | ⟨b, rest⟩
      · rw [codec_unpack_nil, codec_unpack_nil]
      · rw [codec_unpack_cons, codec_unpack_cons]
        exact (mapsAgree_jsValue rt hinner (framed_unpackJson rt depth)).get b
          (agreeUpTo_refl n _) rest (Nat.le_of_succ_le_succ hinput)

theorem unpack_eq {rt : JavaRuntime} {data : List UInt8} {depth : Nat} (h : data.length < depth) :
    unpack rt data = (unpackJson rt depth data).map Prod.fst := by
  rw [unpack, agreeUpTo_unpackJson rt data.length (Nat.lt_succ_self _) h data le_rfl]

/-! ### Frames -/

/-- **Where a value ends.**  An accepted frame starts with a value: the same value is read from its
bytes whatever follows them, and from no part of them. -/
theorem unpack_frames {rt : JavaRuntime} {data : List UInt8} {json : Json}
    (h : unpack rt data = .ok json) :
    ∃ value, value <+: data ∧ (∀ other, unpack rt (value ++ other) = .ok json) ∧
      ∀ initial, initial <+: value → initial ≠ value →
        ∃ e, unpack rt initial = .error e ∧ CutShort initial e := by
  rw [unpack] at h
  rcases hrun : unpackJson rt (data.length + 1) data with e | ⟨json', rest⟩
  · rw [hrun] at h
    simp only [Except.map, reduceCtorEq] at h
  · rw [hrun] at h
    obtain rfl : json' = json := Except.ok.inj h
    have hframed := framed_unpackJson rt (data.length + 1)
    obtain ⟨value, hdata, hvalue⟩ := hframed.takes hrun
    have hlength : value.length ≤ data.length := by
      rw [hdata, List.length_append]
      exact Nat.le_add_right _ _
    have halone := hvalue []
    rw [List.append_nil] at halone
    refine ⟨value, ⟨rest, hdata.symm⟩, fun other => ?_, fun initial hinitial hne => ?_⟩
    · -- at the depth of the longer frame, the value alone is read as before
      have hdeep : unpackJson rt ((value ++ other).length + 1) value = .ok (json', []) := by
        rw [agreeUpTo_unpackJson rt value.length _ (Nat.lt_succ_of_le hlength) value le_rfl, halone]
        rw [List.length_append]
        omega
      obtain ⟨taken, htaken, hother⟩ := (framed_unpackJson rt _).takes hdeep
      rw [List.append_nil] at htaken
      subst htaken
      rw [unpack, hother]
      rfl
    · obtain ⟨e, herror, hcut⟩ := hframed.refuses halone hinitial hne
      refine ⟨e, ?_, hcut⟩
      rw [unpack_eq (Nat.lt_succ_of_le (hinitial.length_le.trans hlength)), herror]
      rfl

end Depth

/-- Java's numbers, for a half and a tenth. -/
def fewNumbers : JavaRuntime where
  malformed _ := [0xFFFD]
  exactFloat q := if q = 1 / 2 then some 0x3F000000 else none
  doubleValue _ := 0x3FB999999999999A
  ofFloat bits := if bits = 0x3F000000 then some (1 / 2) else none
  ofDouble bits := if bits = 0x3FB999999999999A then some (1 / 10) else none

/-- `[1, "a"]`, and a byte that is left unread. -/
def pairFrame : List UInt8 := [0x92, 0x01, 0xA1, 0x61, 0xFF]

set_option maxRecDepth 20000 in
theorem unpack_frames_pair :
    ∃ value, value <+: pairFrame ∧
      (∀ other, unpack fewNumbers (value ++ other) = .ok (.array [.number 1, .string [97]])) ∧
      ∀ initial, initial <+: value → initial ≠ value →
        ∃ e, unpack fewNumbers initial = .error e ∧ CutShort initial e :=
  @unpack_frames _ fewNumbers pairFrame _ rfl

end DsaBroker
