import DsaBroker.PathSplitting
import DsaBroker.DsaToAkkaCoder

/-!
# From actor paths back to DSA paths

`URLDecoder` reads a plus as a space and a run of `%xy` as the UTF-8 bytes of some characters.  It
gives back what `URLEncoder` was given, but for the surrogates without a partner, which were written
as question marks (`urlDecode_urlEncode`).  As the encoded segments contain no slash and the last of
them is not empty, `akkaToDsaPath` reads the same segments that `dsaToAkkaPath` wrote.
-/

namespace DsaBroker

/-! ### `URLDecoder.decode` -/

/-- The characters of a code point. -/
def utf16 (point : Nat) : Str :=
  if point < 0x10000 then [point.toUInt16]
  else [(0xD800 + (point - 0x10000) / 0x400).toUInt16,
    (0xDC00 + (point - 0x10000) % 0x400).toUInt16]

/-- The code points that have a UTF-8 form: all but the surrogates. -/
def isScalar (point : Nat) : Bool := point < 0xD800 || 0xE000 ≤ point && point < 0x110000

/-- The byte continues a character: `10xxxxxx`. -/
def isContinuation (byte : Nat) : Bool := 0x80 ≤ byte && byte < 0xC0

/-- A code point and what follows it, unless it is no character or has a shorter form. -/
def decodedPoint (least point : Nat) (rest : Option Str) : Option Str :=
  if least ≤ point && isScalar point then rest.map (utf16 point ++ ·) else none

/-- `new String(bytes, "UTF-8")`, which leaves open what it makes of bytes that are not UTF-8. -/
def utf8Decode : List Nat → Option Str
  | [] => some []
  | a :: rest =>
      if a < 0x80 then decodedPoint 0 a (utf8Decode rest)
      else match rest with
        | [] => none
        | b :: rest =>
            if !isContinuation b then none
            else if a < 0xE0 then
              decodedPoint 0x80 ((a - 0xC0) * 64 + (b - 0x80)) (utf8Decode rest)
            else match rest with
              | [] => none
              | c :: rest =>
                  if !isContinuation c then none
                  else if a < 0xF0 then
                    decodedPoint 0x800 ((a - 0xE0) * 4096 + (b - 0x80) * 64 + (c - 0x80))
                      (utf8Decode rest)
                  else match rest with
                    | [] => none
                    | d :: rest =>
                        if !isContinuation d then none
                        else
                          decodedPoint 0x10000 ((a - 0xF0) * 262144 + (b - 0x80) * 4096 +
                            (c - 0x80) * 64 + (d - 0x80)) (utf8Decode rest)

def hexValue (c : UInt16) : Option Nat :=
  if 48 ≤ c && c ≤ 57 then some (c.toNat - 48)
  else if 65 ≤ c && c ≤ 70 then some (c.toNat - 55)
  else if 97 ≤ c && c ≤ 102 then some (c.toNat - 87)
  else none

/-- The loop of `URLDecoder.decode(_, "UTF-8")`, after the bytes of the run of `%xy` that it is in.
What it does with a `%` that is followed by anything else is left to the implementation. -/
def urlDecodeFrom (bytes : List Nat) : Str → Option Str
  | [] => utf8Decode bytes
  | c :: rest =>
      if c = percent then
        match rest with
        | x :: y :: more =>
            match hexValue x, hexValue y with
            | some high, some low => urlDecodeFrom (bytes ++ [high * 16 + low]) more
            | _, _ => none
        | _ => none
      else do
        let front ← utf8Decode bytes
        let back ← urlDecodeFrom [] rest
        some (front ++ (if c = 43 then 32 else c) :: back)

/-- `URLDecoder.decode(_, "UTF-8")`. -/
def urlDecode (s : Str) : Option Str := urlDecodeFrom [] s

/-- `forDsa`: `processParts` with a decoder that may fail. -/
def akkaToDsaPath (path : Str) : Option Str := ((split path).mapM urlDecode).map joinSlash

example : urlDecode (str "With+%27%40%3D%7E%27") = some (str "With '@=~'") ∧
    urlDecode (str "%E2%82%AC%F0%9F%98%80") = some [0x20AC, 0xD83D, 0xDE00] ∧
    urlDecode (str "%C0%AF") = none ∧ urlDecode (str "100%") = none := by decide +kernel

/-! ### Surrogates without a partner -/

def hasUnpairedSurrogate : Str → Bool
  | [] => false
  | c :: rest =>
      if isHighSurrogate c then
        match rest with
        | [] => true
        | d :: more => !isLowSurrogate d || hasUnpairedSurrogate more
      else isLowSurrogate c || hasUnpairedSurrogate rest

/-- What the encoder writes the form of. -/
def replaceUnpaired : Str → Str
  | [] => []
  | c :: rest =>
      if isHighSurrogate c then
        match rest with
        | [] => [questionMark]
        | d :: more =>
            if isLowSurrogate d then c :: d :: replaceUnpaired more
            else questionMark :: replaceUnpaired (d :: more)
      else if isLowSurrogate c then questionMark :: replaceUnpaired rest
      else c :: replaceUnpaired rest

/-! ### One character -/

theorem utf8Decode_utf8Bytes {point : Nat} (h : isScalar point = true) (rest : List Nat) :
    utf8Decode (utf8Bytes point ++ rest) = (utf8Decode rest).map (utf16 point ++ ·) := by
  have hcont : ∀ n, isContinuation (0x80 + n % 64) = true := by
    intro n
    simp only [isContinuation, Bool.and_eq_true, decide_eq_true_eq]
    omega
  have hlt : point < 0x110000 := by
    simp only [isScalar, Bool.or_eq_true, Bool.and_eq_true, decide_eq_true_eq] at h
    omega
  have hpoint : ∀ least n, n = point → least ≤ point →
      decodedPoint least n (utf8Decode rest) = (utf8Decode rest).map (utf16 point ++ ·) := by
    rintro least n rfl hleast
    rw [decodedPoint, if_pos]
    rw [h, Bool.and_true, decide_eq_true_eq]
    exact hleast
  rw [utf8Bytes]
  -- one case for each length of the encoding; the lead byte tells the decoder how many bytes follow
  split_ifs with hone htwo hthree
  · rw [List.singleton_append, utf8Decode.eq_def]
    simp only [if_pos hone]
    exact hpoint 0 point rfl (Nat.zero_le _)
  · rw [List.cons_append, List.singleton_append, utf8Decode.eq_def]
    have hlead : ¬ 0xC0 + point / 64 < 0x80 := by omega
    have hwide : 0xC0 + point / 64 < 0xE0 := by omega
    simp only [if_neg hlead, hcont, Bool.not_true, Bool.false_eq_true, if_false, if_pos hwide]
    exact hpoint 0x80 _ (by omega) (by omega)
  · simp only [List.cons_append, List.nil_append]
    rw [utf8Decode.eq_def]
    have hlead : ¬ 0xE0 + point / 4096 < 0x80 := by omega
    have htwo : ¬ 0xE0 + point / 4096 < 0xE0 := by omega
    have hwide : 0xE0 + point / 4096 < 0xF0 := by omega
    simp only [if_neg hlead, hcont, Bool.not_true, Bool.false_eq_true, if_false, if_neg htwo,
      if_pos hwide]
    exact hpoint 0x800 _ (by omega) (by omega)
  · simp only [List.cons_append, List.nil_append]
    rw [utf8Decode.eq_def]
    have hlead : ¬ 0xF0 + point / 262144 < 0x80 := by omega
    have htwo : ¬ 0xF0 + point / 262144 < 0xE0 := by omega
    have hwide : ¬ 0xF0 + point / 262144 < 0xF0 := by omega
    simp only [if_neg hlead, hcont, Bool.not_true, Bool.false_eq_true, if_false, if_neg htwo,
      if_neg hwide]
    exact hpoint 0x10000 _ (by omega) (by omega)

theorem hexValue_hexDigit {n : Nat} (h : n < 16) : hexValue (hexDigit n) = some n := by
  interval_cases n <;> decide

theorem urlDecodeFrom_percentEncode {point : Nat} (h : point < 0x110000) (bytes : List Nat)
    (rest : Str) : urlDecodeFrom bytes (percentEncode point ++ rest) =
      urlDecodeFrom (bytes ++ utf8Bytes point) rest := by
  have hbytes : ∀ more : List Nat, (∀ byte ∈ more, byte < 256) → ∀ read,
      urlDecodeFrom read (more.flatMap percentByte ++ rest) =
        urlDecodeFrom (read ++ more) rest := by
    intro more hmore
    induction more with
    | nil =>
      intro read
      rw [List.append_nil]
      rfl
    | cons byte more ih =>
      intro read
      have hbyte := hmore byte List.mem_cons_self
      rw [List.flatMap_cons, percentByte, List.append_assoc, List.cons_append, urlDecodeFrom.eq_def]
      simp only [if_true, List.cons_append, List.nil_append,
        hexValue_hexDigit (show byte / 16 < 16 by omega),
        hexValue_hexDigit (show byte % 16 < 16 by omega)]
      rw [Nat.div_add_mod', ih fun byte hb => hmore byte (List.mem_cons_of_mem _ hb),
        List.append_assoc, List.singleton_append]
  exact hbytes _ (fun byte hb => utf8Bytes_lt h hb) bytes

theorem utf16_toNat {c : UInt16} : utf16 c.toNat = [c] := by
  have hlt : c.toNat < 65536 := c.toNat_lt
  rw [utf16, if_pos hlt, Nat.toUInt16_eq, UInt16.ofNat_toNat]

theorem utf16_codePoint {c d : UInt16} (hc : isHighSurrogate c = true)
    (hd : isLowSurrogate d = true) : utf16 (codePoint c d) = [c, d] := by
  simp only [isHighSurrogate, isLowSurrogate, Bool.and_eq_true, decide_eq_true_eq,
    UInt16.le_iff_toNat_le] at hc hd
  have hhigh : 0xD800 ≤ c.toNat ∧ c.toNat ≤ 0xDBFF := hc
  have hlow : 0xDC00 ≤ d.toNat ∧ d.toNat ≤ 0xDFFF := hd
  have hwide : ¬ codePoint c d < 0x10000 := by
    unfold codePoint
    omega
  have hfirst : 0xD800 + (codePoint c d - 0x10000) / 0x400 = c.toNat := by
    unfold codePoint
    omega
  have hsecond : 0xDC00 + (codePoint c d - 0x10000) % 0x400 = d.toNat := by
    unfold codePoint
    omega
  rw [utf16, if_neg hwide, hfirst, hsecond, Nat.toUInt16_eq, UInt16.ofNat_toNat, Nat.toUInt16_eq,
    UInt16.ofNat_toNat]

theorem isScalar_codePoint {c d : UInt16} (hc : isHighSurrogate c = true)
    (hd : isLowSurrogate d = true) : isScalar (codePoint c d) = true := by
  have hlt := codePoint_lt hc hd
  have hle : 0xE000 ≤ codePoint c d := by
    unfold codePoint
    omega
  simp only [isScalar, Bool.or_eq_true, Bool.and_eq_true, decide_eq_true_eq]
  exact Or.inr ⟨hle, hlt⟩

theorem isScalar_toNat {c : UInt16} (hhigh : ¬ isHighSurrogate c = true)
    (hlow : ¬ isLowSurrogate c = true) : isScalar c.toNat = true := by
  simp only [isHighSurrogate, isLowSurrogate, Bool.and_eq_true, decide_eq_true_eq,
    UInt16.le_iff_toNat_le, UInt16.reduceToNat] at hhigh hlow
  simp only [isScalar, Bool.or_eq_true, Bool.and_eq_true, decide_eq_true_eq]
  have hlt : c.toNat < 65536 := c.toNat_lt
  omega

theorem not_surrogate_of_isUnreserved {c : UInt16} (h : isUnreserved c = true ∨ c = 32) :
    ¬ isHighSurrogate c = true ∧ ¬ isLowSurrogate c = true := by
  have hlt : c.toNat < 128 := by
    rcases h with h | rfl
    · simp only [isUnreserved, Bool.or_eq_true, Bool.and_eq_true, decide_eq_true_eq,
        UInt16.le_iff_toNat_le, UInt16.reduceToNat, ← UInt16.toNat_inj] at h
      omega
    · decide
  simp only [isHighSurrogate, isLowSurrogate, Bool.and_eq_true, decide_eq_true_eq,
    UInt16.le_iff_toNat_le, UInt16.reduceToNat]
  omega

/-! ### The whole text -/

theorem replaceUnpaired_cons {c : UInt16} (hhigh : ¬ isHighSurrogate c = true)
    (hlow : ¬ isLowSurrogate c = true) (rest : Str) :
    replaceUnpaired (c :: rest) = c :: replaceUnpaired rest := by
  rw [replaceUnpaired.eq_def]
  simp only [hhigh, hlow, if_false, Bool.false_eq_true]

theorem utf8Decode_flatMap {points : List Nat} (h : ∀ point ∈ points, isScalar point = true) :
    utf8Decode (points.flatMap utf8Bytes) = some (points.flatMap utf16) := by
  induction points with
  | nil => rfl
  | cons point points ih =>
    rw [List.flatMap_cons, utf8Decode_utf8Bytes (h point List.mem_cons_self),
      ih fun other hother => h other (List.mem_cons_of_mem _ hother)]
    rfl

/-- Read after the bytes of some characters, the code gives these characters and then the text. -/
def DecodesTo (code text : Str) : Prop :=
  ∀ points : List Nat, (∀ point ∈ points, isScalar point = true) →
    urlDecodeFrom (points.flatMap utf8Bytes) code = some (points.flatMap utf16 ++ text)

theorem decodesTo_nil : DecodesTo [] [] := by
  intro points hpoints
  rw [urlDecodeFrom, utf8Decode_flatMap hpoints, List.append_nil]

theorem DecodesTo.percentEncode {code text : Str} (h : DecodesTo code text) {point : Nat}
    (hpoint : isScalar point = true) :
    DecodesTo (percentEncode point ++ code) (utf16 point ++ text) := by
  intro points hpoints
  have hlt : point < 0x110000 := by
    simp only [isScalar, Bool.or_eq_true, Bool.and_eq_true, decide_eq_true_eq] at hpoint
    omega
  have hread := h (points ++ [point]) fun other hother =>
    (List.mem_append.mp hother).elim (hpoints other) fun hone =>
      List.mem_singleton.mp hone ▸ hpoint
  rw [List.flatMap_append, List.flatMap_append, List.flatMap_singleton, List.flatMap_singleton,
    List.append_assoc] at hread
  rw [urlDecodeFrom_percentEncode hlt, hread]

theorem DecodesTo.cons {code text : Str} (h : DecodesTo code text) {c : UInt16}
    (hc : c ≠ percent) : DecodesTo (c :: code) ((if c = 43 then 32 else c) :: text) := by
  intro points hpoints
  have hread := h [] fun other hother => absurd hother List.not_mem_nil
  rw [List.flatMap_nil, List.flatMap_nil, List.nil_append] at hread
  rw [urlDecodeFrom.eq_def]
  simp only [if_neg hc, utf8Decode_flatMap hpoints, hread, Option.bind_eq_bind, Option.bind_some]

/-- **The encoder's text.**  By the cases of the encoder: a character that was left alone, a space,
or the bytes of a character, a pair or a question mark. -/
theorem decodesTo_urlEncode (s : Str) : DecodesTo (urlEncode s) (replaceUnpaired s) := by
  have hquestion : isScalar questionMark.toNat = true := by decide
  fun_induction urlEncode s with
  | case1 => exact decodesTo_nil
  | case2 c rest hc ih =>
    obtain ⟨hhigh, hlow⟩ := not_surrogate_of_isUnreserved (Or.inl hc)
    have hpercent : c ≠ percent := by
      rintro rfl
      exact absurd hc (by decide)
    have hplus : c ≠ 43 := by
      rintro rfl
      exact absurd hc (by decide)
    have hread := ih.cons hpercent
    rw [if_neg hplus] at hread
    rw [replaceUnpaired_cons hhigh hlow]
    exact hread
  | case3 rest hc ih =>
    obtain ⟨hhigh, hlow⟩ := not_surrogate_of_isUnreserved (Or.inr rfl)
    rw [replaceUnpaired_cons hhigh hlow]
    exact ih.cons (by decide)
  -- a high surrogate at the end: a question mark is written for it
  | case4 c hc hspace hhigh =>
    have hread := decodesTo_nil.percentEncode hquestion
    rw [List.append_nil] at hread
    rw [replaceUnpaired.eq_def]
    simp only [hhigh, if_true]
    exact hread
  -- a pair: the bytes of its code point
  | case5 c hc hspace hhigh d more hlow ih =>
    have hread := ih.percentEncode (isScalar_codePoint hhigh hlow)
    rw [utf16_codePoint hhigh hlow] at hread
    rw [replaceUnpaired.eq_def]
    simp only [hhigh, hlow, if_true]
    exact hread
  -- a high surrogate without its partner
  | case6 c hc hspace hhigh d more hlow ih =>
    rw [replaceUnpaired.eq_def]
    simp only [hhigh, hlow, if_true, if_false, Bool.false_eq_true]
    exact ih.percentEncode hquestion
  | case7 c rest hc hspace hhigh hlow ih =>
    rw [replaceUnpaired.eq_def]
    simp only [hhigh, hlow, if_true, if_false, Bool.false_eq_true]
    exact ih.percentEncode hquestion
  | case8 c rest hc hspace hhigh hlow ih =>
    have hread := ih.percentEncode (isScalar_toNat hhigh hlow)
    rw [utf16_toNat] at hread
    rw [replaceUnpaired_cons hhigh hlow]
    exact hread

theorem urlDecode_urlEncode (s : Str) : urlDecode (urlEncode s) = some (replaceUnpaired s) := by
  have hread := decodesTo_urlEncode s [] fun point hpoint => absurd hpoint List.not_mem_nil
  rwa [List.flatMap_nil, List.flatMap_nil, List.nil_append] at hread

theorem replaceUnpaired_eq_self {s : Str} :
    replaceUnpaired s = s ↔ hasUnpairedSurrogate s = false := by
  have hquestion : ∀ {c : UInt16} {more rest : Str},
      isHighSurrogate c = true ∨ isLowSurrogate c = true →
        (questionMark :: more = c :: rest ↔ true = false) := by
    intro c more rest hc
    refine iff_of_false ?_ Bool.true_eq_false.mp
    intro heq
    rw [← (List.cons.inj heq).1] at hc
    exact absurd hc (by decide)
  fun_induction replaceUnpaired s with
  | case1 => exact iff_of_true rfl rfl
  | case2 c hhigh =>
    rw [hasUnpairedSurrogate.eq_def]
    simp only [hhigh, if_true]
    exact hquestion (Or.inl hhigh)
  | case3 c hhigh d more hlow ih =>
    rw [hasUnpairedSurrogate.eq_def]
    simp only [hhigh, if_true, hlow, Bool.not_true, Bool.false_or, List.cons.injEq, true_and]
    exact ih
  | case4 c hhigh d more hlow ih =>
    rw [hasUnpairedSurrogate.eq_def]
    simp only [hhigh, if_true, hlow, Bool.not_false, Bool.true_or]
    exact hquestion (Or.inl hhigh)
  | case5 c rest hhigh hlow ih =>
    rw [hasUnpairedSurrogate.eq_def]
    simp only [hhigh, if_false, hlow, Bool.true_or, Bool.false_eq_true]
    exact hquestion (Or.inr hlow)
  | case6 c rest hhigh hlow ih =>
    rw [hasUnpairedSurrogate.eq_def]
    simp only [hhigh, if_false, hlow, Bool.false_or, Bool.false_eq_true, List.cons.injEq, true_and]
    exact ih

/-! ### Segment by segment -/

theorem replaceUnpaired_append_slash (front rest : Str) :
    replaceUnpaired (front ++ slash :: rest) =
      replaceUnpaired front ++ slash :: replaceUnpaired rest := by
  have hslash : replaceUnpaired (slash :: rest) = slash :: replaceUnpaired rest :=
    replaceUnpaired_cons (by decide) (by decide) rest
  fun_induction replaceUnpaired front with
  | case1 => exact hslash
  | case2 c hhigh =>
    rw [List.singleton_append, replaceUnpaired.eq_def]
    simp only [hhigh, if_true, show ¬ isLowSurrogate slash = true by decide, hslash]
    rfl
  | case3 c hhigh d more hlow ih =>
    rw [List.cons_append, List.cons_append, replaceUnpaired.eq_def]
    simp only [hhigh, hlow, if_true, ih, List.cons_append]
  | case4 c hhigh d more hlow ih =>
    rw [List.cons_append, List.cons_append, replaceUnpaired.eq_def]
    simp only [hhigh, hlow, if_true, if_false, Bool.false_eq_true]
    rw [← List.cons_append, ih]
    rfl
  | case5 c more hhigh hlow ih =>
    rw [List.cons_append, replaceUnpaired.eq_def]
    simp only [hhigh, hlow, if_true, if_false, Bool.false_eq_true, ih, List.cons_append]
  | case6 c more hhigh hlow ih =>
    rw [List.cons_append, replaceUnpaired_cons hhigh hlow, ih]
    rfl

theorem joinSlash_map_replaceUnpaired (parts : List Str) :
    joinSlash (parts.map replaceUnpaired) = replaceUnpaired (joinSlash parts) := by
  induction parts with
  | nil => rfl
  | cons part more ih =>
    cases more with
    | nil => rfl
    | cons next more =>
      rw [joinSlash, replaceUnpaired_append_slash, ← ih]
      · rfl
      · exact List.cons_ne_nil _ _

theorem joinSlash_fields (path : Str) : joinSlash (fields path) = path := by
  induction path with
  | nil => rfl
  | cons c rest ih =>
    obtain ⟨first, more, hfields⟩ := List.exists_cons_of_ne_nil (fields_ne_nil rest)
    rw [fields]
    split_ifs with hc
    · rw [joinSlash, ih, hc]
      · rfl
      · exact fields_ne_nil rest
    · rw [hfields] at ih ⊢
      dsimp only
      cases more with
      | nil => exact congrArg (c :: ·) ih
      | cons next more =>
        rw [joinSlash, List.cons_append]
        · exact congrArg (c :: ·) ih
        · exact List.cons_ne_nil _ _

theorem split_eq_fields {path : Str} (h : (fields path).getLast? ≠ some []) :
    split path = fields path := by
  rw [split]
  split_ifs with hslash
  · rw [List.getLast?_eq_head?_reverse] at h
    cases hreverse : (fields path).reverse with
    | nil => exact absurd (List.reverse_eq_nil_iff.mp hreverse) (fields_ne_nil path)
    | cons last more =>
      rw [hreverse, List.head?_cons, Ne, Option.some.injEq] at h
      have hempty : ¬ last.isEmpty = true := by simpa using h
      rw [List.dropWhile_cons_of_neg hempty, ← hreverse, List.reverse_reverse]
  · exact (fields_of_no_slash hslash).symm

/-- A path that ends in no slash is split into its fields, and so is what they are encoded to. -/
theorem split_dsaToAkkaPath {path : Str} (hend : endsWith path [slash] = false) :
    split path = fields path ∧ split (dsaToAkkaPath path) = fields (dsaToAkkaPath path) ∧
      split (dsaToAkkaPath path) = (split path).map urlEncode := by
  by_cases hslash : slash ∈ path
  · obtain ⟨node, last, rfl, hlast, hne⟩ := exists_lastSegment hslash hend
    have hfields : fields (node ++ slash :: last) = fields node ++ [last] := by
      rw [fields_append, fields_of_no_slash hlast]
    have hsplit : split (node ++ slash :: last) = fields (node ++ slash :: last) := by
      apply split_eq_fields
      simpa [hfields] using hne
    have hwritten : fields (dsaToAkkaPath (node ++ slash :: last)) =
        (split (node ++ slash :: last)).map urlEncode := by
      apply fields_joinSlash
      · simp [hsplit, hfields]
      · intro part hpart
        obtain ⟨field, hfield, rfl⟩ := List.mem_map.mp hpart
        exact slash_notMem_urlEncode (slash_notMem_field (mem_split hfield))
    have hencoded : split (dsaToAkkaPath (node ++ slash :: last)) =
        fields (dsaToAkkaPath (node ++ slash :: last)) := by
      apply split_eq_fields
      rw [hwritten, hsplit, hfields]
      simpa [urlEncode_eq_nil] using hne
    exact ⟨hsplit, hencoded, hencoded.trans hwritten⟩
  · have hone : split path = [path] := by rw [split, if_neg hslash]
    have hwritten := slash_notMem_urlEncode hslash
    rw [hone, dsaToAkkaPath_of_no_slash hslash, split, if_neg hwritten, fields_of_no_slash hslash,
      fields_of_no_slash hwritten]
    exact ⟨rfl, rfl, rfl⟩

theorem akkaToDsaPath_dsaToAkkaPath {path : Str} (hend : endsWith path [slash] = false) :
    akkaToDsaPath (dsaToAkkaPath path) = some (replaceUnpaired path) := by
  obtain ⟨hsplit, -, hencoded⟩ := split_dsaToAkkaPath hend
  have hmap : ∀ parts : List Str,
      (parts.map urlEncode).mapM urlDecode = some (parts.map replaceUnpaired) := by
    intro parts
    induction parts with
    | nil => rfl
    | cons part more ih =>
      rw [List.map_cons, List.mapM_cons, urlDecode_urlEncode, ih]
      rfl
  rw [akkaToDsaPath, hencoded, hmap, hsplit, Option.map_some, joinSlash_map_replaceUnpaired,
    joinSlash_fields]

/-- The characters of an encoded segment: letters, digits and `.`, `-`, `*`, `_`, `+`, `%`. -/
def isEncoded (c : UInt16) : Bool := isUnreserved c || c = 43 || c = percent

theorem isEncoded_urlEncode {s : Str} {c : UInt16} (h : c ∈ urlEncode s) : isEncoded c = true := by
  rcases mem_urlEncode h with rfl | rfl | hhex | ⟨-, hc⟩
  · decide
  · decide
  · have hunreserved : isUnreserved c = true := by
      simp only [isHexDigit, isUnreserved, Bool.or_eq_true, Bool.and_eq_true, decide_eq_true_eq,
        UInt16.le_iff_toNat_le, UInt16.reduceToNat] at hhex ⊢
      omega
    rw [isEncoded, hunreserved]
    rfl
  · rw [isEncoded, hc]
    rfl

/-- **Paths are translated back and forth.**  The segments of a path that does not end in a slash
are encoded one by one, as many as there are, without a slash and with letters, digits and
`.-*_+%` only; they are decoded to the path just if it has no surrogate without a partner, and two
such paths are not encoded alike. -/
theorem paths_translate (path : Str) (hend : endsWith path [slash] = false) :
    (akkaToDsaPath (dsaToAkkaPath path) = some path ↔ hasUnpairedSurrogate path = false) ∧
      (fields (dsaToAkkaPath path)).length = (fields path).length ∧
      split (dsaToAkkaPath path) = (split path).map urlEncode ∧
      (∀ part ∈ split (dsaToAkkaPath path), slash ∉ part ∧ ∀ c ∈ part, isEncoded c = true) ∧
      ∀ other : Str, endsWith other [slash] = false → hasUnpairedSurrogate path = false →
        hasUnpairedSurrogate other = false → dsaToAkkaPath path = dsaToAkkaPath other →
          path = other := by
  obtain ⟨hsplit, hfields, hencoded⟩ := split_dsaToAkkaPath hend
  refine ⟨?_, ?_, hencoded, ?_, ?_⟩
  · rw [akkaToDsaPath_dsaToAkkaPath hend, Option.some.injEq, replaceUnpaired_eq_self]
  · rw [← hfields, hencoded, List.length_map, hsplit]
  · intro part hpart
    refine ⟨slash_notMem_field (mem_split hpart), ?_⟩
    intro c hc
    rw [hencoded] at hpart
    obtain ⟨field, -, rfl⟩ := List.mem_map.mp hpart
    exact isEncoded_urlEncode hc
  · intro other hother hpath hpaired heq
    have hread := congrArg akkaToDsaPath heq
    rw [akkaToDsaPath_dsaToAkkaPath hend, akkaToDsaPath_dsaToAkkaPath hother,
      replaceUnpaired_eq_self.mpr hpath, replaceUnpaired_eq_self.mpr hpaired] at hread
    exact Option.some.inj hread

/-- A path with reserved characters and a character outside the basic plane. -/
theorem paths_translate_links :
    endsWith (str "links/and '@=~'" ++ [0xD83D, 0xDE00]) [slash] = false ∧
      akkaToDsaPath (dsaToAkkaPath (str "links/and '@=~'" ++ [0xD83D, 0xDE00])) =
        some (str "links/and '@=~'" ++ [0xD83D, 0xDE00]) :=
  ⟨by decide +kernel, (paths_translate _ (by decide +kernel)).1.mpr (by decide +kernel)⟩

/-- A surrogate without a partner is written as a question mark is, so that the two links cannot be
told apart by the names of their actors. -/
theorem unpaired_surrogate_lost :
    endsWith [0xD800] [slash] = false ∧
      akkaToDsaPath (dsaToAkkaPath [0xD800]) = some (str "?") ∧ str "?" ≠ [0xD800] ∧
      dsaToAkkaPath [0xD800] = dsaToAkkaPath (str "?") := by decide +kernel

end DsaBroker
