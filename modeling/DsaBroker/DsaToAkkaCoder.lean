import DsaBroker.LinkRouting
import Mathlib.Tactic.IntervalCases

/-!
# From DSA paths to actor paths

`DsaToAkkaCoder`: a path is split at slashes and each part is URL-encoded.  `URLEncoder`
leaves letters, digits and `.`, `-`, `*`, `_` alone, makes a plus of a space and writes
every other character as the bytes of its UTF-8 form; a surrogate without its partner is
written as a question mark.
-/

namespace DsaBroker

/-! ### `URLEncoder.encode` -/

/-- The characters that are not encoded; a space, which is replaced, is not among them. -/
def isUnreserved (c : UInt16) : Bool :=
  48 ≤ c && c ≤ 57 || 65 ≤ c && c ≤ 90 || 97 ≤ c && c ≤ 122 || c = 45 || c = 46 || c = 42 || c = 95

def isHighSurrogate (c : UInt16) : Bool := 0xD800 ≤ c && c ≤ 0xDBFF

def isLowSurrogate (c : UInt16) : Bool := 0xDC00 ≤ c && c ≤ 0xDFFF

/-- The code point of a surrogate pair. -/
def codePoint (high low : UInt16) : Nat :=
  0x10000 + (high.toNat - 0xD800) * 0x400 + (low.toNat - 0xDC00)

def utf8Bytes (point : Nat) : List Nat :=
  if point < 0x80 then [point]
  else if point < 0x800 then [0xC0 + point / 64, 0x80 + point % 64]
  else if point < 0x10000 then [0xE0 + point / 4096, 0x80 + point / 64 % 64, 0x80 + point % 64]
  else [0xF0 + point / 262144, 0x80 + point / 4096 % 64, 0x80 + point / 64 % 64,
    0x80 + point % 64]

def hexDigit (n : Nat) : UInt16 := if n < 10 then (48 + n).toUInt16 else (55 + n).toUInt16

def percent : UInt16 := 37

def percentByte (byte : Nat) : Str := [percent, hexDigit (byte / 16), hexDigit (byte % 16)]

def percentEncode (point : Nat) : Str := (utf8Bytes point).flatMap percentByte

def questionMark : UInt16 := 63

/-- `URLEncoder.encode(_, "UTF-8")`. -/
def urlEncode : Str → Str
  | [] => []
  | c :: rest =>
      if isUnreserved c then c :: urlEncode rest
      else if c = 32 then 43 :: urlEncode rest
      else if isHighSurrogate c then
        match rest with
        | [] => percentEncode questionMark.toNat
        | d :: more =>
            if isLowSurrogate d then percentEncode (codePoint c d) ++ urlEncode more
            else percentEncode questionMark.toNat ++ urlEncode (d :: more)
      else if isLowSurrogate c then percentEncode questionMark.toNat ++ urlEncode rest
      else percentEncode c.toNat ++ urlEncode rest

/-! ### What the encoder writes -/

def isHexDigit (c : UInt16) : Bool := 48 ≤ c && c ≤ 57 || 65 ≤ c && c ≤ 70

theorem hexDigit_isHexDigit {n : Nat} (h : n < 16) : isHexDigit (hexDigit n) = true := by
  interval_cases n <;> decide

theorem utf8Bytes_lt {point byte : Nat} (hpoint : point < 0x110000)
    (h : byte ∈ utf8Bytes point) : byte < 256 := by
  simp only [utf8Bytes] at h
  split_ifs at h <;> simp only [List.mem_cons, List.not_mem_nil, or_false] at h <;> omega

theorem mem_percentEncode {point : Nat} (hpoint : point < 0x110000) {c : UInt16}
    (h : c ∈ percentEncode point) : c = percent ∨ isHexDigit c = true := by
  obtain ⟨byte, hbyte, hc⟩ := List.mem_flatMap.mp h
  have hlt := utf8Bytes_lt hpoint hbyte
  simp only [percentByte, List.mem_cons, List.not_mem_nil, or_false] at hc
  rcases hc with rfl | rfl | rfl
  · left
    rfl
  · right
    exact hexDigit_isHexDigit (by omega)
  · right
    exact hexDigit_isHexDigit (by omega)

theorem percentEncode_eq_cons (point : Nat) :
    ∃ rest, percentEncode point = percent :: rest ∧ 2 ≤ rest.length := by
  rw [percentEncode, utf8Bytes]
  split_ifs <;> simp [percentByte]

theorem toNat_of_isHighSurrogate {c : UInt16} (h : isHighSurrogate c = true) :
    c.toNat ≤ 0xDBFF := by
  simp only [isHighSurrogate, Bool.and_eq_true, decide_eq_true_eq, UInt16.le_iff_toNat_le] at h
  exact h.2

theorem toNat_of_isLowSurrogate {c : UInt16} (h : isLowSurrogate c = true) :
    c.toNat ≤ 0xDFFF := by
  simp only [isLowSurrogate, Bool.and_eq_true, decide_eq_true_eq, UInt16.le_iff_toNat_le] at h
  exact h.2

theorem codePoint_lt {c d : UInt16} (hc : isHighSurrogate c = true)
    (hd : isLowSurrogate d = true) : codePoint c d < 0x110000 := by
  have hhigh := toNat_of_isHighSurrogate hc
  have hlow := toNat_of_isLowSurrogate hd
  unfold codePoint
  omega

/-- A character that is written is a plus, a percent sign or a digit, or one that was read. -/
theorem mem_urlEncode {s : Str} {x : UInt16} (h : x ∈ urlEncode s) :
    x = 43 ∨ x = percent ∨ isHexDigit x = true ∨ x ∈ s ∧ isUnreserved x = true := by
  have hcode : ∀ {t : Str} {point : Nat}, point < 0x110000 → x ∈ percentEncode point →
      x = 43 ∨ x = percent ∨ isHexDigit x = true ∨ x ∈ t ∧ isUnreserved x = true := by
    intro t point hpoint hx
    rcases mem_percentEncode hpoint hx with h | h
    · exact Or.inr (Or.inl h)
    · exact Or.inr (Or.inr (Or.inl h))
  have hmore : ∀ {t more : Str}, (∀ y ∈ more, y ∈ t) →
      (x = 43 ∨ x = percent ∨ isHexDigit x = true ∨ x ∈ more ∧ isUnreserved x = true) →
      x = 43 ∨ x = percent ∨ isHexDigit x = true ∨ x ∈ t ∧ isUnreserved x = true := by
    intro t more hsub hx
    exact hx.imp_right (Or.imp_right (Or.imp_right (And.imp_left (hsub x))))
  have hpair : ∀ {c d : UInt16} {more : Str}, ∀ y ∈ more, y ∈ c :: d :: more := by
    intro c d more y hy
    exact List.mem_cons_of_mem _ (List.mem_cons_of_mem _ hy)
  fun_induction urlEncode s with
  | case1 => exact absurd h List.not_mem_nil
  | case2 c rest hc ih =>
    rcases List.mem_cons.mp h with rfl | hrest
    · exact Or.inr (Or.inr (Or.inr ⟨List.mem_cons_self, hc⟩))
    · exact hmore (fun y hy => List.mem_cons_of_mem _ hy) (ih hrest)
  | case3 rest hc ih =>
    rcases List.mem_cons.mp h with rfl | hrest
    · exact Or.inl rfl
    · exact hmore (fun y hy => List.mem_cons_of_mem _ hy) (ih hrest)
  | case4 c hc hspace hhigh => exact hcode (by decide) h
  | case5 c hc hspace hhigh d more hlow ih =>
    rcases List.mem_append.mp h with hx | hx
    · exact hcode (codePoint_lt hhigh hlow) hx
    · exact hmore hpair (ih hx)
  | case6 c hc hspace hhigh d more hlow ih =>
    rcases List.mem_append.mp h with hx | hx
    · exact hcode (by decide) hx
    · exact hmore (fun y hy => List.mem_cons_of_mem _ hy) (ih hx)
  | case7 c rest hc hspace hhigh hlow ih =>
    rcases List.mem_append.mp h with hx | hx
    · exact hcode (by decide) hx
    · exact hmore (fun y hy => List.mem_cons_of_mem _ hy) (ih hx)
  | case8 c rest hc hspace hhigh hlow ih =>
    rcases List.mem_append.mp h with hx | hx
    · have hlt : c.toNat < 65536 := c.toNat_lt
      exact hcode (by omega) hx
    · exact hmore (fun y hy => List.mem_cons_of_mem _ hy) (ih hx)

/-- What is written for a character that is not left alone: a plus for a space, else a percent
sign and at least two more characters, for that character and its partner. -/
theorem urlEncode_cons_reserved {c : UInt16} (h : isUnreserved c = false) (rest : Str) :
    ∃ x code front more, rest = front ++ more ∧ front.length ≤ 1 ∧
      (x = 43 ∧ c = 32 ∧ front = [] ∨ x = percent ∧ 2 ≤ code.length) ∧
      urlEncode (c :: rest) = x :: (code ++ urlEncode more) := by
  have hone : ∀ point, ∃ code, 2 ≤ code.length ∧
      percentEncode point ++ urlEncode rest = percent :: (code ++ urlEncode rest) := by
    intro point
    obtain ⟨code, hcode, hlength⟩ := percentEncode_eq_cons point
    exact ⟨code, hlength, by rw [hcode, List.cons_append]⟩
  rw [urlEncode.eq_def]
  simp only [h, Bool.false_eq_true, if_false]
  split_ifs with hspace hhigh hlow
  · exact ⟨43, [], [], rest, rfl, Nat.zero_le _, Or.inl ⟨rfl, hspace, rfl⟩, rfl⟩
  · cases rest with
    | nil =>
      obtain ⟨code, hcode, hlength⟩ := percentEncode_eq_cons questionMark.toNat
      exact ⟨percent, code, [], [], rfl, Nat.zero_le _, Or.inr ⟨rfl, hlength⟩,
        by rw [urlEncode, List.append_nil, hcode]⟩
    | cons d more =>
      by_cases hpair : isLowSurrogate d = true
      · obtain ⟨code, hcode, hlength⟩ := percentEncode_eq_cons (codePoint c d)
        exact ⟨percent, code, [d], more, rfl, Nat.le_refl _, Or.inr ⟨rfl, hlength⟩,
          by simp only [hpair, if_true, hcode, List.cons_append]⟩
      · obtain ⟨code, hlength, hcode⟩ := hone questionMark.toNat
        exact ⟨percent, code, [], d :: more, rfl, Nat.zero_le _, Or.inr ⟨rfl, hlength⟩,
          by simp only [hpair, if_false, hcode, Bool.false_eq_true]⟩
  · obtain ⟨code, hlength, hcode⟩ := hone questionMark.toNat
    exact ⟨percent, code, [], rest, rfl, Nat.zero_le _, Or.inr ⟨rfl, hlength⟩, hcode⟩
  · obtain ⟨code, hlength, hcode⟩ := hone c.toNat
    exact ⟨percent, code, [], rest, rfl, Nat.zero_le _, Or.inr ⟨rfl, hlength⟩, hcode⟩

theorem urlEncode_cons_unreserved {c : UInt16} (h : isUnreserved c = true) (rest : Str) :
    urlEncode (c :: rest) = c :: urlEncode rest := by
  rw [urlEncode.eq_def]
  exact if_pos h

theorem length_le_urlEncode (s : Str) : s.length ≤ (urlEncode s).length := by
  induction hn : s.length using Nat.strong_induction_on generalizing s with
  | _ n ih =>
    cases s with
    | nil =>
      rw [← hn]
      exact Nat.zero_le _
    | cons c rest =>
      rw [List.length_cons] at hn
      by_cases hc : isUnreserved c = true
      · have hrest := ih rest.length (by omega) rest rfl
        rw [urlEncode_cons_unreserved hc, List.length_cons]
        omega
      · rw [Bool.not_eq_true] at hc
        obtain ⟨x, code, front, more, hsplit, hfront, hcase, hencode⟩ :=
          urlEncode_cons_reserved hc rest
        have hlength : rest.length = front.length + more.length := by
          rw [hsplit, List.length_append]
        have hmore := ih more.length (by omega) more rfl
        rw [hencode, List.length_cons, List.length_append]
        rcases hcase with ⟨-, -, hnil⟩ | ⟨-, hcode⟩
        · rw [hnil, List.length_nil] at hlength
          omega
        · omega

/-- The encoder leaves a text alone just if it consists of unreserved characters. -/
theorem urlEncode_eq_self {s : Str} : urlEncode s = s ↔ s.all isUnreserved = true := by
  induction s with
  | nil => simp [urlEncode]
  | cons c rest ih =>
    rw [List.all_cons, Bool.and_eq_true, ← ih]
    by_cases hc : isUnreserved c = true
    · simp [urlEncode_cons_unreserved hc, hc]
    · rw [Bool.not_eq_true] at hc
      refine iff_of_false ?_ (by simp [hc])
      obtain ⟨x, code, front, more, hsplit, hfront, hcase, hencode⟩ :=
        urlEncode_cons_reserved hc rest
      intro heq
      rw [hencode, List.cons.injEq] at heq
      rcases hcase with ⟨rfl, rfl, -⟩ | ⟨-, hcode⟩
      · exact absurd heq.1 (by decide)
      · -- at least two characters are written for at most one
        have hlength := congrArg List.length (heq.2.trans hsplit)
        have hmore := length_le_urlEncode more
        rw [List.length_append, List.length_append] at hlength
        omega

/-- Only a text of unreserved characters is encoded as one. -/
theorem all_unreserved_of_urlEncode {s : Str} (h : (urlEncode s).all isUnreserved = true) :
    s.all isUnreserved = true := by
  induction s with
  | nil => rfl
  | cons c rest ih =>
    by_cases hc : isUnreserved c = true
    · rw [urlEncode_cons_unreserved hc, List.all_cons, Bool.and_eq_true] at h
      rw [List.all_cons, Bool.and_eq_true]
      exact ⟨hc, ih h.2⟩
    · rw [Bool.not_eq_true] at hc
      obtain ⟨x, code, front, more, -, -, hcase, hencode⟩ := urlEncode_cons_reserved hc rest
      rw [hencode, List.all_cons, Bool.and_eq_true] at h
      rcases hcase with ⟨rfl, -⟩ | ⟨rfl, -⟩
      · exact absurd h.1 (by decide)
      · exact absurd h.1 (by decide)

/-- Encoding twice is encoding once just for a text that is not changed at all. -/
theorem urlEncode_urlEncode {s : Str} :
    urlEncode (urlEncode s) = urlEncode s ↔ s.all isUnreserved = true := by
  rw [urlEncode_eq_self]
  constructor
  · exact all_unreserved_of_urlEncode
  · intro h
    rwa [urlEncode_eq_self.mpr h]

theorem urlEncode_eq_nil {s : Str} : urlEncode s = [] ↔ s = [] := by
  constructor
  · intro h
    have hlength := length_le_urlEncode s
    rw [h, List.length_nil] at hlength
    exact List.eq_nil_of_length_eq_zero (Nat.le_zero.mp hlength)
  · rintro rfl
    rfl

theorem slash_notMem_urlEncode {s : Str} (h : slash ∉ s) : slash ∉ urlEncode s := by
  intro hmem
  rcases mem_urlEncode hmem with hx | hx | hx | hx
  · exact absurd hx (by decide)
  · exact absurd hx (by decide)
  · exact absurd hx (by decide)
  · exact h hx.1

/-! ### `dsaToAkkaPath` -/

/-- `parts.mkString("/")`. -/
def joinSlash : List Str → Str
  | [] => []
  | [part] => part
  | part :: more => part ++ slash :: joinSlash more

def processParts (path : Str) (proc : Str → Str) : Str := joinSlash ((split path).map proc)

/-- `forAkka`. -/
def dsaToAkkaPath (path : Str) : Str := processParts path urlEncode

/-! ### The segments of a path -/

/-- What stands between the slashes of a path, as far as anything does. -/
def segments (path : Str) : List Str := (fields path).filter fun field => !field.isEmpty

theorem slash_notMem_field {path field : Str} (h : field ∈ fields path) : slash ∉ field := by
  induction path generalizing field with
  | nil =>
    rw [List.mem_singleton.mp h]
    exact List.not_mem_nil
  | cons c rest ih =>
    rw [fields] at h
    split at h
    · rcases List.mem_cons.mp h with rfl | hrest
      · exact List.not_mem_nil
      · exact ih hrest
    case isFalse hc =>
      obtain ⟨first, more, hfields⟩ := List.exists_cons_of_ne_nil (fields_ne_nil rest)
      rw [hfields] at h ih
      rcases List.mem_cons.mp h with rfl | hmore
      · exact List.not_mem_cons_of_ne_of_not_mem (Ne.symm hc) (ih List.mem_cons_self)
      · exact ih (List.mem_cons_of_mem _ hmore)

theorem fields_joinSlash {parts : List Str} (hne : parts ≠ [])
    (h : ∀ part ∈ parts, slash ∉ part) : fields (joinSlash parts) = parts := by
  induction parts with
  | nil => exact absurd rfl hne
  | cons part more ih =>
    have hpart := h part List.mem_cons_self
    cases more with
    | nil => exact fields_of_no_slash hpart
    | cons next more =>
      rw [joinSlash, fields_append, fields_of_no_slash hpart,
        ih (List.cons_ne_nil _ _) fun field hfield => h field (List.mem_cons_of_mem _ hfield)]
      · rfl
      · exact List.cons_ne_nil _ _

theorem segments_joinSlash {parts : List Str} (h : ∀ part ∈ parts, slash ∉ part) :
    segments (joinSlash parts) = parts.filter fun part => !part.isEmpty := by
  cases parts with
  | nil => rfl
  | cons part more => rw [segments, fields_joinSlash (List.cons_ne_nil _ _) h]

theorem segments_of_no_slash {field : Str} (h : slash ∉ field) (hne : field ≠ []) :
    segments field = [field] := by
  rw [segments, fields_of_no_slash h, List.filter_cons_of_pos (by simpa using hne),
    List.filter_nil]

theorem segments_append (front rest : Str) :
    segments (front ++ slash :: rest) = segments front ++ segments rest := by
  rw [segments, fields_append, List.filter_append]
  rfl

theorem segments_slash (rest : Str) : segments (slash :: rest) = segments rest :=
  segments_append [] rest

theorem mem_split {path field : Str} (h : field ∈ split path) : field ∈ fields path := by
  rw [split] at h
  split at h
  · rw [List.mem_reverse] at h
    exact List.mem_reverse.mp ((List.dropWhile_suffix _).subset h)
  case isFalse hno =>
    rwa [fields_of_no_slash hno]

/-- The fields that `split` drops are empty. -/
theorem filter_split (path : Str) :
    (split path).filter (fun field => !field.isEmpty) = segments path := by
  rw [split]
  split_ifs with hslash
  · have hdropped : ((fields path).reverse.takeWhile List.isEmpty).filter
        (fun field => !field.isEmpty) = [] := by
      rw [List.filter_eq_nil_iff]
      intro field hfield
      simpa using List.mem_takeWhile_imp hfield
    have hwhole := congrArg (List.filter fun field => !field.isEmpty)
      (List.takeWhile_append_dropWhile (p := List.isEmpty) (l := (fields path).reverse))
    rw [List.filter_append, hdropped, List.nil_append, List.filter_reverse] at hwhole
    rw [List.filter_reverse, hwhole, List.reverse_reverse, segments]
  · rw [segments, fields_of_no_slash hslash]

/-- The segments of an actor path are those of the DSA path, encoded. -/
theorem segments_dsaToAkkaPath (path : Str) :
    segments (dsaToAkkaPath path) = (segments path).map urlEncode := by
  rw [dsaToAkkaPath, processParts, segments_joinSlash, ← filter_split, List.filter_map]
  · congr 1
    apply List.filter_congr
    intro field _
    rw [Function.comp_apply, Bool.eq_iff_iff]
    simp [urlEncode_eq_nil]
  · intro part hpart
    obtain ⟨field, hfield, rfl⟩ := List.mem_map.mp hpart
    exact slash_notMem_urlEncode (slash_notMem_field (mem_split hfield))

theorem fields_append_of_no_slash {front : Str} (h : slash ∉ front) (rest : Str) :
    ∃ first more, fields rest = first :: more ∧
      fields (front ++ rest) = (front ++ first) :: more := by
  obtain ⟨first, more, hrest⟩ := List.exists_cons_of_ne_nil (fields_ne_nil rest)
  refine ⟨first, more, hrest, ?_⟩
  induction front with
  | nil => exact hrest
  | cons c front ih =>
    rw [List.mem_cons, not_or] at h
    rw [List.cons_append, fields, if_neg (Ne.symm h.1), ih h.2]
    rfl

/-- An absolute path stays absolute, or nothing is left of it. -/
theorem dsaToAkkaPath_absolute (rest : Str) :
    dsaToAkkaPath (slash :: rest) = [] ∨
      ∃ tail, dsaToAkkaPath (slash :: rest) = slash :: tail := by
  rw [dsaToAkkaPath, processParts, split, if_pos List.mem_cons_self, fields, if_pos rfl,
    List.reverse_cons, List.dropWhile_append]
  split_ifs with hempty
  · left
    rfl
  · right
    rw [List.reverse_append, List.reverse_singleton, List.singleton_append, List.map_cons]
    have hne : ((fields rest).reverse.dropWhile List.isEmpty).reverse ≠ [] := by
      simpa using hempty
    obtain ⟨field, more, hmore⟩ := List.exists_cons_of_ne_nil hne
    refine ⟨joinSlash ((field :: more).map urlEncode), ?_⟩
    rw [hmore, List.map_cons, joinSlash]
    · rfl
    · exact List.cons_ne_nil _ _

/-- The first field of a path that is not absolute is encoded as the first field. -/
theorem fields_dsaToAkkaPath_relative {path : Str} (hne : path ≠ [])
    (h : startsWith path [slash] = false) :
    ∃ first more, first ≠ [] ∧ fields (dsaToAkkaPath path) = first :: more := by
  obtain ⟨c, rest, rfl⟩ := List.exists_cons_of_ne_nil hne
  have hc : c ≠ slash := by
    rintro rfl
    simp [startsWith] at h
  obtain ⟨first, more, hfirst⟩ : ∃ first more, fields (c :: rest) = (c :: first) :: more := by
    obtain ⟨first, more, -, hfields⟩ := fields_append_of_no_slash
      (by simpa using Ne.symm hc : slash ∉ [c]) rest
    exact ⟨first, more, hfields⟩
  obtain ⟨tail, htail⟩ : ∃ tail, split (c :: rest) = (c :: first) :: tail := by
    rw [split]
    split_ifs with hslash
    · rw [hfirst, List.reverse_cons, List.dropWhile_append]
      split_ifs
      · exact ⟨[], rfl⟩
      · exact ⟨_, by rw [List.reverse_append]; rfl⟩
    · rw [fields_of_no_slash hslash, List.cons.injEq] at hfirst
      exact ⟨[], by rw [hfirst.1]⟩
  refine ⟨urlEncode (c :: first), tail.map urlEncode, by simp [urlEncode_eq_nil], ?_⟩
  rw [dsaToAkkaPath, processParts, fields_joinSlash, htail, List.map_cons]
  · rw [htail]
    exact List.cons_ne_nil _ _
  · intro part hpart
    obtain ⟨field, hfield, rfl⟩ := List.mem_map.mp hpart
    exact slash_notMem_urlEncode (slash_notMem_field (mem_split hfield))

theorem dsaToAkkaPath_of_no_slash {name : Str} (h : slash ∉ name) :
    dsaToAkkaPath name = urlEncode name := by
  rw [dsaToAkkaPath, processParts, split, if_neg h]
  rfl

end DsaBroker
