import DsaBroker.Handshake
import DsaBroker.SharedSecrets

/-!
# Keys as text

`LocalKeys.serialize` writes the private number and the public point as base64 with a space between
them, and `deserialize` reads them back.  The base64 of `UrlBase64` has its padding stripped, which
the decoder finds out again from the length; and since it writes neither dots nor spaces, the space
in the middle is the only one (`keys_survive_text`).
-/

namespace DsaBroker

def space : UInt16 := 32

/-! ### Java's `split` at spaces -/

/-- What stands between the separators, empty parts included. -/
def partsBetween (separator : UInt16) : Str → List Str
  | [] => [[]]
  | c :: rest =>
      if c = separator then [] :: partsBetween separator rest
      else (partsBetween separator rest).modifyHead (List.cons c)

/-- `text.split(" ")`: trailing empty parts are removed, and a text without any space is its own
only part. -/
def splitAtSpaces (text : Str) : List Str :=
  if space ∈ text then ((partsBetween space text).reverse.dropWhile List.isEmpty).reverse
  else [text]

theorem partsBetween_of_notMem {separator : UInt16} {text : Str} (h : separator ∉ text) :
    partsBetween separator text = [text] := by
  induction text with
  | nil => rfl
  | cons c rest ih =>
    rw [List.mem_cons, not_or] at h
    rw [partsBetween, if_neg (Ne.symm h.1), ih h.2, List.modifyHead_cons]

theorem partsBetween_append {separator : UInt16} {front : Str} (h : separator ∉ front)
    (rest : Str) :
    partsBetween separator (front ++ separator :: rest) = front :: partsBetween separator rest := by
  induction front with
  | nil => rw [List.nil_append, partsBetween, if_pos rfl]
  | cons c front ih =>
    rw [List.mem_cons, not_or] at h
    rw [List.cons_append, partsBetween, if_neg (Ne.symm h.1), ih h.2, List.modifyHead_cons]

/-- Two parts are split again where they were joined. -/
theorem splitAtSpaces_join {first second : Str} (hfirst : space ∉ first) (hsecond : space ∉ second)
    (hne : second ≠ []) : splitAtSpaces (first ++ space :: second) = [first, second] := by
  have hmem : space ∈ first ++ space :: second :=
    List.mem_append_right _ List.mem_cons_self
  have hlast : second.isEmpty = false := by simpa using hne
  rw [splitAtSpaces, if_pos hmem, partsBetween_append hfirst, partsBetween_of_notMem hsecond]
  simp [hlast]

/-! ### What base64 for URLs writes -/

namespace UrlBase64

theorem encodeBytes_eq (data : List UInt8) : encodeBytes data = urlBase64.encodeDigits data :=
  urlBase64.stripPadding_encode data

theorem dot_notMem_encodeBytes (data : List UInt8) : 46 ∉ encodeBytes data := by
  rw [encodeBytes_eq]
  exact urlBase64.pad_not_mem_encodeDigits data

/-- A space is no digit of the alphabet. -/
theorem space_notMem_encodeBytes (data : List UInt8) : space ∉ encodeBytes data := by
  have hspace : urlBase64.value space = none := by decide +kernel
  rw [encodeBytes_eq]
  intro h
  obtain ⟨n, hn, hdigit⟩ := urlBase64.mem_encodeDigits h
  rw [hdigit, urlBase64.value_digit n hn] at hspace
  cases hspace

theorem encodeBytes_ne_nil {data : List UInt8} (h : data ≠ []) : encodeBytes data ≠ [] := by
  have hdata := List.length_pos_of_ne_nil h
  apply List.ne_nil_of_length_pos
  rw [length_encodeBytes]
  omega

end UrlBase64

/-! ### Key files -/

/-- A private number and a public point as they are read from a file.  Nothing checks that they
belong together. -/
structure StoredKeys (Point : Type) where
  d : Int
  q : Point
deriving DecidableEq

variable {Point : Type} {curve : Curve Point}

/-- What a file is to hold of a key pair. -/
def LocalKeys.stored (keys : LocalKeys curve) : StoredKeys Point := ⟨keys.d, keys.q⟩

/-- The format is base64 encoded D and base64 encoded Q separated by a space. -/
def LocalKeys.serialize (keys : LocalKeys curve) : Str :=
  let encodedD := UrlBase64.encodeBytes (toByteArray keys.d)
  let encodedQ := UrlBase64.encodeBytes (curve.encoded keys.q)
  encodedD ++ space :: encodedQ

/-- `new BigInteger(data)`, which throws when there are no bytes. -/
def newBigInteger (data : List UInt8) : Option Int := if data = [] then none else some (signed data)

/-- Deserializes the serialized data into usable keys; `none` when it throws. -/
def deserializeKeys (curve : Curve Point) (serialized : Str) : Option (StoredKeys Point) :=
  match splitAtSpaces serialized with
  | [first, second] => do
      -- Decode Q
      let decodedQ ← UrlBase64.decodeToBytes second
      let point ← curve.decodePoint decodedQ
      -- Decode D
      let d ← newBigInteger (← UrlBase64.decodeToBytes first)
      some ⟨d, point⟩
  | _ => none -- Serialized data is invalid

theorem newBigInteger_toByteArray (n : Nat) : newBigInteger (toByteArray n) = some (n : Int) := by
  rw [newBigInteger, if_neg (toByteArray_isMinimal n).nonempty, signed_toByteArray]

theorem LocalKeys.splitAtSpaces_serialize (keys : LocalKeys curve)
    (hencoded : curve.encoded keys.q ≠ []) :
    splitAtSpaces keys.serialize =
      [UrlBase64.encodeBytes (toByteArray keys.d), UrlBase64.encodeBytes (curve.encoded keys.q)] :=
  splitAtSpaces_join (UrlBase64.space_notMem_encodeBytes _) (UrlBase64.space_notMem_encodeBytes _)
    (UrlBase64.encodeBytes_ne_nil hencoded)

/-- **Key material survives its text form.**  Bytes are decoded from their base64 as they were,
there is neither a dot nor a space in it, and the keys that are read from a serialized pair are the
keys of the pair.  Of the curve it is used that an encoded point, which is never empty, is decoded
again. -/
theorem keys_survive_text (hcurve : curve.Lawful) (hencoded : ∀ q, curve.encoded q ≠ []) :
    (∀ data : List UInt8, UrlBase64.decodeToBytes (UrlBase64.encodeBytes data) = some data ∧
      46 ∉ UrlBase64.encodeBytes data ∧ space ∉ UrlBase64.encodeBytes data) ∧
    ∀ keys : LocalKeys curve, deserializeKeys curve keys.serialize = some keys.stored := by
  constructor
  · intro data
    exact ⟨UrlBase64.decodeToBytes_encodeBytes data, UrlBase64.dot_notMem_encodeBytes data,
      UrlBase64.space_notMem_encodeBytes data⟩
  · intro keys
    simp only [deserializeKeys, keys.splitAtSpaces_serialize (hencoded keys.q),
      UrlBase64.decodeToBytes_encodeBytes, hcurve.decodePoint_encoded, newBigInteger_toByteArray,
      Option.bind_eq_bind, Option.bind_some]
    rfl

/-- The file of the keys with the private number 3. -/
theorem keys_survive_text_meter :
    (meterKeys 3).serialize =
        str "Aw BF7L5NGmMwpEyPfvlR1L8WXmxrch762phftBZhvG5_1s" ++
          str "hzRkDEmY_343SwbOGmSi7NgqsDY4T7g9mnmxJ6J9UDI" ∧
      deserializeKeys multiplesOfBase (meterKeys 3).serialize = some ⟨3, 3⟩ := by
  have hencoded : ∀ q, multiplesOfBase.encoded q ≠ [] := by
    intro q
    simp only [multiplesOfBase, encodedTwo, encodedThree, encodedFive, uncompressed]
    split_ifs <;> exact List.cons_ne_nil _ _
  exact ⟨by decide +kernel, (keys_survive_text multiplesOfBase_lawful hencoded).2 (meterKeys 3)⟩

end DsaBroker
