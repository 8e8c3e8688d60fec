import DsaBroker.Base64
import DsaBroker.DSAValue
import Mathlib.Algebra.Ring.Nat
import Mathlib.Data.Nat.Size

/-!
# Key pairs and the shared secret

`UrlBase64`, `LocalKeys` and `RemoteKey`.  The curve and the digest come from outside, so they
are parameters; what a result needs of the curve is a hypothesis of it.  Each side multiplies
the point of the other side with its own private key, and the coordinate of the product, as 32
bytes, is the secret that both share.
-/

namespace DsaBroker

/-! ### Base64 for URLs -/

/-- The alphabet of `org.bouncycastle.util.encoders.UrlBase64`; it pads with dots. -/
def urlBase64 : Base64Alphabet UInt16 :=
  .ofTable (str "ABCDEFGHIJKLMNOPQRSTUVWXYZabcdefghijklmnopqrstuvwxyz0123456789-_") 46
    (by decide +kernel) (by decide +kernel) (by decide +kernel)

namespace UrlBase64

/-- `bouncyEncode`; all that it writes is ASCII, so the charset makes no difference. -/
def bouncyEncode (data : List UInt8) : Str := urlBase64.encode data

def bouncyDecode (data : Str) : Option (List UInt8) := urlBase64.decodePadded data

/-- `StringUtils.stripEnd(encoded, ".")`. -/
def stripPadding (encoded : Str) : Str := urlBase64.stripPadding encoded

def addPadding (encoded : Str) : Str :=
  encoded ++ List.replicate ((4 - encoded.length % 4) % 4) 46

def encodeBytes (data : List UInt8) : Str := stripPadding (bouncyEncode data)

/-- `none` when the decoder throws. -/
def decodeToBytes (data : Str) : Option (List UInt8) := bouncyDecode (addPadding data)

theorem decodeToBytes_encodeBytes (data : List UInt8) :
    decodeToBytes (encodeBytes data) = some data :=
  urlBase64.decodePadded_addPadding_stripPadding data

theorem length_encodeBytes (data : List UInt8) :
    (encodeBytes data).length = (4 * data.length + 2) / 3 := by
  rw [encodeBytes, stripPadding, bouncyEncode, urlBase64.stripPadding_encode,
    urlBase64.length_encodeDigits]

end UrlBase64

/-! ### Numbers and bytes -/

/-- `BigInteger.toByteArray` of a number that is not negative: big-endian, with as many bytes as
its bits and one for the sign need. -/
def toByteArray (n : Nat) : List UInt8 :=
  (List.range (n.size / 8 + 1)).reverse.map fun i => UInt8.ofNat (n / 256 ^ i)

/-- Ensures the shared secret is always 32 bytes in length. -/
def normalizeSecret (data : List UInt8) : List UInt8 :=
  List.replicate (32 - data.length) 0 ++ data.drop (data.length - 32)

theorem length_normalizeSecret (data : List UInt8) : (normalizeSecret data).length = 32 := by
  rw [normalizeSecret, List.length_append, List.length_replicate, List.length_drop]
  omega

/-- The number that big-endian bytes stand for. -/
def unsigned : List UInt8 → Nat
  | [] => 0
  | b :: rest => b.toNat * 256 ^ rest.length + unsigned rest

theorem unsigned_replicate_zero (k : Nat) (data : List UInt8) :
    unsigned (List.replicate k 0 ++ data) = unsigned data := by
  induction k with
  | zero => rfl
  | succ k ih => simp [List.replicate_succ, unsigned, ih]

theorem unsigned_map_range (n k : Nat) :
    unsigned ((List.range k).reverse.map fun i => UInt8.ofNat (n / 256 ^ i)) = n % 256 ^ k := by
  induction k with
  | zero => simp [unsigned, Nat.mod_one]
  | succ k ih =>
    have hbyte : (UInt8.ofNat (n / 256 ^ k)).toNat = n / 256 ^ k % 256 := UInt8.toNat_ofNat' ..
    rw [List.range_succ, List.reverse_append, List.reverse_singleton, List.singleton_append,
      List.map_cons, unsigned, ih, hbyte, List.length_map, List.length_reverse,
      List.length_range, Nat.mod_pow_succ, Nat.add_comm, Nat.mul_comm (256 ^ k)]

theorem unsigned_toByteArray (n : Nat) : unsigned (toByteArray n) = n := by
  rw [toByteArray, unsigned_map_range]
  apply Nat.mod_eq_of_lt
  calc n < 2 ^ n.size := Nat.lt_size_self n
    _ ≤ 2 ^ (8 * (n.size / 8 + 1)) := Nat.pow_le_pow_right (by decide) (by omega)
    _ = 256 ^ (n.size / 8 + 1) := by rw [Nat.pow_mul]

/-- Normalising a coordinate loses nothing: neither is a byte cut off but the one for the sign,
nor do the bytes in front count. -/
theorem unsigned_normalizeSecret {n : Nat} (h : n < 2 ^ 256) :
    unsigned (normalizeSecret (toByteArray n)) = n := by
  have hsize : n.size ≤ 256 := Nat.size_le.mpr h
  have hlength : (toByteArray n).length = n.size / 8 + 1 := by
    rw [toByteArray, List.length_map, List.length_reverse, List.length_range]
  rw [normalizeSecret, unsigned_replicate_zero, hlength]
  by_cases hshort : n.size / 8 + 1 ≤ 32
  · rw [Nat.sub_eq_zero_of_le hshort, List.drop_zero, unsigned_toByteArray]
  · have hfull : n.size / 8 + 1 = 32 + 1 := by omega
    rw [toByteArray, hfull, List.range_succ, List.reverse_append, List.reverse_singleton,
      List.singleton_append, List.map_cons, Nat.add_sub_cancel_left, List.drop_succ_cons,
      List.drop_zero, unsigned_map_range]
    exact Nat.mod_eq_of_lt (lt_of_lt_of_eq h (by decide))

/-! ### Keys -/

/-- What the broker uses of an elliptic curve and its base point. -/
structure Curve (Point : Type) where
  generator : Point
  multiply : Nat → Point → Point
  /-- `getEncoded(false)`. -/
  encoded : Point → List UInt8
  /-- `decodePoint`, which throws for what is no point. -/
  decodePoint : List UInt8 → Option Point
  /-- `normalize.getXCoord.toBigInteger`; the point at infinity has no coordinate. -/
  xCoord : Point → Option Nat

/-- Multiplication with two private keys commutes, and an encoded point is decoded again. -/
structure Curve.Lawful {Point : Type} (curve : Curve Point) : Prop where
  multiply_comm : ∀ d e, curve.multiply d (curve.multiply e curve.generator) =
    curve.multiply e (curve.multiply d curve.generator)
  decodePoint_encoded : ∀ q, curve.decodePoint (curve.encoded q) = some q

/-- A key pair: the public point belongs to the private number. -/
structure LocalKeys {Point : Type} (curve : Curve Point) where
  d : Nat
  q : Point
  q_eq : q = curve.multiply d curve.generator

/-- The secret that is shared with the other side. -/
structure RemoteKey where
  sharedSecret : List UInt8
  length_sharedSecret : sharedSecret.length = 32
deriving DecidableEq

variable {Point : Type} {curve : Curve Point}

def LocalKeys.encodedPublicKey (keys : LocalKeys curve) : Str :=
  UrlBase64.encodeBytes (curve.encoded keys.q)

def LocalKeys.encodedHashedPublicKey (sha256 : List UInt8 → List UInt8)
    (keys : LocalKeys curve) : Str :=
  UrlBase64.encodeBytes (sha256 (curve.encoded keys.q))

/-- `LocalKeys.saltSharedSecret`. -/
def saltSharedSecret (sha256 : List UInt8 → List UInt8) (salt sharedSecret : List UInt8) : Str :=
  UrlBase64.encodeBytes (sha256 (salt ++ sharedSecret))

/-- `RemoteKey.generate`; `none` when it throws. -/
def RemoteKey.generate (keys : LocalKeys curve) (tempKey : Str) : Option RemoteKey := do
  let decoded ← UrlBase64.decodeToBytes tempKey
  let point1 ← curve.decodePoint decoded
  let point2 := curve.multiply keys.d point1
  let bi ← curve.xCoord point2
  some ⟨normalizeSecret (toByteArray bi), length_normalizeSecret _⟩

theorem RemoteKey.generate_encodedPublicKey (hcurve : curve.Lawful) (keys other : LocalKeys curve) :
    RemoteKey.generate keys other.encodedPublicKey =
      (curve.xCoord (curve.multiply keys.d other.q)).map fun bi =>
        ⟨normalizeSecret (toByteArray bi), length_normalizeSecret _⟩ := by
  simp only [generate, LocalKeys.encodedPublicKey, UrlBase64.decodeToBytes_encodeBytes,
    hcurve.decodePoint_encoded, Option.bind_eq_bind, Option.bind_some]
  rcases curve.xCoord (curve.multiply keys.d other.q) with _ | bi
  · rfl
  · rfl

/-- Both sides come to the same secret. -/
theorem RemoteKey.generate_comm (hcurve : curve.Lawful) (keys other : LocalKeys curve) :
    RemoteKey.generate keys other.encodedPublicKey =
      RemoteKey.generate other keys.encodedPublicKey := by
  have hpoint : curve.multiply keys.d other.q = curve.multiply other.d keys.q := by
    rw [keys.q_eq, other.q_eq, hcurve.multiply_comm]
  rw [generate_encodedPublicKey hcurve, generate_encodedPublicKey hcurve, hpoint]

/-- The secret is the coordinate of the common point, and no other number has these bytes. -/
theorem RemoteKey.unsigned_sharedSecret (hcurve : curve.Lawful) (keys other : LocalKeys curve)
    {n : Nat} (hn : curve.xCoord (curve.multiply keys.d other.q) = some n) (hbound : n < 2 ^ 256) :
    (RemoteKey.generate keys other.encodedPublicKey).map (fun key => unsigned key.sharedSecret) =
      some n := by
  rw [generate_encodedPublicKey hcurve, hn, Option.map_some, Option.map_some,
    unsigned_normalizeSecret hbound]

end DsaBroker
