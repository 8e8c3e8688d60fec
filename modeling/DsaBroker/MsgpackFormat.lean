import DsaBroker.Handshake
import DsaBroker.ScanMap
import DsaBroker.SharedSecrets
import DsaBroker.StreamReaders
import DsaBroker.UrlDecoding
import DsaBroker.WireFormat

/-!
# MessagePack

The second format of the sockets: `org.velvia.msgpack` and its codecs for the JSON of play-json.
A value starts with a header byte.  It says how to read what follows, and for small numbers,
short texts and short collections it holds the number or the length as well.

What Java makes of bytes that are not UTF-8, and how it turns decimal numbers into floating point
ones and back, comes from outside.  The stack and the memory have no bounds.
-/

namespace DsaBroker

/-- What the codecs leave to the runtime. -/
structure JavaRuntime where
  /-- `new String(data, "UTF-8")` where the data is not UTF-8 -/
  malformed : List UInt8 → Str
  /-- the bits of `value.floatValue()`, where `value.isExactFloat` -/
  exactFloat : Rat → Option UInt32
  /-- the bits of `value.doubleValue()` -/
  doubleValue : Rat → UInt64
  /-- `BigDecimal(readFloat())`, `none` when it throws -/
  ofFloat : UInt32 → Option Rat
  /-- `BigDecimal(readDouble())`, `none` when it throws -/
  ofDouble : UInt64 → Option Rat

/-- What `unpack` throws. -/
inductive UnpackError where
  | noMoreInput
  | invalidType (headerByte : UInt8)
  | bytesTooLarge
  | arrayTooLarge
  | mapTooLarge
  /-- a `NumberFormatException`, whose text is Java's -/
  | notANumber
deriving DecidableEq

/-- The text of an `InvalidMsgPackDataException`. -/
def UnpackError.message : UnpackError → Option Str
  | .noMoreInput => some (str "No more input available when expecting a value")
  | .invalidType headerByte =>
      some (str "Input contains invalid type value " ++ str (toString headerByte.toInt8.toInt))
  | .bytesTooLarge => some (str "byte[] to unpack too large for Java (more than 2^31 elements)!")
  | .arrayTooLarge => some (str "Array to unpack too large for Java (more than 2^31 elements)!")
  | .mapTooLarge => some (str "Map to unpack too large for Java (more than 2^31 elements)!")
  | .notANumber => none

/-! ### `Format` -/

def MAX_4BIT : Nat := 0xf
def MAX_5BIT : Nat := 0x1f
def MAX_7BIT : Nat := 0x7f
def MAX_8BIT : Nat := 0xff
def MAX_15BIT : Nat := 0x7fff
def MAX_16BIT : Nat := 0xffff
def MAX_31BIT : Nat := 0x7fffffff
def MAX_32BIT : Nat := 0xffffffff

def MP_NULL : UInt8 := 0xc0
def MP_FALSE : UInt8 := 0xc2
def MP_TRUE : UInt8 := 0xc3

def MP_FLOAT : UInt8 := 0xca
def MP_DOUBLE : UInt8 := 0xcb

def MP_FIXNUM : UInt8 := 0x00
def MP_UINT8 : UInt8 := 0xcc
def MP_UINT16 : UInt8 := 0xcd
def MP_UINT32 : UInt8 := 0xce
def MP_UINT64 : UInt8 := 0xcf

def MP_INT8 : UInt8 := 0xd0
def MP_INT16 : UInt8 := 0xd1
def MP_INT32 : UInt8 := 0xd2
def MP_INT64 : UInt8 := 0xd3

def MP_FIXARRAY : UInt8 := 0x90
def MP_ARRAY16 : UInt8 := 0xdc
def MP_ARRAY32 : UInt8 := 0xdd

def MP_FIXMAP : UInt8 := 0x80
def MP_MAP16 : UInt8 := 0xde
def MP_MAP32 : UInt8 := 0xdf

def MP_FIXSTR : UInt8 := 0xa0
def MP_STR8 : UInt8 := 0xd9
def MP_STR16 : UInt8 := 0xda
def MP_STR32 : UInt8 := 0xdb

/-- The low `k` bytes of a number in two's complement: `write`, `writeShort`, `writeInt` and
`writeLong` of a `DataOutputStream`, for `k` one, two, four and eight. -/
def written (k : Nat) (n : Int) : List UInt8 := bigEndian k (n % 256 ^ k).toNat

def packString (s : Str) : List UInt8 :=
  let bytes := getBytesUtf8 s
  let header :=
    if bytes.length ≤ MAX_5BIT then [UInt8.ofNat bytes.length ||| MP_FIXSTR]
    else if bytes.length ≤ MAX_8BIT then MP_STR8 :: written 1 bytes.length
    else if bytes.length ≤ MAX_16BIT then MP_STR16 :: written 2 bytes.length
    else MP_STR32 :: written 4 bytes.length
  header ++ bytes

def packLong (value : Int) : List UInt8 :=
  if 0 ≤ value then
    if value ≤ MAX_7BIT then [UInt8.ofNat value.toNat ||| MP_FIXNUM]
    else if value ≤ MAX_8BIT then MP_UINT8 :: written 1 value
    else if value ≤ MAX_16BIT then MP_UINT16 :: written 2 value
    else if value ≤ MAX_32BIT then MP_UINT32 :: written 4 value
    else MP_UINT64 :: written 8 value
  else
    if -(MAX_5BIT + 1) ≤ value then written 1 value
    else if -(MAX_7BIT + 1) ≤ value then MP_INT8 :: written 1 value
    else if -(MAX_15BIT + 1) ≤ value then MP_INT16 :: written 2 value
    else if -(MAX_31BIT + 1) ≤ value then MP_INT32 :: written 4 value
    else MP_INT64 :: written 8 value

/-- The size of a collection: in the header byte, or in 16 or 32 bits after it. -/
def sizeHeader (fixed wide16 wide32 : UInt8) (size : Nat) : List UInt8 :=
  if size ≤ MAX_4BIT then [UInt8.ofNat size ||| fixed]
  else if size ≤ MAX_16BIT then wide16 :: written 2 size
  else wide32 :: written 4 size

/-- What `packSeq` writes before the items. -/
def writeSeqHeader (size : Nat) : List UInt8 := sizeHeader MP_FIXARRAY MP_ARRAY16 MP_ARRAY32 size

def writeMapHeader (mapSize : Nat) : List UInt8 := sizeHeader MP_FIXMAP MP_MAP16 MP_MAP32 mapSize

/-! ### Reading from a `DataInputStream` -/

abbrev Unpacker (α : Type) := StreamReader UnpackError UInt8 α

open StreamReader

/-- `readByte`; an `EOFException` becomes the error that the codec throws. -/
def readByte : Unpacker UInt8 := next .noMoreInput

/-- `read`, which gives `-1` at the end. -/
def readOrEnd : Unpacker Int
  | [] => .ok (-1, [])
  | b :: rest => .ok (b.toNat, rest)

def readFully (size : Nat) : Unpacker (List UInt8) := taking .noMoreInput size

/-- `readUnsignedByte`, `readShort() & MAX_16BIT` and `readInt() & MAX_32BIT`. -/
def readUnsigned (k : Nat) : Unpacker Int := (fun data => (unsigned data : Int)) <$> readFully k

/-- `readByte`, `readShort`, `readInt` and `readLong`. -/
def readSigned (k : Nat) : Unpacker Int := signed <$> readFully k

def unpackRaw (size : Int) : Unpacker (List UInt8) :=
  if size < 0 then refuse .bytesTooLarge else readFully size.toNat

/-- `new String(data, "UTF-8")`. -/
def JavaRuntime.newString (rt : JavaRuntime) (data : List UInt8) : Str :=
  (utf8Decode (data.map UInt8.toNat)).getD (rt.malformed data)

def unpackString (rt : JavaRuntime) (size : Int) : Unpacker Str := rt.newString <$> unpackRaw size

def unpackSeq {α : Type} (unpacker : Unpacker α) (size : Int) : Unpacker (List α) :=
  if size < 0 then refuse .arrayTooLarge else unpacker.repeated size.toNat

def unpackEntry {κ α : Type} (keyCodec : Unpacker κ) (valCodec : Unpacker α) :
    Unpacker (κ × α) := do
  let key ← keyCodec
  let value ← valCodec
  pure (key, value)

def unpackMap {κ α : Type} [DecidableEq κ] (keyCodec : Unpacker κ) (valCodec : Unpacker α)
    (size : Int) : Unpacker (ScanMap κ α) :=
  if size < 0 then refuse .mapTooLarge
  else ScanMap.ofEntries <$> (unpackEntry keyCodec valCodec).repeated size.toNat

/-! ### Codecs -/

/-- The things of a `FastByteMap`, which are put into its array one after the other. -/
abbrev FastByteMap (ν : Type) := List (UInt8 × ν)

def FastByteMap.get {ν : Type} : FastByteMap ν → UInt8 → Option ν
  | [], _ => none
  | (k, v) :: rest, b => (FastByteMap.get rest b).or (if k = b then some v else none)

def FastByteMap.mapValues {ν μ : Type} (m : FastByteMap ν) (f : ν → μ) : FastByteMap μ :=
  m.map fun thing => (thing.1, f thing.2)

/-- `Codec.unpack`. -/
def Codec.unpack {α : Type} (unpackFuncMap : FastByteMap (Unpacker α)) : Unpacker α := do
  let headerByte ← readByte
  (unpackFuncMap.get headerByte).getD (refuse (.invalidType headerByte))

def BooleanCodec.unpackFuncMap : FastByteMap (Unpacker Bool) :=
  [(MP_FALSE, pure false), (MP_TRUE, pure true)]

/-- The numbers that are their own header byte. -/
def byteFuncMap : FastByteMap (Unpacker Int) :=
  (List.range 160).map fun i => (UInt8.ofNat (i + 224), pure ((i : Int) - 32))

def LongCodec.unpackFuncMap : FastByteMap (Unpacker Int) :=
  [(MP_UINT16, readUnsigned 2), (MP_INT16, readSigned 2), (MP_UINT32, readUnsigned 4),
    (MP_INT32, readSigned 4), (MP_UINT64, readSigned 8), (MP_INT64, readSigned 8),
    (MP_UINT8, readUnsigned 1), (MP_INT8, readSigned 1)] ++ byteFuncMap

def FloatCodec.unpackFuncMap : FastByteMap (Unpacker UInt32) :=
  [(MP_FLOAT, (fun data => UInt32.ofNat (unsigned data)) <$> readFully 4)]

def DoubleCodec.unpackFuncMap : FastByteMap (Unpacker UInt64) :=
  [(MP_DOUBLE, (fun data => UInt64.ofNat (unsigned data)) <$> readFully 8)]

def StringCodec.unpackFuncMap (rt : JavaRuntime) : FastByteMap (Unpacker Str) :=
  [(MP_STR8, readOrEnd >>= unpackString rt), (MP_STR16, readUnsigned 2 >>= unpackString rt),
    (MP_STR32, readSigned 4 >>= unpackString rt)] ++
    (List.range 32).map fun strlen =>
      (MP_FIXSTR ||| UInt8.ofNat strlen, unpackString rt strlen)

/-- The readers of a collection, by where its size is. -/
def sizedFuncMap {α : Type} (fixed wide16 wide32 : UInt8) (sized : Int → Unpacker α) :
    FastByteMap (Unpacker α) :=
  [(wide16, readUnsigned 2 >>= sized), (wide32, readSigned 4 >>= sized)] ++
    (List.range 16).map fun len => (fixed ||| UInt8.ofNat len, sized len)

def SeqCodec.unpackFuncMap {α : Type} (codec : Unpacker α) : FastByteMap (Unpacker (List α)) :=
  sizedFuncMap MP_FIXARRAY MP_ARRAY16 MP_ARRAY32 (unpackSeq codec)

def CMapCodec.unpackFuncMap {κ α : Type} [DecidableEq κ] (keyCodec : Unpacker κ)
    (valCodec : Unpacker α) : FastByteMap (Unpacker (ScanMap κ α)) :=
  sizedFuncMap MP_FIXMAP MP_MAP16 MP_MAP32 (unpackMap keyCodec valCodec)

/-! ### `PlayJsonCodecs` -/

/-- `value.isValidLong`, and the `Long`. -/
def validLong (value : Rat) : Option Int :=
  if value.den = 1 ∧ -2 ^ 63 ≤ value.num ∧ value.num < 2 ^ 63 then some value.num else none

def JsNumberCodec.pack (rt : JavaRuntime) (value : Rat) : List UInt8 :=
  match validLong value with
  | some n => packLong n
  | none =>
      match rt.exactFloat value with
      | some bits => MP_FLOAT :: written 4 bits.toNat
      | none => MP_DOUBLE :: written 8 (rt.doubleValue value).toNat

mutual

/-- `JsValueCodec.pack`. -/
def packJson (rt : JavaRuntime) : Json → List UInt8
  | .null => [MP_NULL]
  | .boolean value => [if value then MP_TRUE else MP_FALSE]
  | .number value => JsNumberCodec.pack rt value
  | .string value => packString value
  | .array items => writeSeqHeader items.length ++ packItems rt items
  | .object fields => writeMapHeader fields.length ++ packFields rt fields

def packItems (rt : JavaRuntime) : List Json → List UInt8
  | [] => []
  | item :: rest => packJson rt item ++ packItems rt rest

def packFields (rt : JavaRuntime) : List (Str × Json) → List UInt8
  | [] => []
  | (key, value) :: rest => packString key ++ packJson rt value ++ packFields rt rest

end

/-- `BigDecimal(b)`. -/
def bigDecimal (value : Option Rat) : Unpacker Json :=
  match value with
  | some q => pure (.number q)
  | none => refuse .notANumber

def JsNumberCodec.unpackFuncMap (rt : JavaRuntime) : FastByteMap (Unpacker Json) :=
  LongCodec.unpackFuncMap.mapValues (fun r => (fun n : Int => JsValue.number (n : Rat)) <$> r) ++
    FloatCodec.unpackFuncMap.mapValues (fun r => r >>= fun b => bigDecimal (rt.ofFloat b)) ++
    DoubleCodec.unpackFuncMap.mapValues fun r => r >>= fun b => bigDecimal (rt.ofDouble b)

variable [ScanOrder Str]

def JsObjectCodec.unpackFuncMap (rt : JavaRuntime) (valCodec : Unpacker Json) :
    FastByteMap (Unpacker Json) :=
  (CMapCodec.unpackFuncMap (Codec.unpack (StringCodec.unpackFuncMap rt)) valCodec).mapValues
    fun r => (fun map => JsValue.object map.entries) <$> r

/-- `JsValueCodec.unpackFuncMap`, where the values inside are read by `codec`. -/
def jsValueFuncMap (rt : JavaRuntime) (codec : Unpacker Json) : FastByteMap (Unpacker Json) :=
  [(MP_NULL, pure .null)] ++
    BooleanCodec.unpackFuncMap.mapValues (fun r => JsValue.boolean <$> r) ++
    (StringCodec.unpackFuncMap rt).mapValues (fun r => JsValue.string <$> r) ++
    JsNumberCodec.unpackFuncMap rt ++ JsObjectCodec.unpackFuncMap rt codec ++
    (SeqCodec.unpackFuncMap codec).mapValues fun r => JsValue.array <$> r

/-- `JsValueCodec.unpack`, which calls itself at most as often as there are header bytes. -/
def unpackJson (rt : JavaRuntime) : Nat → Unpacker Json
  | 0 => refuse .noMoreInput
  | depth + 1 => Codec.unpack (jsValueFuncMap rt (unpackJson rt depth))

/-- `msgpack.unpack`; what follows the value is left unread. -/
def unpack (rt : JavaRuntime) (data : List UInt8) : Except UnpackError Json :=
  (unpackJson rt (data.length + 1) data).map Prod.fst

end DsaBroker
