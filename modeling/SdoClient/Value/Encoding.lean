/-
The octets of a value. A type of fixed width takes its octets from the start of the payload and ignores what follows;
strings and domains keep all of them. Numbers are little-endian, signed ones in two's complement.

Main statements: `encode_isOk` (exactly the values that fit are encoded), `length_encode` (at the declared width) and
`decode_eq_none_iff` (exactly the payloads that are too short, and the type of no value, decode to nothing).
-/
import SdoClient.Error
import SdoClient.LittleEndian

namespace SdoClient.Value

/-- the first `count` octets, if there are that many -/
def leading? (count : Nat) (data : List UInt8) : Option (List UInt8) :=
  if count ≤ data.length then some (data.take count) else none

/-- a signed integer in the narrowest holder of its width -/
def ofSigned (w : Width) (n : Int) : Value :=
  match w with
  | .w8 => i8 (Int8.ofInt n)
  | .w16 => i16 (Int16.ofInt n)
  | .w24 | .w32 => i32 (Int32.ofInt n)
  | .w40 | .w48 | .w56 | .w64 => i64 (Int64.ofInt n)

/-- an unsigned integer in the narrowest holder of its width -/
def ofUnsigned (w : Width) (n : Nat) : Value :=
  match w with
  | .w8 => u8 (UInt8.ofNat n)
  | .w16 => u16 (UInt16.ofNat n)
  | .w24 | .w32 => u32 (UInt32.ofNat n)
  | .w40 | .w48 | .w56 | .w64 => u64 (UInt64.ofNat n)

/-- octets as text if they are valid UTF-8, else as they are -/
def ofVisible (data : List UInt8) : Value :=
  match String.fromUTF8? ⟨data.toArray⟩ with
  | some s => text s
  | none => octets data

/-- the value that a payload holds for a type; nothing if it is too short or the type has no values -/
def decode (data : List UInt8) : DataType → Option Value
  | .untyped => none
  | .boolean => data.head?.map fun b => bool (b != 0)
  | .signed w => (leading? w.octets data).map fun d => ofSigned w (LittleEndian.decodeSigned d)
  | .unsigned w => (leading? w.octets data).map fun d => ofUnsigned w (LittleEndian.decode d)
  | .real32 => (leading? 4 data).map fun d => f32 (UInt32.ofNat (LittleEndian.decode d))
  | .real64 => (leading? 8 data).map fun d => f64 (UInt64.ofNat (LittleEndian.decode d))
  | .visibleString => some (ofVisible data)
  | .octetString | .unicodeString | .domain => some (octets data)

/-- the octets of a value that fits the type -/
def payload (v : Value) (t : DataType) : List UInt8 :=
  match v with
  | bool b => [if b then 1 else 0]
  | f32 bits => LittleEndian.encode 4 bits.toNat
  | f64 bits => LittleEndian.encode 8 bits.toNat
  | text s => s.toUTF8.toList
  | octets data => data
  | v => LittleEndian.encodeInt (t.byteLength?.getD 0) (v.integer?.getD 0)

/-- the octets of a value in an entry of the type, refused if it does not fit -/
def encode (v : Value) (t : DataType) : Except Error (List UInt8) :=
  if v.fits t then .ok (v.payload t) else .error (.invalidValue (.notRepresentable v t))

theorem encode_isOk (v : Value) (t : DataType) : (v.encode t).isOk = v.fits t := by
  cases h : v.fits t <;> simp [encode, h, Except.isOk, Except.toBool]

theorem length_encode {v : Value} {t : DataType} {data : List UInt8} {count : Nat}
    (h : v.encode t = .ok data) (ht : t.byteLength? = some count) : data.length = count := by
  have hf : v.fits t = true := by
    rw [← encode_isOk, h]
    rfl
  simp only [encode, hf, if_true, Except.ok.injEq] at h
  subst h
  cases t <;> cases v <;> simp_all [fits, payload, DataType.byteLength?, integer?]

theorem leading?_eq_none_iff {count : Nat} {data : List UInt8} :
    leading? count data = none ↔ data.length < count := by
  simp only [leading?]
  split <;> simp <;> omega

theorem decode_eq_none_iff (data : List UInt8) (t : DataType) :
    decode data t = none ↔ t = .untyped ∨ ∃ count, t.byteLength? = some count ∧ data.length < count := by
  cases t <;> simp [decode, DataType.byteLength?, leading?_eq_none_iff, List.head?_eq_none_iff]

end SdoClient.Value
