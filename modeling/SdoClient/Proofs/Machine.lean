/-
The operations of a machine that can fail: sums and products that leave their range, differences below zero, narrowing
that loses digits, slices and copies that leave their bounds, and bounds that are out of order. Each gives nothing where
the machine would stop or wrap around.

`Checked` redoes with them what the codec and the reader of frames compute. Main statements: `encode_eq`, `decode_eq`,
`parse_eq`. There the operations never fail and the results are the same, whatever the value and the octets are.
-/
import Mathlib.Tactic
import SdoClient.Proofs.ValueRoundTrip
import SdoClient.Wire.Response

namespace SdoClient

open scoped Power

/-- the size of addresses on a machine -/
class Platform where
  /-- how many numbers an address-sized unsigned integer can hold -/
  word : Nat
  large : 2 ^ 32 ≤ word

namespace Machine

/-- how many numbers an unsigned integer of eight bits can hold -/
def octetRange : Nat := 256

/-- the sum of two unsigned integers of a range -/
def add (range a b : Nat) : Option Nat := if a + b < range then some (a + b) else none

/-- the product of two unsigned integers of a range -/
def mul (range a b : Nat) : Option Nat := if a * b < range then some (a * b) else none

/-- the difference of two unsigned integers -/
def sub (a b : Nat) : Option Nat := if b ≤ a then some (a - b) else none

/-- a signed integer of 128 bits -/
def long (n : Int) : Option Int := if -2 ^ 127 ≤ n ∧ n < 2 ^ 127 then some n else none

/-- one shifted to the left in 128 bits with a sign -/
def bit (places : Nat) : Option Int := if places < 127 then some (2 ^ places) else none

/-- a number as an octet -/
def octet (n : Nat) : Option UInt8 := if n < octetRange then some (UInt8.ofNat n) else none

/-- the octets from one index up to another -/
def slice (data : List UInt8) (start stop : Nat) : Option (List UInt8) :=
  if start ≤ stop ∧ stop ≤ data.length then some ((data.take stop).drop start) else none

/-- a field of zeros whose first `count` octets are overwritten by a source of this length -/
def fill (size count : Nat) (source : List UInt8) : Option (Vector UInt8 size) :=
  if count ≤ size ∧ source.length = count then some (Wire.padded size source) else none

/-- the lowest `64 - places` binary digits of a number, the highest of them read as the sign: a shift to the left and
one back in 64 bits -/
def signExtend (places n : Nat) : Option Int :=
  if places < 64 then some ((BitVec.ofNat 64 n <<< places).sshiftRight places).toInt else none

/-- a number brought between two bounds -/
def clamp (low high n : Nat) : Option Nat := if low ≤ high then some (max low (min n high)) else none

section laws

variable {range a b low high n start stop size count places : Nat} {data source : List UInt8}

theorem add_eq (h : a + b < range) : add range a b = some (a + b) := if_pos h

theorem mul_eq (h : a * b < range) : mul range a b = some (a * b) := if_pos h

theorem sub_eq (h : b ≤ a) : sub a b = some (a - b) := if_pos h

theorem octet_eq (h : n < 256) : octet n = some (UInt8.ofNat n) := if_pos h

theorem slice_eq (hstart : start ≤ stop) (hstop : stop ≤ data.length) :
    slice data start stop = some ((data.take stop).drop start) := if_pos ⟨hstart, hstop⟩

theorem slice_zero (h : stop ≤ data.length) : slice data 0 stop = some (data.take stop) := slice_eq (Nat.zero_le _) h

theorem fill_eq (hcount : count ≤ size) (hsource : source.length = count) :
    fill size count source = some (Wire.padded size source) := if_pos ⟨hcount, hsource⟩

theorem clamp_eq (h : low ≤ high) : clamp low high n = some (max low (min n high)) := if_pos h

/-- sixty-four digits without those shifted out, read in two's complement -/
theorem signExtend_eq {digits : Nat} (hpos : 0 < digits) (hall : digits + places = 64) (hn : n < 2 ^ digits) :
    signExtend places n = some (if 2 * n < 2 ^ digits then (n : Int) else n - (2 ^ digits : Nat)) := by
  have hplaces : ((2 ^ places : Nat) : Int) ≠ 0 := by exact_mod_cast (Nat.two_pow_pos places).ne'
  have hword : 2 ^ digits * 2 ^ places = 2 ^ 64 := by rw [← Nat.pow_add, hall]
  have hsmall : n * 2 ^ places < 2 ^ 64 := hword ▸ Nat.mul_lt_mul_of_pos_right hn (Nat.two_pow_pos _)
  have hfits : n < 2 ^ 64 := lt_of_le_of_lt (Nat.le_mul_of_pos_right _ (Nat.two_pow_pos places)) hsmall
  have hshifted : (BitVec.ofNat 64 n <<< places).toNat = n * 2 ^ places := by
    rw [BitVec.toNat_shiftLeft, BitVec.toNat_ofNat, Nat.shiftLeft_eq, Nat.mod_eq_of_lt hfits, Nat.mod_eq_of_lt hsmall]
  have hsign : 2 * (n * 2 ^ places) < 2 ^ 64 ↔ 2 * n < 2 ^ digits := by
    rw [← hword, ← Nat.mul_assoc]
    exact Nat.mul_lt_mul_right (Nat.two_pow_pos _)
  rw [signExtend, if_pos (by omega), BitVec.toInt_sshiftRight, BitVec.toInt_eq_toNat_cond, hshifted,
    Int.shiftRight_eq_div_pow]
  congr 1
  simp only [hsign]
  split
  · rw [Nat.cast_mul]
    exact Int.mul_ediv_cancel _ hplaces
  · have hnegative : ((n * 2 ^ places : Nat) : Int) - (2 ^ 64 : Nat) =
        ((n : Int) - (2 ^ digits : Nat)) * (2 ^ places : Nat) := by
      rw [← hword, Nat.cast_mul, Nat.cast_mul, Int.sub_mul]
    rw [hnegative]
    exact Int.mul_ediv_cancel _ hplaces

end laws

end Machine

/-! ## Integers and their octets -/

namespace LittleEndian

theorem take_encode {k count : Nat} (h : k ≤ count) (n : Nat) : (encode count n).take k = encode k n := by
  induction k generalizing count n with
  | zero => simp [encode]
  | succ k ih =>
    obtain ⟨count, rfl⟩ : ∃ c, count = c + 1 := ⟨count - 1, by omega⟩
    rw [encode, encode, List.take_succ_cons, ih (Nat.le_of_succ_le_succ h)]

/-- only the lowest digits are written -/
theorem encode_mod (count n : Nat) : encode count (n % 256 ^ count) = encode count n := by
  have h := encode_decode (encode count n)
  rwa [length_encode, decode_encode] at h

/-- the octets of an integer are the first of those of a wider one -/
theorem take_encodeInt {k count : Nat} (h : k ≤ count) (n : Int) : (encodeInt count n).take k = encodeInt k n := by
  have hpos (c : Nat) : (0 : Int) < 256 ^ c := Int.pow_pos (by decide)
  have hdigits : (n % (256 : Int) ^ count).toNat % 256 ^ k = (n % (256 : Int) ^ k).toNat := by
    apply Int.natCast_inj.1
    rw [Int.natCast_emod, Int.toNat_of_nonneg (Int.emod_nonneg _ (hpos _).ne'),
      Int.toNat_of_nonneg (Int.emod_nonneg _ (hpos _).ne')]
    exact Int.emod_emod_of_dvd n (pow_dvd_pow 256 h)
  rw [encodeInt, encodeInt, take_encode h, ← encode_mod, hdigits]

end LittleEndian

/-! ## Values -/

namespace Checked

open Machine

variable {v : Value} {t : DataType} {data : List UInt8} {width : Width}

/-- the least and the greatest integer of an integer type -/
def integerRange : DataType → Option (Option (Int × Int))
  | .signed w => do
    let bits ← mul (2 ^ 32) w.octets 8
    let places ← sub bits 1
    let greatest ← long ((← bit places) - 1)
    let least ← long (-greatest - 1)
    some (some (least, greatest))
  | .unsigned w => do
    let bits ← mul (2 ^ 32) w.octets 8
    let greatest ← long ((← bit bits) - 1)
    some (some (0, greatest))
  | _ => some none

/-- the value can be stored in an entry of this type -/
def fits (v : Value) (t : DataType) : Option Bool :=
  match t with
  | .signed _ | .unsigned _ =>
    (integerRange t).map fun range =>
      match v.integer?, range with
      | some n, some (least, greatest) => least ≤ n && n ≤ greatest
      | _, _ => false
  | _ => some (v.fits t)

/-- the octets of a value: those of an integer are the first of its sixteen -/
def encode (v : Value) (t : DataType) : Option (Except Error (List UInt8)) := do
  if ← fits v t then
    match v.integer? with
    | some n => (slice (LittleEndian.encodeInt 16 n) 0 (t.byteLength?.getD 0)).map .ok
    | none => some (.ok (v.payload t))
  else some (.error (.invalidValue (.notRepresentable v t)))

/-- the number that the first octets spell, if there are enough, read from a buffer of eight -/
def readUnsigned (width : Nat) (data : List UInt8) : Option (Option Nat) :=
  match Value.leading? width data with
  | none => some none
  | some bytes => (fill 8 width bytes).map fun buffer => some (LittleEndian.decode buffer.toList)

/-- the same with a sign -/
def readSigned (width : Nat) (data : List UInt8) : Option (Option Int) := do
  match ← readUnsigned width data with
  | none => some none
  | some raw =>
    let bits ← mul (2 ^ 32) width 8
    let places ← sub 64 bits
    (signExtend places raw).map some

/-- the value that a payload holds for a type -/
def decode (data : List UInt8) (t : DataType) : Option (Option Value) :=
  match t with
  | .signed w => (readSigned w.octets data).map fun n => n.map (Value.ofSigned w)
  | .unsigned w => (readUnsigned w.octets data).map fun n => n.map (Value.ofUnsigned w)
  | _ => some (Value.decode data t)

theorem integerRange_eq (t : DataType) : integerRange t = some t.integerRange? := by
  cases t with
  | signed w => cases w <;> rfl
  | unsigned w => cases w <;> rfl
  | _ => rfl

theorem fits_eq (v : Value) (t : DataType) : fits v t = some (v.fits t) := by
  cases t with
  | signed w | unsigned w =>
    rw [fits, integerRange_eq]
    rfl
  | _ => rfl

theorem byteLength_le (t : DataType) : t.byteLength?.getD 0 ≤ 16 := by
  cases t with
  | signed w | unsigned w => exact w.octets_le.trans (by decide)
  | _ => decide

/-- **Encoding stays in bounds.** -/
theorem encode_eq (v : Value) (t : DataType) : encode v t = some (v.encode t) := by
  simp only [encode, fits_eq, Option.bind_eq_bind, Option.bind_some, Value.encode]
  split
  · split
    · rename_i n hn
      rw [slice_zero (by simpa using byteLength_le t), LittleEndian.take_encodeInt (byteLength_le t),
        Value.payload_of_integer hn]
      rfl
    · rfl
  · rfl

theorem decode_zeros (data : List UInt8) (count : Nat) :
    LittleEndian.decode (data ++ List.replicate count 0) = LittleEndian.decode data := by
  induction data with
  | nil =>
    induction count with
    | zero => rfl
    | succ count ih => simpa [List.replicate_succ, LittleEndian.decode] using ih
  | cons b rest ih => rw [List.cons_append, LittleEndian.decode, LittleEndian.decode, ih]

theorem readUnsigned_eq {count : Nat} (h : count ≤ 8) (data : List UInt8) :
    readUnsigned count data = some ((Value.leading? count data).map LittleEndian.decode) := by
  unfold readUnsigned
  cases hread : Value.leading? count data with
  | none => rfl
  | some bytes =>
    obtain ⟨-, hlength⟩ := Value.leading?_eq_some hread
    simp only [fill_eq h hlength, Option.map_some, Wire.padded_toList]
    rw [decode_zeros, List.take_of_length_le (hlength ▸ h)]

/-- shifted to the top and back, a number is read as the signed integer that its octets spell -/
theorem signExtend_decode {bytes : List UInt8} (h : bytes.length ≤ 8) (hpos : 0 < bytes.length) :
    signExtend (64 - bytes.length * 8) (LittleEndian.decode bytes) = some (LittleEndian.decodeSigned bytes) := by
  have hsize : 256 ^ bytes.length = 2 ^ (bytes.length * 8) := by
    rw [Nat.mul_comm, Nat.pow_mul]
  have hlt : LittleEndian.decode bytes < 2 ^ (bytes.length * 8) := hsize ▸ LittleEndian.decode_lt bytes
  rw [signExtend_eq (by omega) (by omega : bytes.length * 8 + (64 - bytes.length * 8) = 64) hlt]
  simp only [LittleEndian.decodeSigned, hsize]

theorem readSigned_eq {count : Nat} (h : count ≤ 8) (hpos : 0 < count) (data : List UInt8) :
    readSigned count data = some ((Value.leading? count data).map LittleEndian.decodeSigned) := by
  rw [readSigned, readUnsigned_eq h]
  cases hread : Value.leading? count data with
  | none => rfl
  | some bytes =>
    obtain ⟨-, rfl⟩ := Value.leading?_eq_some hread
    have hbits : mul (2 ^ 32) bytes.length 8 = some (bytes.length * 8) := mul_eq (by omega)
    have hplaces : sub 64 (bytes.length * 8) = some (64 - bytes.length * 8) := sub_eq (by omega)
    simp only [Option.map_some, Option.bind_eq_bind, Option.bind_some, hbits, hplaces, signExtend_decode h hpos]

/-- **Decoding stays in bounds.** -/
theorem decode_eq (data : List UInt8) (t : DataType) : decode data t = some (Value.decode data t) := by
  cases t with
  | signed w =>
    rw [decode, readSigned_eq w.octets_le w.octets_pos, Value.decode]
    simp only [Option.map_some, Option.map_map]
    rfl
  | unsigned w =>
    rw [decode, readUnsigned_eq w.octets_le, Value.decode]
    simp only [Option.map_some, Option.map_map]
    rfl
  | _ => rfl

/-! ## Frames -/

/-- eight octets as a response; the length of a segment is what its unused octets leave of seven -/
def parse (data : List UInt8) : Option (Except FrameFault Response) :=
  match Response.parse data with
  | .ok (.uploadSegment toggle _ last field) =>
    (sub Wire.segmentSize ((data.headD 0).toNat / 2 % 8)).map fun len => .ok (.uploadSegment toggle len last field)
  | other => some other

/-- **Reading a frame stays in bounds.** -/
theorem parse_eq (data : List UInt8) : parse data = some (Response.parse data) := by
  have hread (toggle last : Bool) (len : Nat) (field : Vector UInt8 7)
      (h : Response.parse data = .ok (.uploadSegment toggle len last field)) :
      len = 7 - (data.headD 0).toNat / 2 % 8 := by
    unfold Response.parse at h
    split at h
    · dsimp only at h
      split at h
      · cases h
        rfl
      · cases h
      · cases h
      · cases h
      · cases h
      · split at h <;> cases h
      · split at h <;> cases h
      · cases h
    · cases h
  unfold parse
  split
  · rename_i toggle len last field h
    rw [h, sub_eq (by simp only [Wire.segmentSize]; omega), hread toggle last len field h]
    rfl
  · rfl

end Checked

end SdoClient
