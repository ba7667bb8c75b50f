/-
Numbers as octets, least significant first. `encode` writes the lowest octets of a number, `decode` reads a number
back, and `decodeSigned` reads the highest bit as the sign.

Main statements: `decode_encode` and `encode_decode` (writing and reading undo each other), `decode_lt`.
-/
import SdoClient.Power

namespace SdoClient.LittleEndian

open scoped Power

/-- the lowest `count` octets of a number -/
def encode : (count : Nat) → Nat → List UInt8
  | 0, _ => []
  | count + 1, n => UInt8.ofNat n :: encode count (n / 256)

/-- the number that octets spell -/
def decode : List UInt8 → Nat
  | [] => 0
  | b :: rest => b.toNat + 256 * decode rest

/-- the lowest `count` octets of an integer in two's complement -/
def encodeInt (count : Nat) (n : Int) : List UInt8 :=
  encode count (n % (256 : Int) ^ count).toNat

/-- the integer that octets spell in two's complement -/
def decodeSigned (data : List UInt8) : Int :=
  let size := 256 ^ data.length
  let n := decode data
  if 2 * n < size then n else (n : Int) - size

@[simp] theorem length_encode (count n : Nat) : (encode count n).length = count := by
  induction count generalizing n with
  | zero => rfl
  | succ count ih => simp [encode, ih]

@[simp] theorem length_encodeInt (count : Nat) (n : Int) : (encodeInt count n).length = count := by
  simp [encodeInt]

theorem decode_lt (data : List UInt8) : decode data < 256 ^ data.length := by
  induction data with
  | nil => decide
  | cons b rest ih =>
    have := b.toNat_lt
    simp only [decode, List.length_cons, Nat.pow_succ]
    omega

theorem decode_encode (count n : Nat) : decode (encode count n) = n % 256 ^ count := by
  induction count generalizing n with
  | zero => simp [encode, decode, Nat.mod_one]
  | succ count ih =>
    have low : (UInt8.ofNat n).toNat = n % 256 := by simp
    rw [encode, decode, ih, low, Nat.pow_succ, Nat.mul_comm (256 ^ count) 256, Nat.mod_mul]

theorem encode_decode (data : List UInt8) : encode data.length (decode data) = data := by
  induction data with
  | nil => rfl
  | cons b rest ih =>
    have h : b.toNat < 256 := b.toNat_lt
    have hdiv : (b.toNat + 256 * decode rest) / 256 = decode rest := by omega
    have hbyte : UInt8.ofNat (b.toNat + 256 * decode rest) = b := by
      apply UInt8.toNat_inj.mp
      simp only [UInt8.toNat_ofNat']
      omega
    simp [encode, decode, hdiv, hbyte, ih]

end SdoClient.LittleEndian
