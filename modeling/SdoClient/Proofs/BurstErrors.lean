/-
The checksum as a remainder. The bits of a payload are the coefficients of a polynomial over the field of two elements,
the first bit leading; the register holds a polynomial of degree below sixteen. A shift of the register is a
multiplication by `X` up to a multiple of the generator, so octets that go through the register are divided by it.

Main statements:
- `ofRegister_crc16`: the checksum is the remainder of the payload, moved up by sixteen places, by the generator;
- `crc16_ne_of_burst`: two payloads that differ only within sixteen bits in a row never have the same checksum. Their
  difference would be a multiple of the generator, which has no factor `X`, and of lower degree.
-/
import Mathlib.Data.Nat.Bitwise
import Mathlib.RingTheory.AdjoinRoot
import Mathlib.Tactic
import SdoClient.Checksum

namespace SdoClient.Checksum

open Polynomial

/-! ## Bits as polynomials -/

/-- the lowest `count` bits of a number, the highest first -/
def bitsOf : (count : ℕ) → ℕ → List Bool
  | 0, _ => []
  | count + 1, n => n.testBit count :: bitsOf count n

/-- the bits of octets in the order of the division: the highest bit of each octet first -/
def bits (data : List UInt8) : List Bool := data.flatMap fun b => bitsOf 8 b.toNat

/-- a bit as a coefficient -/
def coefficient (bit : Bool) : ZMod 2 := if bit then 1 else 0

/-- the polynomial with the bits as its coefficients, the first one leading -/
noncomputable def ofBits : List Bool → (ZMod 2)[X]
  | [] => 0
  | bit :: rest => C (coefficient bit) * X ^ rest.length + ofBits rest

/-- the polynomial that the checksum divides by -/
noncomputable def generator : (ZMod 2)[X] := X ^ 16 + X ^ 12 + X ^ 5 + 1

/-- the sixteen bits of a register as a polynomial -/
noncomputable def ofRegister (register : UInt16) : (ZMod 2)[X] := ofBits (bitsOf 16 register.toNat)

@[simp] theorem length_bitsOf (count n : ℕ) : (bitsOf count n).length = count := by
  induction count with
  | zero => rfl
  | succ count ih => simp [bitsOf, ih]

theorem length_bits (data : List UInt8) : (bits data).length = 8 * data.length := by
  induction data with
  | nil => rfl
  | cons b rest ih =>
    change (bitsOf 8 b.toNat ++ bits rest).length = _
    rw [List.length_append, length_bitsOf, ih, List.length_cons]
    omega

theorem bitsOf_eq_iff {count m n : ℕ} : bitsOf count m = bitsOf count n ↔ ∀ i < count, m.testBit i = n.testBit i := by
  induction count with
  | zero => simp [bitsOf]
  | succ count ih => rw [bitsOf, bitsOf, List.cons_eq_cons, ih, Nat.forall_lt_succ_right, and_comm]

/-- an octet is its eight bits -/
theorem bitsOf_octet_inj {x y : UInt8} : bitsOf 8 x.toNat = bitsOf 8 y.toNat ↔ x = y := by
  refine ⟨fun h => UInt8.toNat_inj.1 (Nat.eq_of_testBit_eq fun i => ?_), fun h => by rw [h]⟩
  by_cases hi : i < 8
  · exact bitsOf_eq_iff.1 h i hi
  · have hpow : 2 ^ 8 ≤ 2 ^ i := Nat.pow_le_pow_right (by decide) (Nat.le_of_not_lt hi)
    rw [Nat.testBit_lt_two_pow (x.toNat_lt.trans_le hpow), Nat.testBit_lt_two_pow (y.toNat_lt.trans_le hpow)]

theorem bits_injective : Function.Injective bits := by
  intro a b h
  have hlength : a.length = b.length := by simpa [length_bits] using congrArg List.length h
  induction a generalizing b with
  | nil => exact (List.length_eq_zero_iff.1 hlength.symm).symm
  | cons x a ih =>
    cases b with
    | nil => cases hlength
    | cons y b =>
      have hsplit : bitsOf 8 x.toNat ++ bits a = bitsOf 8 y.toNat ++ bits b := h
      obtain ⟨hhead, htail⟩ := List.append_inj hsplit (by simp)
      rw [bitsOf_octet_inj.1 hhead, ih htail (Nat.succ.inj hlength)]

theorem ofBits_append (a b : List Bool) : ofBits (a ++ b) = X ^ b.length * ofBits a + ofBits b := by
  induction a with
  | nil => simp [ofBits]
  | cons bit a ih =>
    rw [List.cons_append, ofBits, ofBits, ih, List.length_append]
    ring

theorem degree_ofBits_lt (l : List Bool) : (ofBits l).degree < l.length := by
  induction l with
  | nil => simp [ofBits]
  | cons bit rest ih =>
    have hlead : (C (coefficient bit) * X ^ rest.length : (ZMod 2)[X]).degree < (rest.length + 1 : ℕ) :=
      (degree_C_mul_X_pow_le _ _).trans_lt (by exact_mod_cast Nat.lt_succ_self _)
    have htail : (ofBits rest).degree < (rest.length + 1 : ℕ) := ih.trans (by exact_mod_cast Nat.lt_succ_self _)
    exact (degree_add_le _ _).trans_lt (max_lt hlead htail)

/-- as many bits are known from their polynomial -/
theorem ofBits_injective {a b : List Bool} (hlength : a.length = b.length) (h : ofBits a = ofBits b) : a = b := by
  induction a generalizing b with
  | nil => exact (List.length_eq_zero_iff.1 hlength.symm).symm
  | cons x a ih =>
    cases b with
    | nil => cases hlength
    | cons y b =>
      have hlength : a.length = b.length := Nat.succ.inj hlength
      have hlead (bit : Bool) (rest : List Bool) : (ofBits (bit :: rest)).coeff rest.length = coefficient bit := by
        rw [ofBits, coeff_add, coeff_C_mul_X_pow, if_pos rfl, coeff_eq_zero_of_degree_lt (degree_ofBits_lt rest),
          add_zero]
      have hxy : coefficient x = coefficient y := by
        rw [← hlead x a, ← hlead y b, h, hlength]
      have htail : ofBits a = ofBits b := by
        rw [ofBits, ofBits, hxy, hlength] at h
        exact add_left_cancel h
      have hbit : x = y := by
        revert hxy
        cases x <;> cases y <;> decide
      rw [hbit, ih hlength htail]

theorem coefficient_xor (a b : Bool) : coefficient (a ^^ b) = coefficient a + coefficient b := by
  cases a <;> cases b <;> decide

theorem ofBits_xor (count m n : ℕ) :
    ofBits (bitsOf count (m ^^^ n)) = ofBits (bitsOf count m) + ofBits (bitsOf count n) := by
  induction count with
  | zero => simp [bitsOf, ofBits]
  | succ count ih =>
    simp only [bitsOf, ofBits, length_bitsOf, ih, Nat.testBit_xor, coefficient_xor, C_add]
    ring

/-- twice a number has its bits one place up -/
theorem bitsOf_double (count n : ℕ) : bitsOf (count + 1) (2 * n) = bitsOf count n ++ [false] := by
  induction count with
  | zero => simp [bitsOf]
  | succ count ih =>
    rw [bitsOf, ih, bitsOf, Nat.testBit_succ, Nat.mul_div_cancel_left n two_pos]
    rfl

theorem ofBits_double (count n : ℕ) : ofBits (bitsOf (count + 1) (2 * n)) = X * ofBits (bitsOf count n) := by
  rw [bitsOf_double, ofBits_append]
  simp [ofBits, coefficient]

theorem ofBits_shift (count n k : ℕ) :
    ofBits (bitsOf (count + k) (2 ^ k * n)) = X ^ k * ofBits (bitsOf count n) := by
  induction k with
  | zero => simp
  | succ k ih =>
    have hdouble : 2 ^ (k + 1) * n = 2 * (2 ^ k * n) := by ring
    rw [← Nat.add_assoc, hdouble, ofBits_double, ih]
    ring

/-! ## The register -/

theorem degree_ofRegister_lt (register : UInt16) : (ofRegister register).degree < 16 := by
  simpa [ofRegister] using degree_ofBits_lt (bitsOf 16 register.toNat)

theorem ofRegister_zero : ofRegister 0 = 0 := by
  simp [ofRegister, bitsOf, ofBits, coefficient]

theorem ofRegister_xor (a b : UInt16) : ofRegister (a ^^^ b) = ofRegister a + ofRegister b := by
  rw [ofRegister, UInt16.toNat_xor, ofBits_xor]
  rfl

/-- the bits that stay in the register when it is shifted up -/
theorem ofRegister_shiftLeft (register : UInt16) (k : ℕ) (hk : k < 16) :
    ofRegister (register <<< UInt16.ofNat k) = ofBits (bitsOf 16 (2 ^ k * register.toNat)) := by
  rw [ofRegister]
  refine congrArg ofBits (bitsOf_eq_iff.2 fun i hi => ?_)
  have hmod : k % 65536 % 16 = k := by omega
  rw [UInt16.toNat_shiftLeft, UInt16.toNat_ofNat', hmod, Nat.testBit_mod_two_pow, decide_eq_true hi, Bool.true_and,
    Nat.shiftLeft_eq, Nat.mul_comm]

theorem ofRegister_polynomial : ofRegister polynomial = X ^ 12 + X ^ 5 + 1 := by
  simp [ofRegister, polynomial, bitsOf, ofBits, coefficient, Nat.testBit, Nat.shiftRight_eq_div_pow, add_assoc]

/-- the test of the highest bit -/
theorem top_clear_iff (register : UInt16) : register &&& 0x8000 = 0 ↔ register.toNat.testBit 15 = false := by
  have hpow : (0x8000 : UInt16).toNat = 2 ^ 15 := rfl
  rw [← UInt16.toNat_inj, UInt16.toNat_and, hpow, Nat.and_two_pow]
  cases register.toNat.testBit 15 <;> simp

/-- the bit that leaves the register at the top takes the generator with it -/
theorem ofRegister_shift (register : UInt16) :
    ofRegister (shift register) + C (coefficient (register.toNat.testBit 15)) * generator =
      X * ofRegister register := by
  have hdouble : X * ofRegister register =
      C (coefficient (register.toNat.testBit 15)) * X ^ 16 + ofBits (bitsOf 16 (2 * register.toNat)) := by
    rw [ofRegister, ← ofBits_double, bitsOf, ofBits, length_bitsOf, Nat.testBit_succ,
      Nat.mul_div_cancel_left _ two_pos]
  have hkept : ofRegister (register <<< 1) = ofBits (bitsOf 16 (2 * register.toNat)) :=
    ofRegister_shiftLeft register 1 (by decide)
  have htwice : (2 : (ZMod 2)[X]) = 0 := CharTwo.two_eq_zero
  rw [hdouble, ← hkept, shift]
  by_cases htop : register &&& 0x8000 = 0
  · rw [if_pos htop, (top_clear_iff register).1 htop]
    simp [coefficient]
  · have hset : register.toNat.testBit 15 = true := by simpa [top_clear_iff] using htop
    rw [if_neg htop, hset, ofRegister_xor, ofRegister_polynomial, generator]
    simp only [coefficient, if_true, C_1]
    -- the polynomial is there twice, once from the register and once from the generator
    linear_combination (X ^ 12 + X ^ 5 + 1) * htwice

/-! ## The remainder -/

/-- polynomials up to multiples of the generator -/
noncomputable def residue : (ZMod 2)[X] →+* AdjoinRoot generator := AdjoinRoot.mk generator

theorem residue_generator : residue generator = 0 := AdjoinRoot.mk_self

theorem residue_shift (register : UInt16) :
    residue (ofRegister (shift register)) = residue X * residue (ofRegister register) := by
  let top := C (coefficient (register.toNat.testBit 15))
  calc residue (ofRegister (shift register))
      = residue (ofRegister (shift register) + top * generator) := by
        rw [map_add, map_mul, residue_generator, mul_zero, add_zero]
    _ = residue (X * ofRegister register) := by rw [ofRegister_shift]
    _ = residue X * residue (ofRegister register) := map_mul _ _ _

theorem residue_shifts (n : ℕ) (register : UInt16) :
    residue (ofRegister (Nat.repeat shift n register)) = residue X ^ n * residue (ofRegister register) := by
  induction n with
  | zero => simp [Nat.repeat]
  | succ n ih =>
    rw [Nat.repeat, residue_shift, ih]
    ring

theorem ofRegister_octet (b : UInt8) : ofRegister (b.toUInt16 <<< 8) = X ^ 8 * ofBits (bitsOf 8 b.toNat) := by
  have hshift := ofRegister_shiftLeft b.toUInt16 8 (by decide)
  rw [UInt8.toNat_toUInt16, ofBits_shift 8 b.toNat 8] at hshift
  exact hshift

/-- **Step lemma.** What one octet does to the register. -/
theorem residue_feed (register : UInt16) (b : UInt8) :
    residue (ofRegister (feed register b)) =
      residue X ^ 8 * residue (ofRegister register) + residue X ^ 16 * residue (ofBits (bitsOf 8 b.toNat)) := by
  rw [feed, residue_shifts, ofRegister_xor, ofRegister_octet, map_add, map_mul, map_pow]
  ring

/-- **Run lemma.** What the register holds after some octets. -/
theorem residue_foldl_feed (data : List UInt8) (register : UInt16) :
    residue (ofRegister (data.foldl feed register)) =
      residue X ^ (8 * data.length) * residue (ofRegister register) + residue X ^ 16 * residue (ofBits (bits data)) := by
  induction data generalizing register with
  | nil => simp [bits, ofBits]
  | cons b rest ih =>
    have hbits : residue (ofBits (bits (b :: rest))) =
        residue X ^ (8 * rest.length) * residue (ofBits (bitsOf 8 b.toNat)) + residue (ofBits (bits rest)) := by
      rw [bits, List.flatMap_cons, ofBits_append, ← bits, length_bits, map_add, map_mul, map_pow]
    calc residue (ofRegister ((b :: rest).foldl feed register))
        = residue X ^ (8 * rest.length) * residue (ofRegister (feed register b)) +
            residue X ^ 16 * residue (ofBits (bits rest)) := ih (feed register b)
      _ = residue X ^ (8 * (rest.length + 1)) * residue (ofRegister register) +
            residue X ^ 16 * residue (ofBits (bits (b :: rest))) := by
          rw [residue_feed, hbits]
          ring

theorem monic_generator : generator.Monic := by
  unfold generator
  monicity!

theorem degree_generator : generator.degree = 16 := by
  unfold generator
  compute_degree!

/-- **The checksum is a remainder**: that of the payload, moved up by sixteen places, by the generator. -/
theorem ofRegister_crc16 (data : List UInt8) :
    ofRegister (crc16 data) = (X ^ 16 * ofBits (bits data)) %ₘ generator := by
  have hrun : residue (ofRegister (crc16 data)) = residue (X ^ 16 * ofBits (bits data)) := by
    rw [crc16, residue_foldl_feed, ofRegister_zero, map_zero, mul_zero, zero_add, map_mul, map_pow]
  have hdvd : generator ∣ ofRegister (crc16 data) - X ^ 16 * ofBits (bits data) := AdjoinRoot.mk_eq_mk.1 hrun
  have hdegree : (ofRegister (crc16 data)).degree < generator.degree := by
    rw [degree_generator]
    exact degree_ofRegister_lt _
  calc ofRegister (crc16 data)
      = ofRegister (crc16 data) %ₘ generator := ((modByMonic_eq_self_iff monic_generator).2 hdegree).symm
    _ = (X ^ 16 * ofBits (bits data)) %ₘ generator := modByMonic_eq_of_dvd_sub monic_generator hdvd

/-! ## Bursts -/

/-- as many octets that differ, and only in bits that lie within sixteen in a row -/
structure Burst (a b : List UInt8) : Prop where
  length : a.length = b.length
  differ : a ≠ b
  window : ∃ start, ∀ i, (bits a)[i]? ≠ (bits b)[i]? → start ≤ i ∧ i < start + 16

/-- a burst cut out of the bits around it -/
theorem Burst.split {a b : List UInt8} (h : Burst a b) :
    ∃ before u v after, bits a = before ++ u ++ after ∧ bits b = before ++ v ++ after ∧ u.length = v.length ∧
      u.length ≤ 16 ∧ u ≠ v := by
  obtain ⟨start, hwindow⟩ := h.window
  have hout (i : ℕ) (hi : i < start ∨ start + 16 ≤ i) : (bits a)[i]? = (bits b)[i]? := by
    by_contra hne
    have := hwindow i hne
    omega
  have hbefore : (bits a).take start = (bits b).take start := by
    refine List.ext_getElem? fun i => ?_
    rw [List.getElem?_take, List.getElem?_take]
    split
    · rename_i hi
      exact hout i (.inl hi)
    · rfl
  have hafter : (bits a).drop (start + 16) = (bits b).drop (start + 16) := by
    refine List.ext_getElem? fun i => ?_
    rw [List.getElem?_drop, List.getElem?_drop]
    exact hout _ (.inr (Nat.le_add_right _ _))
  have hcut (l : List Bool) : l = l.take start ++ (l.drop start).take 16 ++ l.drop (start + 16) := by
    rw [List.append_assoc, ← List.drop_drop, List.take_append_drop, List.take_append_drop]
  refine ⟨_, ((bits a).drop start).take 16, ((bits b).drop start).take 16, _, hcut (bits a), ?_, ?_, ?_, ?_⟩
  · rw [hbefore, hafter]
    exact hcut (bits b)
  · simp only [List.length_take, List.length_drop, length_bits, h.length]
  · exact List.length_take_le _ _
  · intro heq
    refine h.differ (bits_injective ?_)
    rw [hcut (bits a), hbefore, heq, hafter]
    exact (hcut (bits b)).symm

theorem isCoprime_generator_X : IsCoprime generator X := by
  refine ⟨1, X ^ 15 + X ^ 11 + X ^ 4, ?_⟩
  have htwice : (2 : (ZMod 2)[X]) = 0 := CharTwo.two_eq_zero
  rw [generator]
  linear_combination (X ^ 16 + X ^ 12 + X ^ 5) * htwice

/-- **No burst is missed.** -/
theorem crc16_ne_of_burst {a b : List UInt8} (h : Burst a b) : crc16 a ≠ crc16 b := by
  obtain ⟨before, u, v, after, ha, hb, hlength, hshort, hne⟩ := h.split
  intro heq
  have hremainder : (X ^ 16 * ofBits (bits a)) %ₘ generator = (X ^ 16 * ofBits (bits b)) %ₘ generator := by
    rw [← ofRegister_crc16, ← ofRegister_crc16, heq]
  have hdvd : generator ∣ X ^ 16 * ofBits (bits a) - X ^ 16 * ofBits (bits b) := by
    rw [← modByMonic_eq_zero_iff_dvd monic_generator, sub_modByMonic, hremainder, sub_self]
  have hdifference : X ^ 16 * ofBits (bits a) - X ^ 16 * ofBits (bits b) =
      X ^ (16 + after.length) * (ofBits u - ofBits v) := by
    rw [ha, hb]
    simp only [ofBits_append, hlength]
    ring
  rw [hdifference] at hdvd
  -- where the burst is does not matter: the generator has no factor `X`
  have hburst : generator ∣ ofBits u - ofBits v := (isCoprime_generator_X.pow_right).dvd_of_dvd_mul_left hdvd
  have hdegree : (ofBits u - ofBits v).degree < generator.degree := by
    have hwidth : (u.length : WithBot ℕ) ≤ 16 := by exact_mod_cast hshort
    have hu : (ofBits u).degree < 16 := (degree_ofBits_lt u).trans_le hwidth
    have hv : (ofBits v).degree < 16 := (degree_ofBits_lt v).trans_le (hlength ▸ hwidth)
    rw [degree_generator]
    exact (degree_sub_le _ _).trans_lt (max_lt hu hv)
  exact hne (ofBits_injective hlength (sub_eq_zero.1 (eq_zero_of_dvd_of_degree_lt hburst hdegree)))

end SdoClient.Checksum
