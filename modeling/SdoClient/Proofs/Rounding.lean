/-
Whole numbers as 64-bit reals. A whole number of at most 53 bits is a real itself. A larger one keeps its 53 leading
bits, rounded to the nearest, a tie going to the even significand; the order of two numbers is kept, but two that lie
close together can become the same real.

Main statements:
- `value?_read_write`: the pattern written for a whole number is read back as that number rounded;
- `roundWhole_mono`, `roundWhole_exact`: rounding keeps the order, and leaves numbers up to `2 ^ 53` as they are.
-/
import Mathlib.Tactic
import SdoClient.Floating.Binary

namespace SdoClient.Floating

open scoped Power

/-! ## Rounding to a multiple of a power of two -/

theorem nearest_zero (m : Nat) : nearest m 0 = m := by simpa using nearest_exact m 0

theorem nearest_bounds (m s : Nat) : m / 2 ^ s ≤ nearest m s ∧ nearest m s ≤ m / 2 ^ s + 1 := by
  unfold nearest
  simp only
  split <;> omega

theorem nearest_mono {m n : Nat} (h : m ≤ n) (s : Nat) : nearest m s ≤ nearest n s := by
  have hquotient : m / 2 ^ s ≤ n / 2 ^ s := Nat.div_le_div_right h
  rcases hquotient.lt_or_eq with hlt | heq
  · have hm := (nearest_bounds m s).2
    have hn := (nearest_bounds n s).1
    omega
  · -- of two numbers with one quotient, the larger has the larger remainder
    have hremainder : m % 2 ^ s ≤ n % 2 ^ s := by
      have hm := Nat.div_add_mod m (2 ^ s)
      have hn := Nat.div_add_mod n (2 ^ s)
      rw [heq] at hm
      omega
    unfold nearest
    simp only [heq]
    split <;> split <;> omega

/-- a number with its leading bits rounded to the significand of a 64-bit real -/
def roundNat (m : Nat) : Nat :=
  nearest m (m.log2 - double.fractionBits) * 2 ^ (m.log2 - double.fractionBits)

/-- the significand that rounding leaves, before a carry moves it into the next binade -/
theorem significand_bounds {m : Nat} (hm : 52 ≤ m.log2) :
    2 ^ 52 ≤ nearest m (m.log2 - 52) ∧ nearest m (m.log2 - 52) ≤ 2 ^ 53 := by
  have hpos : 0 < 2 ^ (m.log2 - 52) := Nat.two_pow_pos _
  have hne : m ≠ 0 := fun h => by simp [h] at hm
  have hlow : 2 ^ 52 * 2 ^ (m.log2 - 52) ≤ m := by
    rw [← Nat.pow_add, Nat.add_sub_cancel' hm]
    exact Nat.log2_self_le hne
  have hhigh : m < 2 ^ 53 * 2 ^ (m.log2 - 52) := by
    have hlog := Nat.lt_log2_self (n := m)
    rwa [← Nat.pow_add, show 53 + (m.log2 - 52) = m.log2 + 1 by omega]
  have hquotient : 2 ^ 52 ≤ m / 2 ^ (m.log2 - 52) := (Nat.le_div_iff_mul_le hpos).2 hlow
  have hbound : m / 2 ^ (m.log2 - 52) < 2 ^ 53 := (Nat.div_lt_iff_lt_mul hpos).2 hhigh
  obtain ⟨hleast, hmost⟩ := nearest_bounds m (m.log2 - 52)
  omega

theorem roundNat_of_log2_le {m : Nat} (h : m.log2 ≤ 52) : roundNat m = m := by
  have hzero : m.log2 - double.fractionBits = 0 := Nat.sub_eq_zero_of_le h
  rw [roundNat, hzero, nearest_zero, Nat.pow_zero, Nat.mul_one]

theorem log2_mono {m n : Nat} (h : m ≤ n) : m.log2 ≤ n.log2 := by
  rw [Nat.log2_eq_log_two, Nat.log2_eq_log_two]
  exact Nat.log_mono_right h

/-- rounding does not leave the binade of a number but for its upper end -/
theorem roundNat_bounds {m : Nat} (hm : m ≠ 0) : 2 ^ m.log2 ≤ roundNat m ∧ roundNat m ≤ 2 ^ (m.log2 + 1) := by
  rcases Nat.le_total m.log2 52 with hsmall | hlarge
  · rw [roundNat_of_log2_le hsmall]
    exact ⟨Nat.log2_self_le hm, Nat.le_of_lt Nat.lt_log2_self⟩
  · obtain ⟨hlow, hhigh⟩ := significand_bounds hlarge
    have hsplit (k : Nat) (hk : 52 ≤ k) : 2 ^ k * 2 ^ (m.log2 - 52) = 2 ^ (k + (m.log2 - 52)) := (Nat.pow_add ..).symm
    refine ⟨?_, ?_⟩
    · calc 2 ^ m.log2 = 2 ^ 52 * 2 ^ (m.log2 - 52) := by rw [hsplit 52 le_rfl, Nat.add_sub_cancel' hlarge]
        _ ≤ roundNat m := Nat.mul_le_mul_right _ hlow
    · calc roundNat m ≤ 2 ^ 53 * 2 ^ (m.log2 - 52) := Nat.mul_le_mul_right _ hhigh
        _ = 2 ^ (m.log2 + 1) := by
          rw [hsplit 53 (by decide)]
          congr 1
          omega

theorem roundNat_mono {m n : Nat} (h : m ≤ n) : roundNat m ≤ roundNat n := by
  rcases Nat.eq_zero_or_pos m with rfl | hm
  · simp [roundNat_of_log2_le]
  rcases (log2_mono h).lt_or_eq with hlt | heq
  · calc roundNat m ≤ 2 ^ (m.log2 + 1) := (roundNat_bounds (by omega)).2
      _ ≤ 2 ^ n.log2 := Nat.pow_le_pow_right (by decide) hlt
      _ ≤ roundNat n := (roundNat_bounds (by omega)).1
  · rw [roundNat, roundNat, heq]
    exact Nat.mul_le_mul_right _ (nearest_mono h _)

theorem roundNat_exact {m : Nat} (h : m ≤ 2 ^ 53) : roundNat m = m := by
  rcases h.lt_or_eq with hlt | rfl
  · refine roundNat_of_log2_le ?_
    rcases Nat.eq_zero_or_pos m with rfl | hm
    · decide
    · exact Nat.le_of_lt_succ ((Nat.log2_lt (by omega)).2 hlt)
  · decide +kernel

/-- a whole number rounded to a 64-bit real; the sign stays -/
def roundWhole (n : Int) : Int := if n < 0 then -(roundNat n.natAbs : Int) else roundNat n.natAbs

theorem roundWhole_mono {m n : Int} (h : m ≤ n) : roundWhole m ≤ roundWhole n := by
  unfold roundWhole
  split <;> split <;> rename_i hm hn
  · have := roundNat_mono (m := n.natAbs) (n := m.natAbs) (by omega)
    omega
  · omega
  · omega
  · have := roundNat_mono (m := m.natAbs) (n := n.natAbs) (by omega)
    omega

theorem roundWhole_exact {n : Int} (h : n.natAbs ≤ 2 ^ 53) : roundWhole n = n := by
  unfold roundWhole
  rw [roundNat_exact h]
  split <;> omega

/-! ## The numbers that patterns stand for -/

/-- the number that a finite datum stands for -/
def Datum.value? : Datum → Option ℚ
  | .finite negative m power => some ((if negative then -1 else 1) * (m * (2 : ℚ) ^ power))
  | _ => none

/-- counted in units of `2 ^ base`, a datum is its number divided by the unit -/
theorem units_eq (negative : Bool) (m : Nat) {power base : Int} (h : base ≤ power) :
    (Datum.units negative m power base : ℚ) =
      (if negative then -1 else 1) * (m * (2 : ℚ) ^ power) / (2 : ℚ) ^ base := by
  have hpower : (2 : ℚ) ^ (power - base).toNat = (2 : ℚ) ^ power / (2 : ℚ) ^ base := by
    rw [← zpow_sub₀ (by norm_num), ← zpow_natCast, Int.toNat_of_nonneg (Int.sub_nonneg.2 h)]
  unfold Datum.units
  cases negative <;> simp [hpower, mul_div_assoc, neg_div]

theorem Datum.le_iff {a b : Datum} {x y : ℚ} (ha : a.value? = some x) (hb : b.value? = some y) :
    a.le b = true ↔ x ≤ y := by
  cases a with
  | finite s m p =>
    cases b with
    | finite t n q =>
      cases ha
      cases hb
      have hunit : (0 : ℚ) < (2 : ℚ) ^ min p q := zpow_pos (by norm_num) _
      rw [← div_le_div_iff_of_pos_right hunit, ← units_eq s m (min_le_left p q), ← units_eq t n (min_le_right p q),
        Int.cast_le]
      exact decide_eq_true_iff
    | infinite _ | notANumber => cases hb
  | infinite _ | notANumber => cases ha

theorem leastPower_double : double.leastPower = -1074 := rfl

/-- a pattern whose exponent field is neither empty nor full -/
theorem read_double {bits exponent fraction : Nat} (hexponent : bits / 2 ^ 52 % 2 ^ 11 = exponent + 1)
    (hfraction : bits % 2 ^ 52 = fraction) (hfinite : exponent + 1 < 2047) :
    double.read bits = .finite (bits / 2 ^ 63 % 2 = 1) (2 ^ 52 + fraction) (-1074 + exponent) := by
  have hfields : bits / 2 ^ double.fractionBits % 2 ^ double.exponentBits = exponent + 1 := hexponent
  have htop : exponent + 1 ≠ double.topExponent := Nat.ne_of_lt hfinite
  unfold Layout.read
  simp only [hfields, htop, Nat.add_one_ne_zero, if_false, leastPower_double, Nat.add_sub_cancel]
  rw [← hfraction]
  rfl

/-- a significand with its leading bit is read back at its place, also if a carry made it one bit too wide -/
theorem value?_read {negative : Bool} {place significand : Nat} (hlow : 2 ^ 52 ≤ significand)
    (hhigh : significand ≤ 2 ^ 53) (hplace : place < 2045) :
    (double.read ((if negative then double.signBit else 0) + (place * 2 ^ 52 + significand))).value? =
      some ((if negative then -1 else 1) * (significand * (2 : ℚ) ^ ((place : Int) - 1074))) := by
  have hsign : double.signBit = 2 ^ 63 := rfl
  rw [hsign]
  generalize hbits : (if negative then 2 ^ 63 else 0) + (place * 2 ^ 52 + significand) = bits
  have hnegative : decide (bits / 2 ^ 63 % 2 = 1) = negative := by
    cases negative <;> simp only [Bool.false_eq_true, if_true, if_false] at hbits <;> simp <;> omega
  rcases hhigh.lt_or_eq with hlt | rfl
  · have hexponent : bits / 2 ^ 52 % 2 ^ 11 = place + 1 := by split at hbits <;> omega
    have hfraction : bits % 2 ^ 52 = significand - 2 ^ 52 := by split at hbits <;> omega
    rw [read_double hexponent hfraction (by omega), hnegative, Nat.add_sub_cancel' hlow, Datum.value?,
      neg_add_eq_sub]
  · have hexponent : bits / 2 ^ 52 % 2 ^ 11 = (place + 1) + 1 := by split at hbits <;> omega
    have hfraction : bits % 2 ^ 52 = 0 := by split at hbits <;> omega
    have hcarry : ((2 ^ 52 + 0 : Nat) : ℚ) * (2 : ℚ) ^ (-1074 + ((place + 1 : Nat) : Int)) =
        ((2 ^ 53 : Nat) : ℚ) * (2 : ℚ) ^ ((place : Int) - 1074) := by
      have hpower : (-1074 + ((place + 1 : Nat) : Int)) = ((place : Int) - 1074) + 1 := by omega
      rw [hpower, zpow_add_one₀ (by norm_num)]
      norm_num
      ring
    rw [read_double hexponent hfraction (by omega), hnegative, Datum.value?, hcarry]

/-- the significand of a whole number, shifted so that its leading bit has the weight `2 ^ 52` -/
def significandOf (m : Nat) : Nat := if m.log2 ≤ 52 then m * 2 ^ (52 - m.log2) else nearest m (m.log2 - 52)

theorem significandOf_bounds {m : Nat} (hm : m ≠ 0) : 2 ^ 52 ≤ significandOf m ∧ significandOf m ≤ 2 ^ 53 := by
  unfold significandOf
  split
  · rename_i hsmall
    have hlow := Nat.mul_le_mul_right (2 ^ (52 - m.log2)) (Nat.log2_self_le hm)
    have hhigh := Nat.mul_le_mul_right (2 ^ (52 - m.log2)) (Nat.le_of_lt (Nat.lt_log2_self (n := m)))
    rw [← Nat.pow_add, Nat.add_sub_cancel' hsmall] at hlow
    rw [← Nat.pow_add, show m.log2 + 1 + (52 - m.log2) = 53 by omega] at hhigh
    exact ⟨hlow, hhigh⟩
  · exact significand_bounds (by omega)

theorem value_significandOf (m : Nat) :
    (significandOf m : ℚ) * (2 : ℚ) ^ ((m.log2 : Int) - 52) = roundNat m := by
  unfold significandOf
  split
  · rename_i hsmall
    have hshift : (m.log2 : Int) - 52 = -((52 - m.log2 : Nat) : Int) := by omega
    have hone : ((2 ^ (52 - m.log2) : Nat) : ℚ) * (2 : ℚ) ^ (-((52 - m.log2 : Nat) : Int)) = 1 := by
      rw [zpow_neg, zpow_natCast, Nat.cast_pow]
      exact mul_inv_cancel₀ (by positivity)
    rw [roundNat_of_log2_le hsmall, hshift, Nat.cast_mul, mul_assoc, hone, mul_one]
  · rename_i hlarge
    have hshift : (m.log2 : Int) - 52 = ((m.log2 - 52 : Nat) : Int) := by omega
    have hpower : ((2 ^ (m.log2 - 52) : Nat) : ℚ) = (2 : ℚ) ^ (m.log2 - 52) := Nat.cast_pow ..
    have hround : roundNat m = nearest m (m.log2 - 52) * 2 ^ (m.log2 - 52) := rfl
    rw [hshift, zpow_natCast, hround, Nat.cast_mul, hpower]

/-- the pattern of a whole number, before the sign -/
theorem magnitude_double {m : Nat} (hm : m ≠ 0) (hsize : m.log2 < 1023) :
    double.magnitude m 0 = (m.log2 + 1022) * 2 ^ 52 + significandOf m := by
  have hfraction : double.fractionBits = 52 := rfl
  have hinfinity : double.infinity = 2047 * 2 ^ 52 := rfl
  have hplace : max (0 + (m.log2 : Int) - (52 : Nat)) (-1074) = (m.log2 : Int) - 52 := by omega
  have hexponent : ((m.log2 : Int) - 52 - -1074).toNat = m.log2 + 1022 := by omega
  have hsignificand : (if (m.log2 : Int) - 52 ≤ 0 then m * 2 ^ (0 - ((m.log2 : Int) - 52)).toNat
      else nearest m ((m.log2 : Int) - 52 - 0).toNat) = significandOf m := by
    unfold significandOf
    by_cases hsmall : m.log2 ≤ 52
    · rw [if_pos hsmall, if_pos (by omega), show (0 - ((m.log2 : Int) - 52)).toNat = 52 - m.log2 by omega]
    · rw [if_neg hsmall, if_neg (by omega), show ((m.log2 : Int) - 52 - 0).toNat = m.log2 - 52 by omega]
  obtain ⟨-, hhigh⟩ := significandOf_bounds hm
  unfold Layout.magnitude
  simp only [if_neg hm, leastPower_double, hfraction, hinfinity, hplace, hexponent, hsignificand]
  omega

/-- **A whole number as a 64-bit real.** The pattern that is written for it is read back as the number rounded. -/
theorem value?_read_write {n : Int} (h : n.natAbs.log2 < 1023) :
    (double.read (double.write (.ofInt n))).value? = some (roundWhole n : ℚ) := by
  have hwrite : double.write (.ofInt n) =
      (if decide (n < 0) = true then double.signBit else 0) + double.magnitude n.natAbs 0 := rfl
  by_cases hzero : n = 0
  · subst hzero
    decide +kernel
  · have hne : n.natAbs ≠ 0 := by omega
    obtain ⟨hlow, hhigh⟩ := significandOf_bounds hne
    have hpower : (((n.natAbs.log2 + 1022 : Nat) : Int) - 1074) = (n.natAbs.log2 : Int) - 52 := by omega
    rw [hwrite, magnitude_double hne h, value?_read hlow hhigh (by omega), hpower, value_significandOf, roundWhole]
    split <;> simp_all

/-- what is too large is infinite -/
theorem Layout.magnitude_le (f : Layout) (m : Nat) (power : Int) : f.magnitude m power ≤ f.infinity := by
  unfold magnitude
  split
  · exact Nat.zero_le _
  · exact Nat.min_le_left _ _

/-- every pattern that is written fits into 64 bits -/
theorem write_double_lt (d : Datum) : double.write d < 2 ^ 64 := by
  have hinfinity : double.infinity = 2047 * 2 ^ 52 := rfl
  have hsign : double.signBit = 2 ^ 63 := rfl
  cases d with
  | finite negative m power =>
    have hmagnitude := double.magnitude_le m power
    simp only [Layout.write, hsign]
    split <;> omega
  | infinite negative =>
    simp only [Layout.write, hsign, hinfinity]
    split <;> omega
  | notANumber =>
    have hfraction : double.fractionBits = 52 := rfl
    simp only [Layout.write, hinfinity, hfraction]
    omega

end SdoClient.Floating
