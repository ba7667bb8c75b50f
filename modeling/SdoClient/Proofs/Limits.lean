/-
Limits on integers. A value and a limit are compared as 64-bit reals, each rounded on its own. Rounding keeps the order,
so a value within the limits is never refused. But a value beyond a limit passes if both are rounded to the same real,
which needs both to reach `2 ^ 53`.

Main statements:
- `integer_limits`: an integer passes exactly if it is within the limits or rounds to one of them, and below `2 ^ 53`
  exactly if it is within the limits;
- `limit_overrun`: a write beyond a large limit is accepted.
-/
import Mathlib.Tactic
import SdoClient.Proofs.Admission
import SdoClient.Proofs.Rounding

namespace SdoClient

open Floating

open scoped Power

/-! ## Integers as reals -/

namespace Floating

/-- no other whole number is rounded to one below `2 ^ 53` -/
theorem roundWhole_inj {m n : Int} (hm : m.natAbs < 2 ^ 53) (h : roundWhole m = roundWhole n) : m = n := by
  by_cases hn : n.natAbs ≤ 2 ^ 53
  · rwa [roundWhole_exact hm.le, roundWhole_exact hn] at h
  · rw [roundWhole_exact hm.le] at h
    rcases le_total n 0 with hneg | hpos
    · have hle := roundWhole_mono (m := n) (n := -2 ^ 53) (by omega)
      rw [roundWhole_exact (n := -2 ^ 53) (by decide)] at hle
      omega
    · have hle := roundWhole_mono (m := 2 ^ 53) (n := n) (by omega)
      rw [roundWhole_exact (n := 2 ^ 53) (by decide)] at hle
      omega

/-- rounding can only make a number equal to a smaller one -/
theorem roundWhole_le_iff {m n : Int} : roundWhole m ≤ roundWhole n ↔ m ≤ n ∨ roundWhole m = roundWhole n := by
  constructor
  · intro h
    rcases le_or_gt m n with hle | hlt
    · exact .inl hle
    · exact .inr (le_antisymm h (roundWhole_mono hlt.le))
  · rintro (h | h)
    · exact roundWhole_mono h
    · exact h.le

end Floating

namespace Value

variable {v : Value} {n : Int}

theorem natAbs_integer? (h : v.integer? = some n) : n.natAbs < 2 ^ 64 := by
  cases v with
  | i8 k | i16 k | i32 k | i64 k =>
    cases h
    have hlow := k.le_toInt
    have hhigh := k.toInt_lt
    omega
  | u8 k | u16 k | u32 k | u64 k =>
    cases h
    have hhigh := k.toNat_lt
    omega
  | _ => cases h

theorem real64?_of_integer? (h : v.integer? = some n) :
    v.real64? = some (UInt64.ofNat (double.write (.ofInt n))) := by
  cases v <;> cases h <;> rfl

/-- the real that an integer is compared as -/
theorem value?_of_integer? (h : v.integer? = some n) {bits : UInt64} (hbits : v.real64? = some bits) :
    (double.read bits.toNat).value? = some (roundWhole n : ℚ) := by
  have hlog : n.natAbs.log2 < 1023 := by
    rcases Nat.eq_zero_or_pos n.natAbs with hzero | hpos
    · simp [hzero]
    · have := (Nat.log2_lt hpos.ne').2 (natAbs_integer? h)
      omega
  rw [real64?_of_integer? h] at hbits
  cases hbits
  rw [UInt64.toNat_ofNat_of_lt' (write_double_lt _)]
  exact value?_read_write hlog

end Value

/-! ## Limits -/

namespace Entry

variable {x : Entry} {v : Value} {n : Int} {low high : Option Int}

/-- two integers are in order if their roundings are -/
theorem ordered_integers {a b : Value} {m n : Int} (ha : a.integer? = some m) (hb : b.integer? = some n) :
    ordered (some a) (some b) = true ↔ m ≤ n ∨ roundWhole m = roundWhole n := by
  have hreal := Value.real64?_of_integer? ha
  have hreal' := Value.real64?_of_integer? hb
  have hx := Value.value?_of_integer? ha hreal
  have hy := Value.value?_of_integer? hb hreal'
  simp only [ordered, Option.bind_some, hreal, hreal']
  rw [Datum.le_iff hx hy, Int.cast_le, roundWhole_le_iff]

/-- the limits of an entry are these integers, as far as it has limits -/
structure IntegerLimits (x : Entry) (low high : Option Int) : Prop where
  low : Option.Rel (fun v m => v.integer? = some m) x.low low
  high : Option.Rel (fun v m => v.integer? = some m) x.high high

/-- an integer lies within limits, as far as there are limits -/
def Within (low high : Option Int) (n : Int) : Prop := (∀ l ∈ low, l ≤ n) ∧ ∀ u ∈ high, n ≤ u

theorem ordered_low {limit : Option Value} (hlow : Option.Rel (fun v m => v.integer? = some m) limit low)
    (hv : v.integer? = some n) :
    ordered limit (some v) = true ↔ ∀ l ∈ low, l ≤ n ∨ roundWhole l = roundWhole n := by
  cases hlow with
  | none => simp [ordered]
  | some hl => simpa using ordered_integers hl hv

theorem ordered_high {limit : Option Value} (hhigh : Option.Rel (fun v m => v.integer? = some m) limit high)
    (hv : v.integer? = some n) :
    ordered (some v) limit = true ↔ ∀ u ∈ high, n ≤ u ∨ roundWhole n = roundWhole u := by
  cases hhigh with
  | none => simp [ordered]
  | some hu => simpa using ordered_integers hv hu

/-- where rounding joins no two numbers, the limits are exact -/
theorem within_of_small (hsmall : n.natAbs < 2 ^ 53 ∨ ∀ b, b ∈ low ∨ b ∈ high → b.natAbs < 2 ^ 53) :
    ((∀ l ∈ low, l ≤ n ∨ roundWhole l = roundWhole n) ∧ ∀ u ∈ high, n ≤ u ∨ roundWhole n = roundWhole u) ↔
      Within low high n := by
  have hjoined {b : Int} (hb : b ∈ low ∨ b ∈ high) (h : roundWhole b = roundWhole n) : b = n := by
    rcases hsmall with hn | hlimits
    · exact (roundWhole_inj hn h.symm).symm
    · exact roundWhole_inj (hlimits b hb) h
  refine ⟨fun ⟨hlow, hhigh⟩ => ⟨fun l hl => ?_, fun u hu => ?_⟩, fun ⟨hlow, hhigh⟩ => ⟨fun l hl => ?_, fun u hu => ?_⟩⟩
  · rcases hlow l hl with h | h
    · exact h
    · exact (hjoined (.inl hl) h).le
  · rcases hhigh u hu with h | h
    · exact h
    · exact (hjoined (.inr hu) h.symm).ge
  · exact .inl (hlow l hl)
  · exact .inl (hhigh u hu)

end Entry

/-- a write is refused for its limits exactly if it is for an entry whose limits it does not keep -/
theorem Engine.download_outOfLimits {e : Engine} {clock : Time} {d : Dictionary} {id : ObjectId} {v : Value} {x : Entry}
    (h : e.Addresses d id x) :
    e.download clock d id v = .error (.outOfLimits id.mux) ↔ x.withinLimits v = false := by
  rw [Engine.download_error_iff]
  constructor
  · intro hcause
    cases hcause with
    | unaddressed hcause => cases hcause
    | outOfLimits h' outside => rwa [h.unique h']
  · exact fun houtside => .outOfLimits h houtside

namespace Entry

/-- **Limits on integers.** An entry has integer limits, or none on a side, and the value is an integer of any width.
The value passes exactly if on each side it is within the limit or rounds to the same real as the limit; so no value
within the limits is refused. If the value or all limits are below `2 ^ 53`, it passes exactly if it is within the
limits. A write is refused for its limits exactly if the value does not pass. -/
theorem integer_limits (x : Entry) (low high : Option Int) (hlimits : x.IntegerLimits low high) (v : Value) (n : Int)
    (hv : v.integer? = some n) :
    (x.withinLimits v = true ↔
        (∀ l ∈ low, l ≤ n ∨ roundWhole l = roundWhole n) ∧ ∀ u ∈ high, n ≤ u ∨ roundWhole n = roundWhole u) ∧
      ((n.natAbs < 2 ^ 53 ∨ ∀ b, b ∈ low ∨ b ∈ high → b.natAbs < 2 ^ 53) →
        (x.withinLimits v = true ↔ Within low high n)) ∧
      ∀ (e : Engine) (clock : Time) (d : Dictionary) (id : ObjectId), e.Addresses d id x →
        (e.download clock d id v = .error (.outOfLimits id.mux) ↔ x.withinLimits v = false) := by
  have hrounded : x.withinLimits v = true ↔
      (∀ l ∈ low, l ≤ n ∨ roundWhole l = roundWhole n) ∧ ∀ u ∈ high, n ≤ u ∨ roundWhole n = roundWhole u := by
    rw [withinLimits, Bool.and_eq_true, ordered_low hlimits.low hv, ordered_high hlimits.high hv]
  exact ⟨hrounded, fun hsmall => hrounded.trans (within_of_small hsmall),
    fun _ _ _ _ => Engine.download_outOfLimits⟩

/-- a counter of 64 bits, at least -5 and at most `2 ^ 53` -/
def counter : Entry :=
  { subIndex := 1, name := "counter", type := .unsigned .w64, access := {}
    low := some (.i8 (-5)), high := some (.u64 0x20000000000000) }

/-- a dictionary of node 5 with the counter alone -/
def counters : Dictionary :=
  (({ bus := 0, node := 5 } : Dictionary).insert { index := 0x2002, name := "counters" }).addEntry 0x2002 counter

/-- the id of the counter -/
def counterId : ObjectId := ⟨0, 5, ⟨0x2002, 1⟩, .unsigned .w64⟩

theorem counter_limits : counter.IntegerLimits (some (-5)) (some (2 ^ 53)) := ⟨.some rfl, .some rfl⟩

/-- two more than the limit is refused, and so is one less than a small limit -/
theorem integer_limits_counter :
    counter.IntegerLimits (some (-5)) (some (2 ^ 53)) ∧
      (Value.u64 0x20000000000002).integer? = some (2 ^ 53 + 2) ∧
      counter.withinLimits (.u64 0x20000000000002) = false ∧
      Engine.download { node := 5 } 0 counters counterId (.u64 0x20000000000002) =
        .error (.outOfLimits counterId.mux) ∧
      (Value.i16 (-6)).integer? = some (-6) ∧ (-6 : Int).natAbs < 2 ^ 53 ∧
      counter.withinLimits (.i16 (-6)) = false := by
  obtain ⟨hlarge, -, hdownload⟩ :=
    integer_limits counter (some (-5)) (some (2 ^ 53)) counter_limits (.u64 0x20000000000002) (2 ^ 53 + 2) rfl
  obtain ⟨-, hsmall, -⟩ :=
    integer_limits counter (some (-5)) (some (2 ^ 53)) counter_limits (.i16 (-6)) (-6) (by decide)
  have hrefused : counter.withinLimits (.u64 0x20000000000002) = false := by
    rw [Bool.eq_false_iff, Ne, hlarge]
    rintro ⟨-, hhigh⟩
    exact absurd (hhigh (2 ^ 53) rfl) (by decide +kernel)
  have hbelow : counter.withinLimits (.i16 (-6)) = false := by
    rw [Bool.eq_false_iff, Ne, hsmall (.inl (by decide))]
    rintro ⟨hlow, -⟩
    exact absurd (hlow (-5) rfl) (by decide)
  have haddresses : Engine.Addresses { node := 5 } counters counterId counter := ⟨by decide, by decide +kernel⟩
  exact ⟨counter_limits, rfl, hrefused, (hdownload _ _ _ _ haddresses).2 hrefused, by decide, by decide, hbelow⟩

/-- one more than the limit is taken -/
theorem limit_overrun :
    ¬∀ (x : Entry) (low high : Option Int) (v : Value) (n : Int), x.IntegerLimits low high → v.integer? = some n →
      (x.withinLimits v = true ↔ Within low high n) ∧
        ∀ (e : Engine) (clock : Time) (d : Dictionary) (id : ObjectId), e.Addresses d id x →
          (e.download clock d id v = .error (.outOfLimits id.mux) ↔ ¬Within low high n) := by
  intro hclaimed
  obtain ⟨hexact, -⟩ :=
    hclaimed counter (some (-5)) (some (2 ^ 53)) (.u64 0x20000000000001) (2 ^ 53 + 1) counter_limits rfl
  have hpasses : counter.withinLimits (.u64 0x20000000000001) = true := by decide +kernel
  have hwithin := (hexact.1 hpasses).2 (2 ^ 53) rfl
  exact absurd hwithin (by decide)

end Entry

end SdoClient
