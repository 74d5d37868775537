import CircuitNetwork.Combinator.Operator
import Mathlib.Data.Int.ModEq
import Mathlib.Logic.Function.Iterate
import Mathlib.Tactic.Ring

namespace CircuitNetwork.Power

/-!
# Powers with wrap-around

A power is computed by squaring, and both the total and the base wrap around. The
product that a round leaves to compute is the same up to multiples of 2 ^ 32, and
the exponent has one binary digit less, so the total in the end is the power of
the integers, reduced to a count.
-/

/-- What the total will be multiplied to, without wrap-around. -/
def product (power : Power) : Int :=
  power.total.toInt * power.base.toInt ^ power.exponent.toInt.toNat

/-! ## One round -/

theorem toInt_mul_modEq
    (a b : Int32) :
    (a * b).toInt ≡ a.toInt * b.toInt [ZMOD 2 ^ 32] := by
  rw [Int32.toInt_mul]
  exact Int.bmod_emod

/-- The last binary digit of an exponent is its remainder. -/
theorem and_one_ne_zero_iff
    (exponent : Int32) :
    exponent &&& 1 ≠ 0 ↔ exponent.toInt % 2 = 1 := by
  have parity : exponent.toInt % 2 = exponent.toBitVec.toNat % 2 := by
    have wrapped : exponent.toInt = (exponent.toBitVec.toNat : Int).bmod (2 ^ 32) :=
      BitVec.toInt_eq_toNat_bmod _
    have reduced : exponent.toInt % (2 ^ 32 : Nat) = exponent.toBitVec.toNat % (2 ^ 32 : Nat) := by
      rw [wrapped, Int.bmod_emod]
    omega
  have digit : (exponent &&& 1).toBitVec.toNat = exponent.toBitVec.toNat % 2 := by
    rw [Int32.toBitVec_and, BitVec.toNat_and]
    exact Nat.and_one_is_mod _
  have zero : exponent &&& 1 = 0 ↔ (exponent &&& 1).toBitVec.toNat = 0 := by
    rw [← Int32.toBitVec_inj, ← BitVec.toNat_inj]
    rfl
  rw [ne_eq, zero, digit, parity]
  omega

theorem total_round_modEq
    (power : Power) :
    power.round.total.toInt ≡
      power.total.toInt * power.base.toInt ^ (power.exponent.toInt % 2).toNat [ZMOD 2 ^ 32] := by
  by_cases odd : power.exponent &&& 1 ≠ 0
  · rw [round, if_pos odd, (and_one_ne_zero_iff _).mp odd]
    simpa using toInt_mul_modEq power.total power.base
  · have even : power.exponent.toInt % 2 = 0 := by
      rw [and_one_ne_zero_iff] at odd
      omega
    rw [round, if_neg odd, even]
    simp

/-- A round keeps the product modulo 2 ^ 32. -/
theorem product_round_modEq
    (power : Power)
    (nonnegative : 0 ≤ power.exponent.toInt) :
    power.round.product ≡ power.product [ZMOD 2 ^ 32] := by
  have squared : power.round.base.toInt ≡ power.base.toInt ^ 2 [ZMOD 2 ^ 32] := by
    rw [pow_two]
    exact toInt_mul_modEq power.base power.base
  have exponents : power.exponent.toInt.toNat =
      (power.exponent.toInt % 2).toNat + 2 * (power.exponent.toInt / 2).toNat := by
    omega
  calc power.round.product
      = power.round.total.toInt * power.round.base.toInt ^ (power.exponent.toInt / 2).toNat := by
        rw [product, toInt_exponent_round]
    _ ≡ power.total.toInt * power.base.toInt ^ (power.exponent.toInt % 2).toNat *
          (power.base.toInt ^ 2) ^ (power.exponent.toInt / 2).toNat [ZMOD 2 ^ 32] :=
        power.total_round_modEq.mul (squared.pow _)
    _ = power.product := by
        rw [product, exponents, pow_add, pow_mul, mul_assoc]

/-! ## All rounds -/

theorem finish_of_positive
    {power : Power}
    (positive : 0 < power.exponent) :
    power.finish = power.round.finish := by
  rw [finish, if_pos positive]

theorem finish_of_not_positive
    {power : Power}
    (ended : ¬0 < power.exponent) :
    power.finish = power := by
  rw [finish, if_neg ended]

theorem toInt_total_finish_modEq
    (power : Power)
    (nonnegative : 0 ≤ power.exponent.toInt) :
    power.finish.total.toInt ≡ power.product [ZMOD 2 ^ 32] := by
  induction power using finish.induct with
  | case1 power positive inductionHypothesis =>
      have roundNonnegative : 0 ≤ power.round.exponent.toInt := by
        rw [toInt_exponent_round]
        omega
      rw [finish_of_positive positive]
      exact (inductionHypothesis roundNonnegative).trans (power.product_round_modEq nonnegative)
  | case2 power ended =>
      have zero : power.exponent.toInt = 0 := by
        have : ¬0 < power.exponent.toInt := fun positive =>
          ended (Int32.lt_iff_toInt_lt.mpr positive)
        omega
      rw [finish_of_not_positive ended, product, zero]
      simp

/-- A number of rounds is made exactly if the exponent is positive before each of them and not
afterwards. -/
structure Finishes (power : Power) (rounds : Nat) : Prop where
  positive : ∀ earlier < rounds, 0 < (round^[earlier] power).exponent
  ended : ¬0 < (round^[rounds] power).exponent
  finish_eq : power.finish = round^[rounds] power

theorem finishes_zero
    {power : Power}
    (ended : ¬0 < power.exponent) :
    power.Finishes 0 where
  positive := fun earlier before => absurd before (Nat.not_lt_zero earlier)
  ended := ended
  finish_eq := finish_of_not_positive ended

theorem Finishes.succ
    {power : Power}
    {rounds : Nat}
    (positive : 0 < power.exponent)
    (finishes : power.round.Finishes rounds) :
    power.Finishes (rounds + 1) where
  positive := by
    intro earlier before
    cases earlier with
    | zero =>
        exact positive
    | succ earlier =>
        exact finishes.positive earlier (Nat.lt_of_succ_lt_succ before)
  ended := finishes.ended
  finish_eq := (finish_of_positive positive).trans finishes.finish_eq

/-- An exponent of some binary digits takes at most one round for each of them. -/
theorem exists_finishes
    (digits : Nat)
    (power : Power)
    (bounded : power.exponent.toInt < 2 ^ digits) :
    ∃ rounds ≤ digits, power.Finishes rounds := by
  induction digits generalizing power with
  | zero =>
      refine ⟨0, Nat.le_refl 0, finishes_zero ?_⟩
      intro positive
      have := Int32.lt_iff_toInt_lt.mp positive
      rw [Int32.toInt_zero] at this
      omega
  | succ digits inductionHypothesis =>
      by_cases positive : 0 < power.exponent
      · have halved : power.round.exponent.toInt < 2 ^ digits := by
          rw [toInt_exponent_round]
          omega
        obtain ⟨rounds, few, finishes⟩ := inductionHypothesis power.round halved
        exact ⟨rounds + 1, Nat.succ_le_succ few, finishes.succ positive⟩
      · exact ⟨0, Nat.zero_le _, finishes_zero positive⟩

/-- A negative exponent gives zero, and any other one the power of the integers, reduced to 32 bits,
after at most 31 rounds. -/
theorem apply_pow_exact
    (a b : Int32) :
    Operator.pow.apply a b = (if b < 0 then 0 else Int32.ofInt (a.toInt ^ b.toInt.toNat)) ∧
      ∃ rounds ≤ 31, Finishes ⟨1, a, b⟩ rounds := by
  refine ⟨?_, exists_finishes 31 ⟨1, a, b⟩ b.toInt_lt⟩
  by_cases negative : b < 0
  · rw [if_pos negative, Operator.apply, if_pos negative]
  · have nonnegative : 0 ≤ b.toInt := by
      have : ¬b.toInt < 0 := fun below => negative (Int32.lt_iff_toInt_lt.mpr below)
      omega
    have congruent := toInt_total_finish_modEq ⟨1, a, b⟩ nonnegative
    rw [product, Int32.toInt_one, one_mul] at congruent
    rw [if_neg negative, Operator.apply, if_neg negative, eq_comm,
      Int32.ofInt_eq_iff_bmod_eq_toInt]
    calc (a.toInt ^ b.toInt.toNat).bmod (2 ^ 32)
        = (a.toInt ^ b.toInt.toNat % (2 ^ 32 : Nat)).bmod (2 ^ 32) := (Int.emod_bmod ..).symm
      _ = ((finish ⟨1, a, b⟩).total.toInt % (2 ^ 32 : Nat)).bmod (2 ^ 32) :=
          congrArg (·.bmod (2 ^ 32)) congruent.symm
      _ = (finish ⟨1, a, b⟩).total.toInt.bmod (2 ^ 32) := Int.emod_bmod ..
      _ = (finish ⟨1, a, b⟩).total.toInt := Int32.toInt_bmod _

end CircuitNetwork.Power
