import Conformance.Value.Equality
import Mathlib.Algebra.Order.Field.Rat
import Mathlib.Tactic.Positivity
import Mathlib.Tactic.Ring

namespace Conformance

/-- What a number may stand for on one axis. -/
inductive Exact
  | finite (q : ℚ)
  | infinite (negative : Bool)

namespace Exact

def signed (negative : Bool) (magnitude : ℕ) : ℤ := if negative then -magnitude else magnitude

@[simp] theorem signed_eq_zero_iff {s : Bool} {a : ℕ} : signed s a = 0 ↔ a = 0 := by
  cases s <;> simp [signed]

theorem signed_mul (s : Bool) (a b : ℕ) : signed s (a * b) = signed s a * b := by
  cases s <;> simp [signed]

theorem signed_eq_iff {s s' : Bool} {a b : ℕ} :
    signed s a = signed s' b ↔ a = b ∧ (a = 0 ∨ s = s') := by
  cases s <;> cases s' <;> simp [signed] <;> omega

@[simp] theorem signed_natAbs (n : ℤ) : signed (n < 0) n.natAbs = n := by
  by_cases hn : n < 0
  · simp only [signed, hn, decide_true, if_true]
    omega
  · simp only [signed, hn, decide_false, Bool.false_eq_true, if_false]
    omega

end Exact

namespace Binary64

open Exact

def value? : Binary64 → Option Exact
  | .finite s m q => some (.finite (signed s m * 2 ^ q))
  | .infinite s => some (.infinite s)
  | .undefined => none

theorem two_zpow_ne_zero (q : ℤ) : (2 : ℚ) ^ q ≠ 0 := zpow_ne_zero q two_ne_zero

theorem isZero_iff {x : Binary64} : x.isZero = true ↔ x.value? = some (.finite 0) := by
  cases x with
  | finite s m q => simp [isZero, value?, two_zpow_ne_zero]
  | infinite s => simp [isZero, value?]
  | undefined => simp [isZero, value?]

theorem signed_mul_zpow {s : Bool} {m : ℕ} {least q : ℤ} (h : least ≤ q) :
    (signed s m : ℚ) * 2 ^ q = signed s (m * 2 ^ (q - least).toNat) * 2 ^ least := by
  have hq : q = (q - least).toNat + least := by omega
  have hpow : (2 : ℚ) ^ q = 2 ^ (q - least).toNat * 2 ^ least := by
    conv_lhs => rw [hq, zpow_add₀ two_ne_zero, zpow_natCast]
  rw [hpow, signed_mul]
  push_cast
  ring

theorem eq_iff {x y : Binary64} : x.eq y = true ↔ ∃ e, x.value? = some e ∧ y.value? = some e := by
  match x, y with
  | .finite s m q, .finite s' m' q' =>
    have hexact : (∃ e, value? (.finite s m q) = some e ∧ value? (.finite s' m' q') = some e) ↔
        (signed s m : ℚ) * 2 ^ q = signed s' m' * 2 ^ q' := by
      simp only [value?, Option.some.injEq, exists_eq_left', Exact.finite.injEq]
      exact eq_comm
    rw [hexact, signed_mul_zpow (min_le_left q q'), signed_mul_zpow (min_le_right q q'),
      mul_left_inj' (two_zpow_ne_zero _), Int.cast_inj, signed_eq_iff]
    simp [eq]
  | .infinite s, .infinite s' =>
    simp only [eq, beq_iff_eq, value?, Option.some.injEq, exists_eq_left', Exact.infinite.injEq]
    exact eq_comm
  | .finite .., .infinite _ | .finite .., .undefined | .infinite _, .finite ..
  | .infinite _, .undefined | .undefined, _ => simp [eq, value?]

theorem eqInt_iff {x : Binary64} {n : ℤ} : x.eqInt n = true ↔ x.value? = some (.finite n) := by
  match x with
  | .finite s m q =>
    have hexact : value? (.finite s m q) = some (.finite n) ↔
        (signed s m : ℚ) * 2 ^ q = signed (n < 0) n.natAbs * 2 ^ (0 : ℤ) := by
      simp [value?]
    rw [hexact]
    by_cases hq : 0 ≤ q
    · rw [signed_mul_zpow hq, mul_left_inj' (two_zpow_ne_zero _), Int.cast_inj, signed_eq_iff]
      simp [eqInt, hq]
    · rw [signed_mul_zpow (le_of_not_ge hq), mul_left_inj' (two_zpow_ne_zero _), Int.cast_inj,
        signed_eq_iff]
      simp [eqInt, hq]
  | .infinite s | .undefined => simp [eqInt, value?]

end Binary64

namespace Number

def value? : Number → Option (Exact × Exact)
  | .int n => some (.finite n, .finite 0)
  | .float x => x.value?.map (·, .finite 0)
  | .complex re im => do return (← re.value?, ← im.value?)

section Axes

variable {a b : Exact}

@[simp] theorem value?_int_iff {n : ℤ} :
    value? (.int n) = some (a, b) ↔ .finite n = a ∧ .finite 0 = b := by
  simp [value?]

@[simp] theorem value?_float_iff {x : Binary64} :
    value? (.float x) = some (a, b) ↔ x.value? = some a ∧ .finite 0 = b := by
  simp [value?]

@[simp] theorem value?_complex_iff {re im : Binary64} :
    value? (.complex re im) = some (a, b) ↔ re.value? = some a ∧ im.value? = some b := by
  rw [value?]
  cases re.value? <;> cases im.value? <;> simp

end Axes

/-- Two numbers are equal if and only if they stand for the same value. -/
theorem eq_iff {m n : Number} : m.eq n = true ↔ ∃ e, m.value? = some e ∧ n.value? = some e := by
  rw [Prod.exists]
  cases m <;> cases n <;>
    simp only [eq, Binary64.eq_iff, Binary64.eqInt_iff, Binary64.isZero_iff, value?_int_iff,
      value?_float_iff, value?_complex_iff, Bool.and_eq_true, beq_iff_eq]
  all_goals aesop

end Number

end Conformance
