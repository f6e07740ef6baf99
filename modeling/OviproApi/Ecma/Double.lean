import Mathlib.Data.Int.Log
import Mathlib.Data.Rat.Floor
import Mathlib.Algebra.Order.Field.Power
import Mathlib.Tactic.FieldSimp
import Mathlib.Tactic.Positivity
import Mathlib.Tactic.Ring
import OviproApi.Ecma.Number

/-! Doubles as the finite numbers. Rounding a quotient depends on its value
only, and the decimal that is printed for a double rounds to it again. -/

namespace Ecma.Number

/-- A positive finite double, `mantissa * 2 ^ exponent`. -/
structure Double where
  mantissa : Nat
  exponent : Int
  positive : 0 < mantissa
  bounded : mantissa < 2 ^ 53
  canonical : 2 ^ 52 ≤ mantissa ∨ exponent = -1074
  lower : -1074 ≤ exponent
  upper : exponent ≤ 971

def Double.number (negative : Bool) (x : Double) : Number :=
  let (digits, exponent) := shortest x.mantissa x.exponent
  normalize 400 (if negative then -digits else digits) exponent

/-- Zero, or a double with its sign. -/
def IsFinite (x : Number) : Prop := x = zero ∨ ∃ negative, ∃ y : Double, x = y.number negative

def leadingExponent (numerator denominator : Nat) : Int :=
  let guess : Int := (numerator.log2 : Int) - denominator.log2 - 53
  if (scaled numerator denominator guess).1 < 2 ^ 53 then guess else guess + 1

def rounded (exponent : Int) (quotient remainder denominator : Nat) : Option (Nat × Int) :=
  let mantissa :=
    if 2 * remainder < denominator ∨ (2 * remainder = denominator ∧ quotient % 2 = 0) then quotient
    else quotient + 1
  let (mantissa, exponent) := if mantissa = 2 ^ 53 then (2 ^ 52, exponent + 1) else (mantissa, exponent)
  if exponent ≤ 971 then some (mantissa, exponent) else none

theorem toDouble_eq (numerator denominator : Nat) :
    toDouble numerator denominator =
      let exponent := max (-1074) (leadingExponent numerator denominator)
      let (quotient, remainder, denominator) := scaled numerator denominator exponent
      rounded exponent quotient remainder denominator := rfl

theorem pow_toNat {b : ℚ} (hb : b ≠ 0) (e : Int) : b ^ e.toNat = b ^ e * b ^ (-e).toNat := by
  rcases le_total 0 e with h | h
  · lift e to ℕ using h
    simp
  · obtain ⟨n, hn⟩ := Int.eq_ofNat_of_zero_le (neg_nonneg.mpr h)
    have he : e = -n := by omega
    subst he
    simp [hb]

theorem scaled_lt_iff {numerator denominator : Nat} (h : 0 < denominator) (e : Int) (k : Nat) :
    (scaled numerator denominator e).1 < k ↔ (numerator / denominator : ℚ) < k * 2 ^ e := by
  have hd : (0 : ℚ) < denominator := by exact_mod_cast h
  have hpow : (0 : ℚ) < 2 ^ (-e).toNat := by positivity
  have hpos : 0 < denominator * 2 ^ e.toNat := by positivity
  have hcast : ((k * (denominator * 2 ^ e.toNat) : ℕ) : ℚ) =
      k * 2 ^ e * denominator * 2 ^ (-e).toNat := by
    push_cast
    rw [pow_toNat two_ne_zero]
    ring
  unfold scaled
  rw [Nat.div_lt_iff_lt_mul hpos, ← @Nat.cast_lt ℚ, hcast, Nat.cast_mul, Nat.cast_pow,
    Nat.cast_two, mul_lt_mul_iff_left₀ hpow, div_lt_iff₀ hd]

theorem log_eq_of_bounds {q : ℚ} {k : Int} (hle : 2 ^ k ≤ q) (hlt : q < 2 ^ (k + 1)) :
    Int.log 2 q = k := by
  have hq : 0 < q := lt_of_lt_of_le (by positivity) hle
  have hlower := (Int.zpow_le_iff_le_log Nat.one_lt_two hq).mp (by exact_mod_cast hle)
  have hupper := (Int.lt_zpow_iff_log_lt Nat.one_lt_two hq).mp (by exact_mod_cast hlt)
  omega

theorem natCast_log2_bounds {n : Nat} (h : 0 < n) :
    (2 : ℚ) ^ (n.log2 : Int) ≤ n ∧ (n : ℚ) < 2 ^ ((n.log2 : Int) + 1) := by
  have hlower := Nat.log2_self_le h.ne'
  have hupper := @Nat.lt_log2_self n
  constructor
  · exact_mod_cast hlower
  · exact_mod_cast hupper

/-- The quotient of two numbers has as many binary digits as the difference of
theirs, or one more. -/
theorem quotient_bounds {numerator denominator : Nat} (hn : 0 < numerator)
    (hd : 0 < denominator) :
    (2 : ℚ) ^ ((numerator.log2 : Int) - denominator.log2 - 1) ≤ numerator / denominator ∧
      (numerator / denominator : ℚ) < 2 ^ ((numerator.log2 : Int) - denominator.log2 + 1) := by
  obtain ⟨hnlower, hnupper⟩ := natCast_log2_bounds hn
  obtain ⟨hdlower, hdupper⟩ := natCast_log2_bounds hd
  have hpos : (0 : ℚ) < denominator := by exact_mod_cast hd
  constructor
  · rw [le_div_iff₀ hpos]
    calc (2 : ℚ) ^ ((numerator.log2 : Int) - denominator.log2 - 1) * denominator
        ≤ 2 ^ ((numerator.log2 : Int) - denominator.log2 - 1) * 2 ^ ((denominator.log2 : Int) + 1) :=
          mul_le_mul_of_nonneg_left hdupper.le (by positivity)
      _ = 2 ^ (numerator.log2 : Int) := by
          rw [← zpow_add₀ two_ne_zero]
          congr 1
          ring
      _ ≤ numerator := hnlower
  · rw [div_lt_iff₀ hpos]
    calc (numerator : ℚ) < 2 ^ ((numerator.log2 : Int) + 1) := hnupper
      _ = 2 ^ ((numerator.log2 : Int) - denominator.log2 + 1) * 2 ^ (denominator.log2 : Int) := by
          rw [← zpow_add₀ two_ne_zero]
          congr 1
          ring
      _ ≤ 2 ^ ((numerator.log2 : Int) - denominator.log2 + 1) * denominator :=
          mul_le_mul_of_nonneg_left hdlower (by positivity)

/-- The exponent for which the quotient has 53 binary digits. -/
theorem leadingExponent_eq {numerator denominator : Nat} (hn : 0 < numerator)
    (hd : 0 < denominator) :
    leadingExponent numerator denominator = Int.log 2 (numerator / denominator : ℚ) - 52 := by
  obtain ⟨hlower, hupper⟩ := quotient_bounds hn hd
  have hpow : ∀ e : Int, ((2 ^ 53 : ℕ) : ℚ) * 2 ^ e = 2 ^ (e + 53) := by
    intro e
    rw [zpow_add₀ two_ne_zero, mul_comm]
    norm_num
  have hguess : (numerator.log2 : Int) - denominator.log2 - 53 + 53 =
      (numerator.log2 : Int) - denominator.log2 := by ring
  unfold leadingExponent
  simp only [scaled_lt_iff hd, hpow, hguess]
  -- the guess has 53 or 54 digits left of the point, and the test tells which
  split
  · rename_i hlt
    have hlog : Int.log 2 (numerator / denominator : ℚ) =
        (numerator.log2 : Int) - denominator.log2 - 1 := by
      apply log_eq_of_bounds hlower
      rwa [sub_add_cancel]
    omega
  · rename_i hge
    have hlog : Int.log 2 (numerator / denominator : ℚ) =
        (numerator.log2 : Int) - denominator.log2 := log_eq_of_bounds (not_lt.mp hge) hupper
    omega

theorem scaled_congr {n₁ d₁ n₂ d₂ : Nat} (h₁ : 0 < d₁) (h₂ : 0 < d₂) (h : n₁ * d₂ = n₂ * d₁)
    (e : Int) :
    (scaled n₁ d₁ e).1 = (scaled n₂ d₂ e).1 ∧
      (scaled n₁ d₁ e).2.1 * (scaled n₂ d₂ e).2.2 = (scaled n₂ d₂ e).2.1 * (scaled n₁ d₁ e).2.2 := by
  have hcross : n₁ * 2 ^ (-e).toNat * (d₂ * 2 ^ e.toNat) =
      n₂ * 2 ^ (-e).toNat * (d₁ * 2 ^ e.toNat) := by
    calc n₁ * 2 ^ (-e).toNat * (d₂ * 2 ^ e.toNat) = n₁ * d₂ * (2 ^ (-e).toNat * 2 ^ e.toNat) := by ring
      _ = n₂ * d₁ * (2 ^ (-e).toNat * 2 ^ e.toNat) := by rw [h]
      _ = n₂ * 2 ^ (-e).toNat * (d₁ * 2 ^ e.toNat) := by ring
  have hd₁ : 0 < d₁ * 2 ^ e.toNat := by positivity
  have hd₂ : 0 < d₂ * 2 ^ e.toNat := by positivity
  unfold scaled
  generalize n₁ * 2 ^ (-e).toNat = N₁ at hcross ⊢
  generalize n₂ * 2 ^ (-e).toNat = N₂ at hcross ⊢
  generalize d₁ * 2 ^ e.toNat = D₁ at hcross hd₁ ⊢
  generalize d₂ * 2 ^ e.toNat = D₂ at hcross hd₂ ⊢
  constructor
  · calc N₁ / D₁ = N₁ * D₂ / (D₁ * D₂) := (Nat.mul_div_mul_right N₁ D₁ hd₂).symm
      _ = N₂ * D₁ / (D₂ * D₁) := by rw [hcross, Nat.mul_comm D₁]
      _ = N₂ / D₂ := Nat.mul_div_mul_right N₂ D₂ hd₁
  · calc N₁ % D₁ * D₂ = N₁ * D₂ % (D₁ * D₂) := (Nat.mul_mod_mul_right D₂ N₁ D₁).symm
      _ = N₂ * D₁ % (D₂ * D₁) := by rw [hcross, Nat.mul_comm D₁]
      _ = N₂ % D₂ * D₁ := Nat.mul_mod_mul_right D₁ N₂ D₂

theorem rounded_congr {quotient r₁ d₁ r₂ d₂ : Nat} (h₁ : 0 < d₁) (h₂ : 0 < d₂)
    (h : r₁ * d₂ = r₂ * d₁) (e : Int) : rounded e quotient r₁ d₁ = rounded e quotient r₂ d₂ := by
  have hlt : 2 * r₁ < d₁ ↔ 2 * r₂ < d₂ := by
    rw [← Nat.mul_lt_mul_right h₂, Nat.mul_assoc, h, ← Nat.mul_assoc, Nat.mul_comm d₁,
      Nat.mul_lt_mul_right h₁]
  have heq : 2 * r₁ = d₁ ↔ 2 * r₂ = d₂ := by
    rw [← Nat.mul_left_inj h₂.ne', Nat.mul_assoc, h, ← Nat.mul_assoc, Nat.mul_comm d₁,
      Nat.mul_left_inj h₁.ne']
  unfold rounded
  simp only [hlt, heq]

/-- Rounding depends on the value of the quotient only. -/
theorem toDouble_congr {n₁ d₁ n₂ d₂ : Nat} (hn₁ : 0 < n₁) (hd₁ : 0 < d₁) (hn₂ : 0 < n₂)
    (hd₂ : 0 < d₂) (h : (n₁ / d₁ : ℚ) = n₂ / d₂) : toDouble n₁ d₁ = toDouble n₂ d₂ := by
  have hcross : n₁ * d₂ = n₂ * d₁ := by
    have hd₁' : (d₁ : ℚ) ≠ 0 := by exact_mod_cast hd₁.ne'
    have hd₂' : (d₂ : ℚ) ≠ 0 := by exact_mod_cast hd₂.ne'
    exact_mod_cast (div_eq_div_iff hd₁' hd₂').mp h
  rw [toDouble_eq, toDouble_eq, leadingExponent_eq hn₁ hd₁, leadingExponent_eq hn₂ hd₂, h]
  obtain ⟨hquotient, hremainder⟩ := scaled_congr hd₁ hd₂ hcross
    (max (-1074) (Int.log 2 (n₂ / d₂ : ℚ) - 52))
  simp only [hquotient]
  refine rounded_congr ?_ ?_ hremainder _
  · unfold scaled
    positivity
  · unfold scaled
    positivity

theorem rounded_exact {quotient denominator : Nat} (hd : 0 < denominator)
    (hq : quotient < 2 ^ 53) (e : Int) :
    rounded e quotient 0 denominator = if e ≤ 971 then some (quotient, e) else none := by
  have hexact : 2 * 0 < denominator := hd
  unfold rounded
  simp only [hexact, true_or, if_true, hq.ne, if_false]

/-- A quotient below 53 binary digits, and with all of them unless the exponent is the
lowest one, is rounded to nothing, to zero or to a double. -/
theorem rounded_cases {e : Int} {quotient : Nat} (hlower : -1074 ≤ e) (hq : quotient < 2 ^ 53)
    (hcanonical : 2 ^ 52 ≤ quotient ∨ e = -1074) (remainder denominator : Nat) :
    rounded e quotient remainder denominator = none ∨
      (∃ e', rounded e quotient remainder denominator = some (0, e')) ∨
      ∃ x : Double, rounded e quotient remainder denominator = some (x.mantissa, x.exponent) := by
  have hdouble : ∀ (mantissa : Nat) (e' : Int), mantissa < 2 ^ 53 → -1074 ≤ e' →
      (2 ^ 52 ≤ mantissa ∨ e' = -1074) →
      (if e' ≤ 971 then some (mantissa, e') else none) = none ∨
        (∃ e'', (if e' ≤ 971 then some (mantissa, e') else none) = some (0, e'')) ∨
        ∃ x : Double, (if e' ≤ 971 then some (mantissa, e') else none) =
          some (x.mantissa, x.exponent) := by
    intro mantissa e' hbounded hlower' hcanonical'
    by_cases hupper : e' ≤ 971
    · rw [if_pos hupper]
      rcases Nat.eq_zero_or_pos mantissa with rfl | hpositive
      · exact .inr (.inl ⟨e', rfl⟩)
      · exact .inr (.inr ⟨⟨mantissa, e', hpositive, hbounded, hcanonical', hlower', hupper⟩, rfl⟩)
    · exact .inl (if_neg hupper)
  unfold rounded
  generalize hmantissa : (if 2 * remainder < denominator ∨
      (2 * remainder = denominator ∧ quotient % 2 = 0) then quotient else quotient + 1) = mantissa
  have hbounds : quotient ≤ mantissa ∧ mantissa ≤ quotient + 1 := by
    split_ifs at hmantissa <;> omega
  by_cases hcarry : mantissa = 2 ^ 53
  · simp only [hcarry, if_true]
    exact hdouble (2 ^ 52) (e + 1) (by norm_num) (by omega) (.inl le_rfl)
  · simp only [hcarry, if_false]
    exact hdouble mantissa e (by omega) hlower (by omega)

theorem toDouble_cases {numerator denominator : Nat} (hn : 0 < numerator) (hd : 0 < denominator) :
    toDouble numerator denominator = none ∨
      (∃ e, toDouble numerator denominator = some (0, e)) ∨
      ∃ x : Double, toDouble numerator denominator = some (x.mantissa, x.exponent) := by
  have hvalue : (0 : ℚ) < numerator / denominator :=
    div_pos (by exact_mod_cast hn) (by exact_mod_cast hd)
  have hscale : ∀ (k : ℕ) (e : Int), ((2 ^ k : ℕ) : ℚ) * 2 ^ e = 2 ^ (e + k) := by
    intro k e
    rw [zpow_add₀ two_ne_zero, mul_comm]
    norm_num
  rw [toDouble_eq, leadingExponent_eq hn hd]
  generalize he : max (-1074) (Int.log 2 (numerator / denominator : ℚ) - 52) = e
  have hq : (scaled numerator denominator e).1 < 2 ^ 53 := by
    rw [scaled_lt_iff hd, hscale]
    exact_mod_cast (Int.lt_zpow_iff_log_lt Nat.one_lt_two hvalue).mpr (by omega)
  have hcanonical : 2 ^ 52 ≤ (scaled numerator denominator e).1 ∨ e = -1074 := by
    refine or_iff_not_imp_right.mpr fun hne => not_lt.mp ?_
    rw [scaled_lt_iff hd, hscale, not_lt]
    exact_mod_cast (Int.zpow_le_iff_le_log Nat.one_lt_two hvalue).mpr (by omega)
  exact rounded_cases (by omega) hq hcanonical _ _

theorem toDouble_zero {denominator mantissa : Nat} {exponent : Int} (hd : 0 < denominator)
    (h : toDouble 0 denominator = some (mantissa, exponent)) : mantissa = 0 := by
  have hpos : ∀ e : Int, 0 < denominator * 2 ^ e.toNat := by
    intro e
    positivity
  rw [toDouble_eq] at h
  simp only [scaled, Nat.zero_mul, Nat.zero_div, Nat.zero_mod] at h
  rw [rounded_exact (hpos _) (by positivity)] at h
  split at h
  · exact (Prod.mk.inj (Option.some.inj h)).1.symm
  · cases h

section
variable (x : Double)

theorem Double.value_eq :
    ((x.mantissa * 2 ^ x.exponent.toNat : ℕ) / (2 ^ (-x.exponent).toNat : ℕ) : ℚ) =
      x.mantissa * 2 ^ x.exponent := by
  have hpow : (2 : ℚ) ^ (-x.exponent).toNat ≠ 0 := by positivity
  push_cast
  rw [pow_toNat two_ne_zero, div_eq_iff hpow]
  ring

/-- The exponent that rounding chooses for a double is its own. -/
theorem Double.exponent_eq :
    max (-1074) (Int.log 2 (x.mantissa * 2 ^ x.exponent : ℚ) - 52) = x.exponent := by
  have hm : (0 : ℚ) < x.mantissa := by exact_mod_cast x.positive
  have hscale : ∀ k : ℕ, ((2 ^ k : ℕ) : ℚ) * 2 ^ x.exponent = 2 ^ (x.exponent + k) := by
    intro k
    rw [zpow_add₀ two_ne_zero, mul_comm]
    norm_num
  have hpow : (0 : ℚ) < 2 ^ x.exponent := by positivity
  have hupper : (x.mantissa * 2 ^ x.exponent : ℚ) < 2 ^ (x.exponent + 53) := by
    rw [show x.exponent + 53 = x.exponent + (53 : ℕ) from rfl, ← hscale]
    exact mul_lt_mul_of_pos_right (by exact_mod_cast x.bounded) hpow
  have hpositive : (0 : ℚ) < x.mantissa * 2 ^ x.exponent := mul_pos hm hpow
  have hlog := (Int.lt_zpow_iff_log_lt Nat.one_lt_two hpositive).mp (by exact_mod_cast hupper)
  have hlower := x.lower
  rcases x.canonical with hnormal | hsubnormal
  · have hle : (2 : ℚ) ^ (x.exponent + 52) ≤ x.mantissa * 2 ^ x.exponent := by
      rw [show x.exponent + 52 = x.exponent + (52 : ℕ) from rfl, ← hscale]
      exact mul_le_mul_of_nonneg_right (by exact_mod_cast hnormal) hpow.le
    have hge := (Int.zpow_le_iff_le_log Nat.one_lt_two hpositive).mp (by exact_mod_cast hle)
    omega
  · -- a mantissa with fewer digits is only there at the lowest exponent
    omega

/-- Rounding a double gives the double. -/
theorem Double.toDouble_self :
    toDouble (x.mantissa * 2 ^ x.exponent.toNat) (2 ^ (-x.exponent).toNat) =
      some (x.mantissa, x.exponent) := by
  have hm := x.positive
  have hnumerator : 0 < x.mantissa * 2 ^ x.exponent.toNat := by positivity
  have hdenominator : 0 < 2 ^ (-x.exponent).toNat := by positivity
  have hscaled : scaled (x.mantissa * 2 ^ x.exponent.toNat) (2 ^ (-x.exponent).toNat) x.exponent =
      (x.mantissa, 0, 2 ^ (-x.exponent).toNat * 2 ^ x.exponent.toNat) := by
    have hproduct : x.mantissa * 2 ^ x.exponent.toNat * 2 ^ (-x.exponent).toNat =
        x.mantissa * (2 ^ (-x.exponent).toNat * 2 ^ x.exponent.toNat) := by ring
    have hpos : 0 < 2 ^ (-x.exponent).toNat * 2 ^ x.exponent.toNat := by positivity
    unfold scaled
    simp only [hproduct, Nat.mul_div_cancel _ hpos, Nat.mul_mod_left]
  rw [toDouble_eq, leadingExponent_eq hnumerator hdenominator, x.value_eq, x.exponent_eq]
  simp only [hscaled]
  rw [rounded_exact (by positivity) x.bounded, if_pos x.upper]

end

/-! Decimals. -/

theorem decimalToDouble_eq {digits n d : Nat} {exponent : Int} (hdigits : 0 < digits) (hn : 0 < n)
    (hd : 0 < d) (h : (digits * 10 ^ exponent : ℚ) = n / d) :
    decimalToDouble digits exponent = toDouble n d := by
  have hpow : (10 : ℚ) ^ (-exponent).toNat ≠ 0 := by positivity
  have hvalue : ((digits * 10 ^ exponent.toNat : ℕ) / (10 ^ (-exponent).toNat : ℕ) : ℚ) = n / d := by
    rw [← h]
    push_cast
    rw [pow_toNat (by norm_num), div_eq_iff hpow]
    ring
  exact toDouble_congr (by positivity) (by positivity) hn hd hvalue

theorem decimalToDouble_congr {d₁ d₂ : Nat} {e₁ e₂ : Int} (h₁ : 0 < d₁) (h₂ : 0 < d₂)
    (h : (d₁ * 10 ^ e₁ : ℚ) = d₂ * 10 ^ e₂) : decimalToDouble d₁ e₁ = decimalToDouble d₂ e₂ := by
  have hpow : (10 : ℚ) ^ (-e₂).toNat ≠ 0 := by positivity
  refine decimalToDouble_eq h₁ (by positivity) (by positivity) (h.trans ?_)
  push_cast
  rw [pow_toNat (by norm_num), eq_div_iff hpow]
  ring

theorem decimalToDouble_zero {mantissa : Nat} {exponent binary : Int}
    (h : decimalToDouble 0 exponent = some (mantissa, binary)) : mantissa = 0 := by
  unfold decimalToDouble at h
  rw [Nat.zero_mul] at h
  exact toDouble_zero (by positivity) h

/-- The full decimal expansion of a double rounds to it. -/
theorem Double.expansion_spec (x : Double) :
    decimalToDouble
        ((x.mantissa : Int) * 2 ^ x.exponent.toNat * 5 ^ (-x.exponent).toNat).toNat
        (min x.exponent 0) =
      some (x.mantissa, x.exponent) := by
  have hm := x.positive
  have hdigits : ((x.mantissa : Int) * 2 ^ x.exponent.toNat * 5 ^ (-x.exponent).toNat).toNat =
      x.mantissa * 2 ^ x.exponent.toNat * 5 ^ (-x.exponent).toNat := by
    rw [← Int.toNat_natCast (x.mantissa * 2 ^ x.exponent.toNat * 5 ^ (-x.exponent).toNat)]
    push_cast
    rfl
  have hmin : min x.exponent 0 = -((-x.exponent).toNat : Int) := by omega
  -- a negative power of two is a power of five over the same power of ten
  have hten : (10 : ℚ) ^ (-x.exponent).toNat = 2 ^ (-x.exponent).toNat * 5 ^ (-x.exponent).toNat := by
    rw [← mul_pow]
    norm_num
  rw [hdigits, ← x.toDouble_self]
  refine decimalToDouble_eq (by positivity) (by positivity) (by positivity) ?_
  have htwo : (2 : ℚ) ^ (-x.exponent).toNat ≠ 0 := by positivity
  have hfive : (5 : ℚ) ^ (-x.exponent).toNat ≠ 0 := by positivity
  rw [hmin, zpow_neg, zpow_natCast, hten]
  push_cast
  field_simp

/-- The decimal that is chosen for a double rounds to it. -/
theorem Double.shortest_spec (x : Double) :
    0 < (shortest x.mantissa x.exponent).1 ∧
      decimalToDouble (shortest x.mantissa x.exponent).1.toNat (shortest x.mantissa x.exponent).2 =
        some (x.mantissa, x.exponent) := by
  have hpositive : ∀ c : Int × Int,
      decimalToDouble c.1.toNat c.2 = some (x.mantissa, x.exponent) → 0 < c.1 := by
    intro c hc
    by_contra hle
    rw [Int.toNat_of_nonpos (not_lt.mp hle)] at hc
    exact x.positive.ne' (decimalToDouble_zero hc)
  suffices hround : decimalToDouble (shortest x.mantissa x.exponent).1.toNat
      (shortest x.mantissa x.exponent).2 = some (x.mantissa, x.exponent) from
    ⟨hpositive _ hround, hround⟩
  unfold shortest
  dsimp only
  rcases hfound : (List.range 17).findSome? fun i =>
      (candidates (x.mantissa * 2 ^ x.exponent.toNat) (2 ^ (-x.exponent).toNat) (i + 1)).find?
        fun c => decide (decimalToDouble c.1.toNat c.2 = some (x.mantissa, x.exponent)) with _ | c
  · -- seventeen digits are always enough, but the full expansion needs no proof of that
    rw [hfound, Option.getD_none]
    exact x.expansion_spec
  · obtain ⟨i, -, hi⟩ := List.exists_of_findSome?_eq_some hfound
    have hround := List.find?_some hi
    rw [hfound, Option.getD_some]
    exact of_decide_eq_true hround

/-- Trailing zeros move to the exponent; the value and the sign stay. -/
theorem normalize_spec (fuel : Nat) {digits : Int} (h : digits ≠ 0) (exponent : Int) :
    ∃ digits' exponent', normalize fuel digits exponent = .decimal digits' exponent' ∧
      digits' ≠ 0 ∧ (digits' < 0 ↔ digits < 0) ∧
      (digits'.natAbs * 10 ^ exponent' : ℚ) = digits.natAbs * 10 ^ exponent := by
  induction fuel generalizing digits exponent with
  | zero => exact ⟨digits, exponent, rfl, h, Iff.rfl, rfl⟩
  | succ fuel ih =>
    rw [normalize, if_neg h]
    split
    · rename_i hmod
      have hne : digits / 10 ≠ 0 := by omega
      obtain ⟨digits', exponent', hnormal, hnonzero, hsign, hvalue⟩ := ih hne (exponent + 1)
      have habs : digits.natAbs = (digits / 10).natAbs * 10 := by omega
      refine ⟨digits', exponent', hnormal, hnonzero, ?_, ?_⟩
      · rw [hsign]
        omega
      · rw [hvalue, habs, zpow_add_one₀ (by norm_num)]
        push_cast
        ring
    · exact ⟨digits, exponent, rfl, h, Iff.rfl, rfl⟩

theorem ofDecimal_eq {digits : Nat} {exponent : Int} (x : Double) (negative : Bool)
    (h : decimalToDouble digits exponent = some (x.mantissa, x.exponent)) :
    ofDecimal negative digits exponent = x.number negative := by
  have hdigits : digits ≠ 0 := by
    intro hzero
    rw [hzero] at h
    exact x.positive.ne' (decimalToDouble_zero h)
  unfold ofDecimal Double.number
  rw [if_neg hdigits, h]
  split
  · rename_i hnone
    cases hnone
  · rename_i hzero
    have hm := (Prod.mk.inj (Option.some.inj hzero)).1
    exact absurd hm x.positive.ne'
  · rename_i hsome
    obtain ⟨hm, he⟩ := Prod.mk.inj (Option.some.inj hsome)
    rw [hm, he]

/-- A decimal text is read as a finite number or as infinity. -/
theorem ofDecimal_cases (negative : Bool) (digits : Nat) (exponent : Int) :
    IsFinite (ofDecimal negative digits exponent) ∨
      ofDecimal negative digits exponent = .infinite negative := by
  by_cases hdigits : digits = 0
  · exact .inl (.inl (if_pos hdigits))
  · have hpositive : 0 < digits := Nat.pos_of_ne_zero hdigits
    have hnumerator : 0 < digits * 10 ^ exponent.toNat := by positivity
    have hdenominator : 0 < 10 ^ (-exponent).toNat := by positivity
    have hdecimal : decimalToDouble digits exponent =
        toDouble (digits * 10 ^ exponent.toNat) (10 ^ (-exponent).toNat) := rfl
    rcases toDouble_cases hnumerator hdenominator with hnone | ⟨e, hzero⟩ | ⟨x, hsome⟩
    · apply Or.inr
      unfold ofDecimal
      rw [if_neg hdigits, hdecimal, hnone]
    · refine .inl (.inl ?_)
      unfold ofDecimal
      rw [if_neg hdigits, hdecimal, hzero]
      rfl
    · exact .inl (.inr ⟨negative, x, ofDecimal_eq x negative (hdecimal.trans hsome)⟩)

/-- The decimal of a double has its sign and rounds to it. -/
theorem Double.number_spec (negative : Bool) (y : Double) :
    ∃ digits exponent, y.number negative = .decimal digits exponent ∧ digits ≠ 0 ∧
      decide (digits < 0) = negative ∧
      decimalToDouble digits.natAbs exponent = some (y.mantissa, y.exponent) := by
  obtain ⟨hpositive, hround⟩ := y.shortest_spec
  have hsigned : ∀ n : Int, 0 < n → (if negative then -n else n) ≠ 0 ∧
      decide ((if negative then -n else n) < 0) = negative ∧
      (if negative then -n else n).natAbs = n.toNat := by
    intro n hn
    cases negative with
    | true => simp only [if_true, decide_eq_true_eq]; omega
    | false => simp only [Bool.false_eq_true, if_false, decide_eq_false_iff_not]; omega
  obtain ⟨hne, hsign, habs⟩ := hsigned _ hpositive
  obtain ⟨digits, exponent, hnormal, hnonzero, hkept, hvalue⟩ :=
    normalize_spec 400 hne (shortest y.mantissa y.exponent).2
  have hdouble := decimalToDouble_congr (Int.natAbs_pos.mpr hnonzero) (Int.natAbs_pos.mpr hne) hvalue
  rw [habs, hround] at hdouble
  refine ⟨digits, exponent, hnormal, hnonzero, ?_, hdouble⟩
  rw [decide_eq_decide.mpr hkept, hsign]

/-- A finite number other than zero is a decimal, and every decimal of the same
value reads as this number. -/
theorem IsFinite.cases {x : Number} (h : IsFinite x) : x = zero ∨
    ∃ digits exponent, x = .decimal digits exponent ∧ digits ≠ 0 ∧
      ∀ (digits' : Nat) (exponent' : Int), 0 < digits' →
        (digits' * 10 ^ exponent' : ℚ) = digits.natAbs * 10 ^ exponent →
          ofDecimal (digits < 0) digits' exponent' = x := by
  refine h.imp_right ?_
  intro hdouble
  rcases hdouble with ⟨negative, y, rfl⟩
  obtain ⟨digits, exponent, hnumber, hnonzero, hsign, hround⟩ := y.number_spec negative
  refine ⟨digits, exponent, hnumber, hnonzero, ?_⟩
  intro digits' exponent' hpositive hsame
  have hdecimal := decimalToDouble_congr hpositive (Int.natAbs_pos.mpr hnonzero) hsame
  rw [hsign]
  exact ofDecimal_eq y negative (hdecimal.trans hround)

end Ecma.Number
