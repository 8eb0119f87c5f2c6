import Sequencer.Duration
import Mathlib.Algebra.Order.Field.Power
import Mathlib.Data.Rat.Cast.Order
import Mathlib.Tactic.FieldSimp
import Mathlib.Tactic.GCongr
import Mathlib.Tactic.Linarith
import Mathlib.Tactic.NormNum
import Mathlib.Tactic.Positivity
import Mathlib.Tactic.Ring

/-!
# Rounding — how far a double is from what it stands for

Every operation on doubles rounds once.  What it rounds to is off by half of the last place at most,
so that a number below `2 ^ b` is hit but for `2 ^ (b - 54)`.
-/

namespace Sequencer.Binary64

/-! ## 1. Nearest integers -/

theorem roundHalfEven_spec (n : Nat) {d : Nat} (hd : 0 < d) :
    2 * (d * roundHalfEven n d) ≤ 2 * n + d ∧ 2 * n ≤ 2 * (d * roundHalfEven n d) + d ∧
      (2 * (d * roundHalfEven n d) = 2 * n + d ∨ 2 * n = 2 * (d * roundHalfEven n d) + d →
        roundHalfEven n d % 2 = 0) := by
  have hsplit := Nat.div_add_mod n d
  have hrest := Nat.mod_lt n hd
  have hnext : d * (n / d + 1) = d * (n / d) + d := Nat.mul_succ _ _
  unfold roundHalfEven
  simp only
  split
  · omega
  · split
    · rw [hnext]
      omega
    · split
      · omega
      · rw [hnext]
        omega

/-- `k` is an integer next to `q`, and an even one if two are equally near. -/
structure IsNearest (k : Nat) (q : ℚ) : Prop where
  above : (k : ℚ) ≤ q + 1 / 2
  below : q ≤ k + 1 / 2
  tie : (k : ℚ) = q + 1 / 2 ∨ q = k + 1 / 2 → k % 2 = 0

theorem isNearest_roundHalfEven (n : Nat) {d : Nat} (hd : 0 < d) :
    IsNearest (roundHalfEven n d) (n / d) := by
  obtain ⟨habove, hbelow, htie⟩ := roundHalfEven_spec n hd
  have hpos : (0 : ℚ) < d := by exact_mod_cast hd
  have hscale : (n : ℚ) / d * d = n := div_mul_cancel₀ _ hpos.ne'
  generalize roundHalfEven n d = k at *
  have habove' : 2 * ((d : ℚ) * k) ≤ 2 * n + d := by exact_mod_cast habove
  have hbelow' : 2 * (n : ℚ) ≤ 2 * (d * k) + d := by exact_mod_cast hbelow
  refine ⟨?_, ?_, fun h => htie ?_⟩
  · rw [div_add' _ _ _ hpos.ne', le_div_iff₀ hpos]
    linarith
  · rw [div_le_iff₀ hpos]
    linarith
  · rcases h with h | h
    · left
      have hexact : 2 * ((d : ℚ) * k) = 2 * n + d := by
        rw [h, mul_add, mul_div_cancel₀ _ hpos.ne']
        ring
      exact_mod_cast hexact
    · right
      have hexact : 2 * (n : ℚ) = 2 * (d * k) + d := by
        rw [div_eq_iff hpos.ne'] at h
        rw [h]
        ring
      exact_mod_cast hexact

/-- What is not less has no smaller integer next to it. -/
theorem IsNearest.mono {j k : Nat} {p q : ℚ} (hj : IsNearest j p) (hk : IsNearest k q)
    (h : p ≤ q) : j ≤ k := by
  by_contra hless
  have hstep : (k : ℚ) + 1 ≤ j := by exact_mod_cast Nat.lt_of_not_le hless
  have habove := hj.above
  have hbelow := hk.below
  -- They can only be neighbours, and then both are ties, which go to even integers.
  have hnext : (j : ℚ) = k + 1 := by linarith
  have hnext' : j = k + 1 := by exact_mod_cast hnext
  have hj' := hj.tie (.inl (by linarith))
  have hk' := hk.tie (.inr (by linarith))
  omega

/-- It does not pass by an integer. -/
theorem IsNearest.le {j k : Nat} {p : ℚ} (hj : IsNearest j p) (h : p ≤ k) : j ≤ k := by
  have habove := hj.above
  have hlt : (j : ℚ) < k + 1 := by linarith
  exact Nat.lt_succ_iff.mp (by exact_mod_cast hlt)

theorem IsNearest.eq {j k : Nat} {p : ℚ} (hj : IsNearest j p) (h : |p - k| < 1 / 2) : j = k := by
  obtain ⟨hlow, hhigh⟩ := abs_lt.mp h
  have habove := hj.above
  have hbelow := hj.below
  have hlt : (j : ℚ) < k + 1 := by linarith
  have hgt : (k : ℚ) < j + 1 := by linarith
  have hlt' : j < k + 1 := by exact_mod_cast hlt
  have hgt' : k < j + 1 := by exact_mod_cast hgt
  omega

theorem IsNearest.near {j : Nat} {p : ℚ} (hj : IsNearest j p) : |(j : ℚ) - p| ≤ 1 / 2 :=
  abs_le.mpr ⟨by linarith [hj.below], by linarith [hj.above]⟩

/-! ## 2. Powers of two -/

theorem natPow_cast (k : Nat) : ((Nat.pow 2 k : Nat) : ℚ) = 2 ^ k := by
  rw [Nat.pow_eq, Nat.cast_pow, Nat.cast_ofNat]

theorem natPow_eq_zpow {e : Int} (h : 0 ≤ e) : ((Nat.pow 2 e.toNat : Nat) : ℚ) = 2 ^ e := by
  rw [natPow_cast, ← zpow_natCast, Int.toNat_of_nonneg h]

theorem scaled_spec (n : Nat) (e : Int) :
    0 < (scaled n e).2 ∧ ((scaled n e).1 : ℚ) / (scaled n e).2 = n * 2 ^ e := by
  unfold scaled
  split
  · next h =>
    refine ⟨Nat.one_pos, ?_⟩
    rw [Nat.cast_mul, natPow_eq_zpow h, Nat.cast_one, div_one]
  · next h =>
    refine ⟨Nat.two_pow_pos _, ?_⟩
    rw [natPow_eq_zpow (by omega), zpow_neg, div_inv_eq_mul]

/-- The test of `floorLog2`. -/
theorem floorLog2_test (n : Nat) {d : Nat} (hd : 0 < d) (k : Int) :
    (if 0 ≤ k then decide (d * Nat.pow 2 k.toNat ≤ n)
      else decide (d ≤ n * Nat.pow 2 (-k).toNat)) = true ↔ (2 : ℚ) ^ k ≤ n / d := by
  have hpos : (0 : ℚ) < d := by exact_mod_cast hd
  rw [le_div_iff₀ hpos]
  split
  · next h =>
    rw [decide_eq_true_iff, ← Nat.cast_le (α := ℚ), Nat.cast_mul, natPow_eq_zpow h, mul_comm]
  · next h =>
    have hinverse : (2 : ℚ) ^ (-k) * 2 ^ k = 1 := by
      rw [← zpow_add₀ two_ne_zero, neg_add_cancel, zpow_zero]
    have hunit : (0 : ℚ) < 2 ^ k := by positivity
    rw [decide_eq_true_iff, ← Nat.cast_le (α := ℚ), Nat.cast_mul, natPow_eq_zpow (by omega),
      ← mul_le_mul_iff_left₀ hunit, mul_assoc, hinverse, mul_one, mul_comm]

theorem floorLog2_spec {n d : Nat} (hn : 0 < n) (hd : 0 < d) :
    (2 : ℚ) ^ floorLog2 n d ≤ n / d ∧ (n : ℚ) / d < 2 ^ (floorLog2 n d + 1) := by
  have hpos : (0 : ℚ) < d := by exact_mod_cast hd
  have hn1 : (2 : ℚ) ^ (n.log2 : ℤ) ≤ n := by exact_mod_cast Nat.log2_self_le hn.ne'
  have hn2 : (n : ℚ) < 2 ^ ((n.log2 : ℤ) + 1) := by
    exact_mod_cast Nat.lt_log2_self (n := n)
  have hd1 : (2 : ℚ) ^ (d.log2 : ℤ) ≤ d := by exact_mod_cast Nat.log2_self_le hd.ne'
  have hd2 : (d : ℚ) < 2 ^ ((d.log2 : ℤ) + 1) := by
    exact_mod_cast Nat.lt_log2_self (n := d)
  have hlow : (2 : ℚ) ^ ((n.log2 : ℤ) - d.log2 - 1) ≤ n / d := by
    rw [le_div_iff₀ hpos]
    calc (2 : ℚ) ^ ((n.log2 : ℤ) - d.log2 - 1) * d
        ≤ 2 ^ ((n.log2 : ℤ) - d.log2 - 1) * 2 ^ ((d.log2 : ℤ) + 1) := by gcongr
      _ = 2 ^ (n.log2 : ℤ) := by
        rw [← zpow_add₀ two_ne_zero]
        congr 1
        ring
      _ ≤ n := hn1
  have hhigh : (n : ℚ) / d < 2 ^ ((n.log2 : ℤ) - d.log2 + 1) := by
    rw [div_lt_iff₀ hpos]
    calc (n : ℚ) < 2 ^ ((n.log2 : ℤ) + 1) := hn2
      _ = 2 ^ ((n.log2 : ℤ) - d.log2 + 1) * 2 ^ (d.log2 : ℤ) := by
        rw [← zpow_add₀ two_ne_zero]
        congr 1
        ring
      _ ≤ 2 ^ ((n.log2 : ℤ) - d.log2 + 1) * d := by gcongr
  have htest := floorLog2_test n hd ((n.log2 : ℤ) - d.log2)
  unfold floorLog2
  simp only
  by_cases h : (2 : ℚ) ^ ((n.log2 : ℤ) - d.log2) ≤ n / d
  · rw [if_pos (htest.mpr h)]
    exact ⟨h, hhigh⟩
  · rw [if_neg fun hle => h (htest.mp hle), sub_add_cancel]
    exact ⟨hlow, not_le.mp h⟩

/-! ## 3. Rounded fractions -/

/-- `x` is a number that is not below zero, and stands for `q`. -/
def StandsFor (x : Binary64) (q : ℚ) : Prop :=
  ∃ m e, x = finite false m e ∧ m < 2 ^ 53 ∧ minExponent ≤ e ∧ (m : ℚ) * 2 ^ e = q

/-- The significand of a finite number has 53 bits at most, and its exponent is not too small. -/
def Sound : Binary64 → Prop
  | finite _ m e => m < 2 ^ 53 ∧ minExponent ≤ e
  | _ => True

/-- The exponent of the last place of a number from `2 ^ k` on, and below `2 ^ (k + 1)`. -/
def lastPlace (k : Int) : Int := max minExponent (k - 52)

/-- A significand with its exponent, unless that is too great. -/
def packed (negative : Bool) (m : Nat) (e : Int) : Binary64 :=
  if maxExponent < e then infinite negative else finite negative m e

/-- A positive fraction is rounded to the nearest multiple of the unit of its last place.  A
significand that is rounded up to the next power of two is halved. -/
theorem ofFraction_packed (negative : Bool) {n d : Nat} (hn : 0 < n) (hd : 0 < d) :
    ∃ k : ℤ, ∃ a : Nat, (2 : ℚ) ^ k ≤ n / d ∧ (n : ℚ) / d < 2 ^ (k + 1) ∧
      IsNearest a (n / d / 2 ^ lastPlace k) ∧ a ≤ 2 ^ 53 ∧
      ofFraction negative n d =
        if a = wordSize precision then packed negative (wordSize (precision - 1)) (lastPlace k + 1)
        else packed negative a (lastPlace k) := by
  obtain ⟨hlow, hhigh⟩ := floorLog2_spec hn hd
  unfold lastPlace
  generalize hk : floorLog2 n d = k at *
  generalize he : max minExponent (k - 52) = e
  have ha : ∃ a : Nat, (if 0 ≤ e then roundHalfEven n (d * Nat.pow 2 e.toNat)
      else roundHalfEven (n * Nat.pow 2 (-e).toNat) d) = a ∧ IsNearest a (n / d / 2 ^ e) := by
    refine ⟨_, rfl, ?_⟩
    split
    · next h =>
      have hpos : 0 < d * Nat.pow 2 e.toNat := Nat.mul_pos hd (Nat.two_pow_pos _)
      have hnearest := isNearest_roundHalfEven n hpos
      rwa [Nat.cast_mul, natPow_eq_zpow h, ← div_div] at hnearest
    · next h =>
      have hnearest := isNearest_roundHalfEven (n * Nat.pow 2 (-e).toNat) hd
      rwa [Nat.cast_mul, natPow_eq_zpow (by omega), zpow_neg, ← div_eq_mul_inv,
        div_right_comm] at hnearest
  obtain ⟨a, ha, hnearest⟩ := ha
  have hbound : a ≤ 2 ^ 53 := by
    apply hnearest.le
    have hunit : (0 : ℚ) < 2 ^ e := by positivity
    rw [div_le_iff₀ hunit]
    have hfits : (2 : ℚ) ^ (k + 1) ≤ 2 ^ (53 + e) :=
      zpow_le_zpow_right₀ one_le_two (by omega)
    have hsplit : (2 : ℚ) ^ (53 + e) = 2 ^ 53 * 2 ^ e := zpow_add₀ two_ne_zero 53 e
    push_cast
    linarith
  refine ⟨k, a, hlow, hhigh, he ▸ hnearest, hbound, ?_⟩
  rw [he]
  unfold ofFraction
  rw [if_neg hn.ne']
  simp only [hk, he, ha]
  split
  · rfl
  · rfl

/-- It is the multiple itself, unless the fraction is far too great. -/
theorem ofFraction_spec (negative : Bool) {n d : Nat} (hn : 0 < n) (hd : 0 < d) :
    ∃ k : ℤ, (2 : ℚ) ^ k ≤ n / d ∧ (n : ℚ) / d < 2 ^ (k + 1) ∧
      (1023 ≤ k ∧ ofFraction negative n d = infinite negative ∨
        ∃ m e, ofFraction negative n d = finite negative m e ∧ m < 2 ^ 53 ∧ minExponent ≤ e ∧
          ∃ a, IsNearest a (n / d / 2 ^ lastPlace k) ∧
            (m : ℚ) * 2 ^ e = a * 2 ^ lastPlace k) := by
  obtain ⟨k, a, hlow, hhigh, hnearest, hbound, hpacked⟩ := ofFraction_packed negative hn hd
  refine ⟨k, hlow, hhigh, ?_⟩
  rw [hpacked]
  unfold packed
  have hplace : minExponent ≤ lastPlace k := le_max_left _ _
  by_cases hcarry : a = wordSize precision
  · rw [if_pos hcarry]
    split
    · next h => exact .inl ⟨by unfold lastPlace maxExponent minExponent at *; omega, rfl⟩
    · refine .inr ⟨_, _, rfl, by decide, by omega, a, hnearest, ?_⟩
      rw [hcarry, zpow_add_one₀ two_ne_zero]
      norm_num [precision]
      ring
  · rw [if_neg hcarry]
    split
    · next h => exact .inl ⟨by unfold lastPlace maxExponent minExponent at *; omega, rfl⟩
    · exact .inr ⟨a, _, rfl, lt_of_le_of_ne hbound hcarry, hplace, a, hnearest, rfl⟩

theorem ofFraction_zero (negative : Bool) (d : Nat) :
    ofFraction negative 0 d = finite negative 0 minExponent := rfl

theorem sound_ofFraction (negative : Bool) (n : Nat) {d : Nat} (hd : 0 < d) :
    (ofFraction negative n d).Sound := by
  rcases Nat.eq_zero_or_pos n with rfl | hn
  · exact ⟨by decide, le_refl minExponent⟩
  · obtain ⟨k, -, -, ⟨-, hinfinite⟩ | ⟨m, e, hfinite, hm, he, -⟩⟩ := ofFraction_spec negative hn hd
    · rw [hinfinite]
      trivial
    · rw [hfinite]
      exact ⟨hm, he⟩

/-- A fraction that is not too great is rounded to a number, which is off by at most half a unit of
the last place. -/
theorem standsFor_ofFraction {n d : Nat} (hn : 0 < n) (hd : 0 < d)
    (hsmall : (n : ℚ) / d < 2 ^ 1023) :
    ∃ k : ℤ, (2 : ℚ) ^ k ≤ n / d ∧ (n : ℚ) / d < 2 ^ (k + 1) ∧
      ∃ a, IsNearest a (n / d / 2 ^ lastPlace k) ∧
        StandsFor (ofFraction false n d) (a * 2 ^ lastPlace k) := by
  obtain ⟨k, hlow, hhigh, ⟨hgreat, -⟩ | ⟨m, e, hfinite, hm, he, a, hnearest, hvalue⟩⟩ :=
    ofFraction_spec false hn hd
  · have hle : (2 : ℚ) ^ (1023 : ℤ) ≤ 2 ^ k := zpow_le_zpow_right₀ one_le_two hgreat
    have hlt := lt_of_le_of_lt (hle.trans hlow) hsmall
    exact absurd hlt (lt_irrefl _)
  · exact ⟨k, hlow, hhigh, a, hnearest, m, e, hfinite, hm, he, hvalue⟩

theorem StandsFor.unique {x : Binary64} {p q : ℚ} (hp : x.StandsFor p) (hq : x.StandsFor q) :
    p = q := by
  obtain ⟨m, e, rfl, -, -, hvalue⟩ := hp
  obtain ⟨m', e', hsame, -, -, hvalue'⟩ := hq
  cases hsame
  exact hvalue.symm.trans hvalue'

theorem standsFor_zero : zero.StandsFor 0 :=
  ⟨0, minExponent, rfl, by decide, le_refl _, by rw [Nat.cast_zero, zero_mul]⟩

theorem IsNearest.off {a : Nat} {q : ℚ} {e : Int} (h : IsNearest a (q / 2 ^ e)) :
    |(a : ℚ) * 2 ^ e - q| ≤ 2 ^ (e - 1) := by
  have hunit : (0 : ℚ) < 2 ^ e := by positivity
  have hscaled : (a : ℚ) * 2 ^ e - q = (a - q / 2 ^ e) * 2 ^ e := by
    rw [sub_mul, div_mul_cancel₀ _ hunit.ne']
  rw [hscaled, abs_mul, abs_of_pos hunit, zpow_sub_one₀ two_ne_zero]
  have hnear := mul_le_mul_of_nonneg_right h.near hunit.le
  linarith

/-- How far a number can be off that is below `2 ^ b`. -/
theorem off_of_lt (n : Nat) {d : Nat} (hd : 0 < d) {b : ℤ} (hlow : -1021 ≤ b) (hhigh : b ≤ 1023)
    (h : (n : ℚ) / d < 2 ^ b) :
    ∃ v, StandsFor (ofFraction false n d) v ∧ |v - n / d| ≤ 2 ^ (b - 54) := by
  rcases Nat.eq_zero_or_pos n with rfl | hn
  · refine ⟨0, standsFor_zero, ?_⟩
    rw [Nat.cast_zero, zero_div, sub_zero, abs_zero]
    positivity
  · have hsmall : (n : ℚ) / d < 2 ^ 1023 :=
      lt_of_lt_of_le h (zpow_le_zpow_right₀ one_le_two hhigh)
    obtain ⟨k, hk, -, a, hnearest, hstands⟩ := standsFor_ofFraction hn hd hsmall
    refine ⟨_, hstands, hnearest.off.trans ?_⟩
    have hlt : k < b := (zpow_lt_zpow_iff_right₀ one_lt_two).mp (lt_of_le_of_lt hk h)
    apply zpow_le_zpow_right₀ one_le_two
    unfold lastPlace minExponent
    omega

/-- How far it can be off, measured by the fraction itself. -/
theorem off_le (n : Nat) {d : Nat} (hd : 0 < d) {b : ℤ} (hhigh : b ≤ 1023)
    (h : (n : ℚ) / d < 2 ^ b) :
    ∃ v, StandsFor (ofFraction false n d) v ∧
      |v - n / d| ≤ n / d * 2 ^ (-53 : ℤ) + 2 ^ (-1075 : ℤ) := by
  rcases Nat.eq_zero_or_pos n with rfl | hn
  · refine ⟨0, standsFor_zero, ?_⟩
    rw [Nat.cast_zero, zero_div, sub_zero, abs_zero, zero_mul, zero_add]
    positivity
  · have hsmall : (n : ℚ) / d < 2 ^ 1023 :=
      lt_of_lt_of_le h (zpow_le_zpow_right₀ one_le_two hhigh)
    obtain ⟨k, hk, -, a, hnearest, hstands⟩ := standsFor_ofFraction hn hd hsmall
    refine ⟨_, hstands, hnearest.off.trans ?_⟩
    have hlast : (2 : ℚ) ^ (k - 53) ≤ n / d * 2 ^ (-53 : ℤ) := by
      rw [sub_eq_add_neg, zpow_add₀ two_ne_zero]
      exact mul_le_mul_of_nonneg_right hk (by positivity)
    have hsplit : lastPlace k - 1 = k - 53 ∨ lastPlace k - 1 = -1075 := by
      unfold lastPlace minExponent
      omega
    rcases hsplit with hplace | hplace
    · rw [hplace]
      exact hlast.trans (le_add_of_nonneg_right (by positivity))
    · rw [hplace]
      exact le_add_of_nonneg_left (by positivity)

/-! ## 4. Arithmetic -/

/-- Natural numbers of 53 bits are not rounded. -/
theorem standsFor_ofNat {n : Nat} (h : n < 2 ^ 53) : (ofNat n).StandsFor n := by
  rcases Nat.eq_zero_or_pos n with rfl | hn
  · rw [Nat.cast_zero]
    exact standsFor_zero
  · have hone : (n : ℚ) / (1 : Nat) = n := by rw [Nat.cast_one, div_one]
    have hbound : (n : ℚ) < 2 ^ (53 : ℤ) := by exact_mod_cast h
    have hsmall : (n : ℚ) / (1 : Nat) < 2 ^ 1023 := by
      rw [hone]
      exact hbound.trans_le (zpow_le_zpow_right₀ one_le_two (by norm_num : (53 : ℤ) ≤ 1023))
    obtain ⟨k, hk, -, a, hnearest, hstands⟩ := standsFor_ofFraction hn Nat.one_pos hsmall
    rw [hone] at hk hnearest
    have hlt : k < 53 := (zpow_lt_zpow_iff_right₀ one_lt_two).mp (lt_of_le_of_lt hk hbound)
    have hplace : lastPlace k ≤ 0 := by
      unfold lastPlace minExponent
      omega
    -- The number is a multiple of the unit of its last place.
    have hmultiple : (n : ℚ) / 2 ^ lastPlace k = (n * 2 ^ (-lastPlace k).toNat : Nat) := by
      rw [Nat.cast_mul, ← Nat.pow_eq, natPow_eq_zpow (by omega), zpow_neg, div_eq_mul_inv]
    have ha : a = n * 2 ^ (-lastPlace k).toNat := by
      apply hnearest.eq
      rw [hmultiple, sub_self, abs_zero]
      norm_num
    rw [← ha] at hmultiple
    rw [← hmultiple, div_mul_cancel₀ _ (by positivity)] at hstands
    exact hstands

variable {x y : Binary64} {p q : ℚ}

theorem StandsFor.div (hx : x.StandsFor p) (hy : y.StandsFor q) (hq : 0 < q) :
    ∃ n d, 0 < d ∧ x.div y = ofFraction false n d ∧ (n : ℚ) / d = p / q := by
  obtain ⟨m, e, rfl, -, -, rfl⟩ := hx
  obtain ⟨m', e', rfl, -, -, rfl⟩ := hy
  have hm' : m' ≠ 0 := by
    rintro rfl
    rw [Nat.cast_zero, zero_mul] at hq
    exact lt_irrefl _ hq
  obtain ⟨hden, hvalue⟩ := scaled_spec m (e - e')
  refine ⟨(scaled m (e - e')).1, (scaled m (e - e')).2 * m',
    Nat.mul_pos hden (Nat.pos_of_ne_zero hm'), ?_, ?_⟩
  · simp only [Binary64.div, if_neg hm']
    rfl
  · rw [Nat.cast_mul, ← div_div, hvalue, zpow_sub₀ two_ne_zero]
    have hcast : (m' : ℚ) ≠ 0 := by exact_mod_cast hm'
    field_simp

theorem units_spec (m : Nat) {e : Int} (he : minExponent ≤ e) :
    ((units false m e : Int) : ℚ) = m * 2 ^ e * 2 ^ 1074 := by
  have hexp : 0 ≤ e - minExponent := by omega
  show (((m * Nat.pow 2 (e - minExponent).toNat : Nat) : Int) : ℚ) = _
  rw [Int.cast_natCast, Nat.cast_mul, natPow_eq_zpow hexp, zpow_sub₀ two_ne_zero]
  unfold minExponent
  rw [zpow_neg, div_inv_eq_mul, mul_assoc]
  rfl

/-- The sum of two numbers is taken in units of `2 ^ -1074`. -/
theorem exists_add_finite (m : Nat) (e : Int) (m' : Nat) (e' : Int) :
    ∃ k, k = 1074 ∧ (finite false m e).add (finite false m' e') =
      if units false m e + units false m' e' = 0 then finite false 0 minExponent
      else ofFraction (decide (units false m e + units false m' e' < 0))
        (units false m e + units false m' e').natAbs (Nat.pow 2 k) :=
  ⟨1074, rfl, rfl⟩

theorem StandsFor.add (hx : x.StandsFor p) (hy : y.StandsFor q) :
    ∃ n d, 0 < d ∧ x.add y = ofFraction false n d ∧ (n : ℚ) / d = p + q := by
  obtain ⟨m, e, rfl, -, he, rfl⟩ := hx
  obtain ⟨m', e', rfl, -, he', rfl⟩ := hy
  have hsum : 0 ≤ units false m e + units false m' e' :=
    Int.add_nonneg (Int.natCast_nonneg _) (Int.natCast_nonneg _)
  obtain ⟨k, hk, hadd⟩ := exists_add_finite m e m' e'
  refine ⟨(units false m e + units false m' e').natAbs, Nat.pow 2 k, Nat.two_pow_pos k, ?_, ?_⟩
  · rw [hadd]
    split
    · next hzero => rw [hzero, Int.natAbs_zero, ofFraction_zero]
    · rw [decide_eq_false (not_lt.mpr hsum)]
  · rw [Nat.cast_natAbs, abs_of_nonneg hsum, Int.cast_add, units_spec m he, units_spec m' he',
      natPow_cast, hk]
    field_simp

theorem StandsFor.lt_iff (hx : x.StandsFor p) (hy : y.StandsFor q) :
    x.lt y = true ↔ p < q := by
  obtain ⟨m, e, rfl, -, he, rfl⟩ := hx
  obtain ⟨m', e', rfl, -, he', rfl⟩ := hy
  have hunit : (0 : ℚ) < 2 ^ 1074 := by positivity
  show decide (units false m e < units false m' e') = true ↔ _
  rw [decide_eq_true_iff, ← Int.cast_lt (R := ℚ), units_spec m he, units_spec m' he',
    mul_lt_mul_iff_left₀ hunit]

/-- The seconds of a number are rounded to the nearest nanosecond. -/
theorem StandsFor.duration (hx : x.StandsFor q) :
    ∃ r, IsNearest r (q * Duration.perSecond) ∧
      Duration.ofBinary64? x = if 2 ^ 64 ≤ q then none else some ⟨r⟩ := by
  obtain ⟨m, e, rfl, -, -, rfl⟩ := hx
  obtain ⟨hden, hvalue⟩ := scaled_spec m e
  have hpos : (0 : ℚ) < (scaled m e).2 := by exact_mod_cast hden
  refine ⟨roundHalfEven ((scaled m e).1 * Duration.perSecond) (scaled m e).2, ?_, ?_⟩
  · have hnearest := isNearest_roundHalfEven ((scaled m e).1 * Duration.perSecond) hden
    rwa [Nat.cast_mul, mul_div_right_comm, hvalue] at hnearest
  · have hlarge : wordSize 64 * (scaled m e).2 ≤ (scaled m e).1 ↔
        (2 : ℚ) ^ 64 ≤ m * 2 ^ e := by
      rw [← hvalue, le_div_iff₀ hpos]
      exact_mod_cast Iff.rfl
    show (if (false && m != 0) = true then none
      else if wordSize 64 * (scaled m e).2 ≤ (scaled m e).1 then none
      else some (Duration.mk (roundHalfEven ((scaled m e).1 * Duration.perSecond)
        (scaled m e).2))) = _
    rw [Bool.false_and, if_neg Bool.false_ne_true]
    simp only [hlarge]

end Sequencer.Binary64
