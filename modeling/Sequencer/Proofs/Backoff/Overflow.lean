import Sequencer.Proofs.Backoff.Cap
import Sequencer.Proofs.Handler.Standing

/-!
# Overflow — growth that leaves the range of doubles

A power of the factor is computed by repeated squaring, and each product is rounded once.  A product
that is too great for a double is infinite, and zero times infinity is no number.  So a delay that
starts at zero stays zero only as long as the power is finite; from then on it is taken for a delay
above the cap.
-/

namespace Sequencer

namespace Binary64

variable {x y : Binary64}

/-! ## 1. The range of doubles -/

theorem zpow_two_add (b : Nat) (e : Int) : (2 : ℚ) ^ ((b : Int) + e) = 2 ^ b * 2 ^ e := by
  rw [zpow_add₀ two_ne_zero, zpow_natCast]

/-- A significand and its last place, with a carry halved, are a number up to the last exponent. -/
theorem isFinite_packed_iff (negative : Bool) (a : Nat) (e : Int) :
    (if a = wordSize precision then packed negative (wordSize (precision - 1)) (e + 1)
      else packed negative a e).isFinite = true ↔
      e < maxExponent ∨ e = maxExponent ∧ a ≠ wordSize precision := by
  unfold packed
  by_cases hcarry : a = wordSize precision
  · rw [if_pos hcarry]
    split <;> simp only [isFinite, Bool.false_eq_true, false_iff, true_iff] <;> omega
  · rw [if_neg hcarry]
    split <;> simp only [isFinite, Bool.false_eq_true, false_iff, true_iff] <;> omega

/-- A positive fraction is rounded to a number up to half a unit above the greatest one. -/
theorem isFinite_ofFraction_iff (negative : Bool) {n d : Nat} (hn : 0 < n) (hd : 0 < d) :
    (ofFraction negative n d).isFinite = true ↔
      (n : ℚ) / d < (2 ^ 53 - 1 / 2) * 2 ^ (971 : ℤ) := by
  obtain ⟨k, a, hlow, hhigh, hnearest, hbound, hpacked⟩ := ofFraction_packed negative hn hd
  rw [hpacked, isFinite_packed_iff]
  have hplace : lastPlace k = max (-1074) (k - 52) := rfl
  have hexponent : maxExponent = 971 := rfl
  have hunit : (0 : ℚ) < 2 ^ (971 : ℤ) := by positivity
  rcases lt_trichotomy k 1023 with hk | rfl | hk
  · have hle : (2 : ℚ) ^ (k + 1) ≤ 2 ^ (52 + 971 : ℤ) :=
      zpow_le_zpow_right₀ one_le_two (by omega)
    have hsplit : (2 : ℚ) ^ (52 + 971 : ℤ) = 2 ^ 52 * 2 ^ (971 : ℤ) := zpow_two_add 52 971
    refine iff_of_true (by omega) (lt_of_lt_of_le hhigh (hle.trans ?_))
    rw [hsplit]
    exact mul_le_mul_of_nonneg_right (by norm_num) hunit.le
  · -- The last numbers end half a unit before the next power of two.
    have hlast : lastPlace 1023 = 971 := rfl
    rw [hlast] at hnearest ⊢
    rw [← div_lt_iff₀ hunit]
    generalize (n : ℚ) / d / 2 ^ (971 : ℤ) = p at *
    constructor
    · rintro (hlt | ⟨-, hne⟩)
      · omega
      · have hle : (a : ℚ) + 1 ≤ 2 ^ 53 := by exact_mod_cast lt_of_le_of_ne hbound hne
        have hbelow := hnearest.below
        refine lt_of_le_of_ne (by linarith) fun hhalf => ?_
        have hodd : (a : ℚ) + 1 = 2 ^ 53 := by linarith
        have hodd' : a + 1 = 2 ^ 53 := by exact_mod_cast hodd
        have heven := hnearest.tie (.inr (by linarith))
        omega
    · rintro hlt
      refine .inr ⟨rfl, fun hcarry => ?_⟩
      have habove := hnearest.above
      rw [hcarry] at habove
      norm_num [precision] at habove hlt
      linarith
  · have hle : (2 : ℚ) ^ (53 + 971 : ℤ) ≤ 2 ^ k := zpow_le_zpow_right₀ one_le_two (by omega)
    have hsplit : (2 : ℚ) ^ (53 + 971 : ℤ) = 2 ^ 53 * 2 ^ (971 : ℤ) := zpow_two_add 53 971
    refine iff_of_false (by omega) (not_lt.mpr (le_trans ?_ (hle.trans hlow)))
    rw [hsplit]
    exact mul_le_mul_of_nonneg_right (by norm_num) hunit.le

/-- A power of two is in the range, or it is not. -/
theorem two_pow_in_range (c : Nat) :
    (c ≤ 1023 → (2 : ℚ) ^ c < (2 ^ 53 - 1 / 2) * 2 ^ (971 : ℤ)) ∧
      (1024 ≤ c → (2 ^ 53 - 1 / 2) * 2 ^ (971 : ℤ) ≤ (2 : ℚ) ^ c) := by
  have hunit : (0 : ℚ) < 2 ^ (971 : ℤ) := by positivity
  have hin : (2 : ℚ) ^ (52 + 971 : ℤ) = 2 ^ 52 * 2 ^ (971 : ℤ) := zpow_two_add 52 971
  have hout : (2 : ℚ) ^ (53 + 971 : ℤ) = 2 ^ 53 * 2 ^ (971 : ℤ) := zpow_two_add 53 971
  rw [← zpow_natCast]
  constructor
  · intro h
    have hle : (2 : ℚ) ^ (c : ℤ) ≤ 2 ^ (52 + 971 : ℤ) :=
      zpow_le_zpow_right₀ one_le_two (by omega)
    refine lt_of_le_of_lt hle ?_
    rw [hin]
    exact mul_lt_mul_of_pos_right (by norm_num) hunit
  · intro h
    have hle : (2 : ℚ) ^ (53 + 971 : ℤ) ≤ 2 ^ (c : ℤ) :=
      zpow_le_zpow_right₀ one_le_two (by omega)
    refine le_trans ?_ hle
    rw [hout]
    exact mul_le_mul_of_nonneg_right (by norm_num) hunit.le

/-! ## 2. Bounds by powers of two -/

/-- Without its sign the number is at most `2 ^ b`. -/
def AtMost (b : Nat) : Binary64 → Prop
  | finite _ m e => (m : ℚ) * 2 ^ e ≤ 2 ^ b
  | _ => False

/-- Without its sign the number is at least `2 ^ b`, or it is infinite. -/
def AtLeast (b : Nat) : Binary64 → Prop
  | finite _ m e => 2 ^ b ≤ (m : ℚ) * 2 ^ e
  | infinite _ => True
  | nan => False

theorem AtMost.isFinite {b : Nat} (h : x.AtMost b) : x.isFinite = true := by
  cases x with
  | finite => rfl
  | _ => exact absurd h id

/-- A power of two is a multiple of the unit of a place that is not above it. -/
theorem two_zpow_eq_units {c e : Int} (h : e ≤ c) :
    (2 : ℚ) ^ c = ((2 ^ (c - e).toNat : Nat) : ℚ) * 2 ^ e := by
  rw [← Nat.pow_eq, natPow_eq_zpow (sub_nonneg.mpr h), ← zpow_add₀ two_ne_zero, sub_add_cancel]

theorem isNearest_self (k : Nat) : IsNearest k (k : ℚ) where
  above := by linarith
  below := by linarith
  tie h := absurd h (by norm_num)

/-- What is at most a power of two is rounded to at most that power. -/
theorem atMost_ofFraction (negative : Bool) {n d c : Nat} (hd : 0 < d)
    (h : (n : ℚ) / d ≤ 2 ^ c) (hc : c ≤ 1023) : (ofFraction negative n d).AtMost c := by
  rcases Nat.eq_zero_or_pos n with rfl | hn
  · show ((0 : Nat) : ℚ) * 2 ^ minExponent ≤ 2 ^ c
    rw [Nat.cast_zero, zero_mul]
    positivity
  have hfinite := (isFinite_ofFraction_iff negative hn hd).mpr
    (lt_of_le_of_lt h ((two_pow_in_range c).1 hc))
  obtain ⟨k, hlow, -, ⟨-, hinfinite⟩ | ⟨m, e, heq, -, -, a, hnearest, hrounded⟩⟩ :=
    ofFraction_spec negative hn hd
  · rw [hinfinite] at hfinite
    cases hfinite
  rw [heq]
  show (m : ℚ) * 2 ^ e ≤ 2 ^ c
  rw [← zpow_natCast] at h ⊢
  have hk : k ≤ c := (zpow_le_zpow_iff_right₀ (one_lt_two (α := ℚ))).mp (hlow.trans h)
  have hplace : lastPlace k ≤ c := by
    unfold lastPlace minExponent
    omega
  have hunit : (0 : ℚ) < 2 ^ lastPlace k := by positivity
  rw [two_zpow_eq_units hplace] at h ⊢
  have ha := hnearest.le ((div_le_iff₀ hunit).mpr h)
  rw [hrounded]
  exact mul_le_mul_of_nonneg_right (by exact_mod_cast ha) hunit.le

/-- What is at least a power of two is rounded to at least that power, and from `2 ^ 1024` on it is
infinite. -/
theorem atLeast_ofFraction (negative : Bool) {n d c : Nat} (hd : 0 < d)
    (h : 2 ^ c ≤ (n : ℚ) / d) : (ofFraction negative n d).AtLeast c ∧
      (1024 ≤ c → (ofFraction negative n d).isFinite = false) := by
  have hn : 0 < n := by
    rcases Nat.eq_zero_or_pos n with rfl | hn
    · rw [Nat.cast_zero, zero_div] at h
      exact absurd h (not_le.mpr (by positivity))
    · exact hn
  constructor
  · obtain ⟨k, hlow, hhigh, ⟨-, hinfinite⟩ | ⟨m, e, heq, -, -, a, hnearest, hrounded⟩⟩ :=
      ofFraction_spec negative hn hd
    · rw [hinfinite]
      trivial
    rw [heq]
    show (2 : ℚ) ^ c ≤ m * 2 ^ e
    rw [← zpow_natCast] at h ⊢
    have hk : (c : ℤ) < k + 1 :=
      (zpow_lt_zpow_iff_right₀ (one_lt_two (α := ℚ))).mp (lt_of_le_of_lt h hhigh)
    have hplace : lastPlace k ≤ k := by
      unfold lastPlace minExponent
      omega
    have hunit : (0 : ℚ) < 2 ^ lastPlace k := by positivity
    rw [two_zpow_eq_units hplace] at hlow
    have ha := (isNearest_self _).mono hnearest ((le_div_iff₀ hunit).mpr hlow)
    calc (2 : ℚ) ^ (c : ℤ) ≤ 2 ^ k := zpow_le_zpow_right₀ one_le_two (Int.lt_add_one_iff.mp hk)
      _ ≤ a * 2 ^ lastPlace k := by
          rw [two_zpow_eq_units hplace]
          exact mul_le_mul_of_nonneg_right (by exact_mod_cast ha) hunit.le
      _ = m * 2 ^ e := hrounded.symm
  · intro hgreat
    rw [Bool.eq_false_iff, ne_eq, isFinite_ofFraction_iff negative hn hd, not_lt]
    exact ((two_pow_in_range c).2 hgreat).trans h

/-! ## 3. Products -/

theorem mul_finite (s t : Bool) (m n : Nat) (e f : Int) :
    ∃ num den : Nat, 0 < den ∧ (num : ℚ) / den = m * 2 ^ e * (n * 2 ^ f) ∧
      mul (finite s m e) (finite t n f) = ofFraction (s != t) num den := by
  obtain ⟨hden, hvalue⟩ := scaled_spec (m * n) (e + f)
  refine ⟨(scaled (m * n) (e + f)).1, (scaled (m * n) (e + f)).2, hden, ?_, rfl⟩
  rw [hvalue, Nat.cast_mul, zpow_add₀ two_ne_zero]
  ring

/-- A product is rounded to a power of two at most, if the exact one is at most that. -/
theorem AtMost.mul {a b : Nat} (hx : x.AtMost a) (hy : y.AtMost b) (h : a + b ≤ 1023) :
    (mul x y).AtMost (a + b) := by
  cases x with
  | nan => exact absurd hx id
  | infinite => exact absurd hx id
  | finite s m e =>
    cases y with
    | nan => exact absurd hy id
    | infinite => exact absurd hy id
    | finite t n f =>
      obtain ⟨num, den, hden, hvalue, hmul⟩ := mul_finite s t m n e f
      rw [hmul]
      refine atMost_ofFraction _ hden ?_ h
      rw [hvalue, pow_add]
      exact mul_le_mul hx hy (by positivity) (by positivity)

theorem AtLeast.ne_zero {s : Bool} {c m : Nat} {e : Int} (h : (finite s m e).AtLeast c) :
    m ≠ 0 := by
  rintro rfl
  have hle : (2 : ℚ) ^ c ≤ (0 : Nat) * 2 ^ e := h
  rw [Nat.cast_zero, zero_mul] at hle
  exact absurd hle (not_le.mpr (by positivity))

/-- A product is rounded to a power of two at least, if the exact one is at least that, and from
`2 ^ 1024` on it is infinite. -/
theorem AtLeast.mul {a b : Nat} (hx : x.AtLeast a) (hy : y.AtLeast b) :
    (mul x y).AtLeast (a + b) ∧ (1024 ≤ a + b → (mul x y).isFinite = false) := by
  cases x with
  | nan => exact absurd hx id
  | infinite s =>
    cases y with
    | nan => exact absurd hy id
    | infinite t => exact ⟨trivial, fun _ => rfl⟩
    | finite t n f =>
      simp only [Binary64.mul, if_neg hy.ne_zero]
      exact ⟨trivial, fun _ => rfl⟩
  | finite s m e =>
    cases y with
    | nan => exact absurd hy id
    | infinite t =>
      simp only [Binary64.mul, if_neg hx.ne_zero]
      exact ⟨trivial, fun _ => rfl⟩
    | finite t n f =>
      obtain ⟨num, den, hden, hvalue, hmul⟩ := mul_finite s t m n e f
      rw [hmul]
      refine atLeast_ofFraction _ hden ?_
      rw [hvalue, pow_add]
      exact mul_le_mul hx hy (by positivity) (le_trans (by positivity) hx)

/-! ## 4. Powers -/

/-- The bits of `k` above the lowest one count twice. -/
theorem add_mul_halves (a b k : Nat) :
    a + b * k = a + b * (k % 2) + (b + b) * (k / 2) := by
  conv_lhs => rw [← Nat.div_add_mod k 2]
  ring

theorem powFrom_atMost {a b : Nat} (k : Nat) (hx : x.AtMost a) (hy : y.AtMost b)
    (h : a + b * k ≤ 1023) : (powFrom x y k).AtMost (a + b * k) := by
  induction k using Nat.strong_induction_on generalizing a b x y with
  | _ k ih =>
    have hsum := add_mul_halves a b k
    rw [hsum] at h ⊢
    have hacc : (if k % 2 = 1 then mul x y else x).AtMost (a + b * (k % 2)) := by
      rcases Nat.mod_two_eq_zero_or_one k with hzero | hone
      · rw [hzero, if_neg (by decide)]
        exact hx
      · rw [hone, Nat.mul_one] at h ⊢
        exact hx.mul hy (le_trans (Nat.le_add_right _ _) h)
    rw [powFrom]
    split
    · next hlast =>
      rw [hlast, Nat.mul_zero, Nat.add_zero]
      exact hacc
    · next hmore =>
      have hsquare : b + b ≤ 1023 :=
        le_trans (Nat.le_mul_of_pos_right _ (Nat.pos_of_ne_zero hmore)) (by omega)
      exact ih (k / 2) (by omega) hacc (hy.mul hy hsquare) h

/-- A power is a last product. -/
theorem powFrom_atLeast {a b k : Nat} (hk : 0 < k) (hx : x.AtLeast a) (hy : y.AtLeast b) :
    ∃ c d v w, v.AtLeast c ∧ w.AtLeast d ∧ c + d = a + b * k ∧ powFrom x y k = mul v w := by
  induction k using Nat.strong_induction_on generalizing a b x y with
  | _ k ih =>
    rw [powFrom]
    split
    · next hlast =>
      have hone : k = 1 := by omega
      refine ⟨a, b, x, y, hx, hy, by rw [hone, Nat.mul_one], ?_⟩
      rw [if_pos (by omega)]
    · next hmore =>
      have hacc : (if k % 2 = 1 then mul x y else x).AtLeast (a + b * (k % 2)) := by
        rcases Nat.mod_two_eq_zero_or_one k with hzero | hone
        · rw [hzero, if_neg (by decide)]
          exact hx
        · rw [hone, if_pos rfl, Nat.mul_one]
          exact (hx.mul hy).1
      obtain ⟨c, d, v, w, hv, hw, hsum, hmul⟩ :=
        ih (k / 2) (by omega) (Nat.pos_of_ne_zero hmore) hacc (hy.mul hy).1
      exact ⟨c, d, v, w, hv, hw, hsum.trans (add_mul_halves a b k).symm, hmul⟩

theorem one_eq : one = finite false (2 ^ 52) (-52) := by decide +kernel

theorem atMost_one : one.AtMost 0 := by
  rw [one_eq]
  show ((2 ^ 52 : Nat) : ℚ) * 2 ^ (-52 : ℤ) ≤ 2 ^ 0
  norm_num

theorem atLeast_one : one.AtLeast 0 := by
  rw [one_eq]
  show (2 : ℚ) ^ 0 ≤ ((2 ^ 52 : Nat) : ℚ) * 2 ^ (-52 : ℤ)
  norm_num

/-- A power that cannot pass `2 ^ 1023` is finite. -/
theorem isFinite_pow {b k : Nat} (hx : x.AtMost b) (h : b * k ≤ 1023) :
    (x.pow k).isFinite = true :=
  (powFrom_atMost k atMost_one hx (by omega)).isFinite

/-- A power that comes to `2 ^ 1024` is not. -/
theorem not_isFinite_pow {b k : Nat} (hx : x.AtLeast b) (h : 1024 ≤ b * k) :
    (x.pow k).isFinite = false := by
  have hk : 0 < k := by
    rcases Nat.eq_zero_or_pos k with rfl | hk
    · omega
    · exact hk
  obtain ⟨c, d, v, w, hv, hw, hsum, hmul⟩ := powFrom_atLeast hk atLeast_one hx
  unfold pow
  rw [hmul]
  exact (hv.mul hw).2 (by omega)

/-! ## 5. Zero -/

/-- A number without a sign. -/
def Unsigned : Binary64 → Prop
  | finite negative _ _ => negative = false
  | infinite negative => negative = false
  | nan => False

theorem unsigned_ofFraction (n : Nat) {d : Nat} (hd : 0 < d) :
    (ofFraction false n d).Unsigned := by
  rcases Nat.eq_zero_or_pos n with rfl | hn
  · rfl
  · obtain ⟨k, -, -, ⟨-, hinfinite⟩ | ⟨m, e, hfinite, -⟩⟩ := ofFraction_spec false hn hd
    · rw [hinfinite]
      rfl
    · rw [hfinite]
      rfl

theorem Unsigned.add (hx : x.Unsigned) (hy : y.Unsigned) : (x.add y).Unsigned := by
  cases x with
  | nan => exact absurd hx id
  | infinite s =>
    obtain rfl : s = false := hx
    cases y with
    | nan => exact absurd hy id
    | infinite t =>
      obtain rfl : t = false := hy
      rfl
    | finite => rfl
  | finite s m e =>
    obtain rfl : s = false := hx
    cases y with
    | nan => exact absurd hy id
    | infinite t => exact hy
    | finite t n f =>
      obtain rfl : t = false := hy
      obtain ⟨k, -, hadd⟩ := exists_add_finite m e n f
      have hsum : 0 ≤ units false m e + units false n f :=
        Int.add_nonneg (units_nonneg m e) (units_nonneg n f)
      rw [hadd]
      split
      · rfl
      · rw [decide_eq_false (not_lt.mpr hsum)]
        exact unsigned_ofFraction _ (Nat.two_pow_pos k)

theorem units_zero (negative : Bool) (e : Int) : units negative 0 e = 0 := by
  unfold units
  rw [Nat.zero_mul]
  cases negative <;> rfl

/-- What has no sign is not below zero, with a sign or without. -/
theorem Unsigned.not_lt_zero (hx : x.Unsigned) (negative : Bool) (e : Int) :
    x.lt (finite negative 0 e) = false := by
  cases x with
  | nan => rfl
  | infinite s => exact hx
  | finite s m f =>
    obtain rfl : s = false := hx
    show decide (units false m f < units negative 0 e) = false
    rw [units_zero, decide_eq_false_iff_not, not_lt]
    exact units_nonneg m f

theorem zero_not_lt (negative : Bool) (e : Int) : (finite negative 0 e).lt zero = false := by
  show decide (units negative 0 e < units false 0 minExponent) = false
  rw [units_zero, units_zero]
  rfl

/-- Zero times a number is zero, and zero times anything else is no number. -/
theorem zero_mul_cases (y : Binary64) :
    (y.isFinite = true ∧ ∃ negative, mul zero y = finite negative 0 minExponent) ∨
      (y.isFinite = false ∧ mul zero y = nan) := by
  cases y with
  | nan => exact .inr ⟨rfl, rfl⟩
  | infinite t => exact .inr ⟨rfl, rfl⟩
  | finite t n f =>
    refine .inl ⟨rfl, t, ?_⟩
    have hnum : (scaled (0 * n) (minExponent + f)).1 = 0 := by
      unfold scaled
      split
      · rw [Nat.zero_mul, Nat.zero_mul]
      · exact Nat.zero_mul n
    show ofFraction (false != t) (scaled (0 * n) (minExponent + f)).1 _ = _
    rw [hnum, ofFraction_zero, Bool.false_bne]

end Binary64

open Binary64

theorem Duration.unsigned_toBinary64 (d : Duration) : d.toBinary64.Unsigned := by
  obtain ⟨n, k, hk, hfraction, -⟩ := d.fraction_spec
  unfold toBinary64
  rw [hfraction]
  exact (unsigned_ofFraction _ Nat.one_pos).add (unsigned_ofFraction n hk)

namespace Backoff

variable {policy : Backoff}

/-- The growth up to a retry. -/
def power (policy : Backoff) (retry : Nat) : Binary64 :=
  policy.factor.pow (Nat.min retry maxExponent)

/-- What the jitter makes of a delay. -/
def spreadOf (policy : Backoff) (delay : Duration) : Spread :=
  match policy.jitter with
  | .decorrelated =>
    Jitter.decorrelated.applyDecorrelated (policy.first.min policy.max) delay policy.max
  | other => other.apply delay

theorem next_of_base {retry : Nat} {delay : Duration} (h : policy.base retry = .ok delay) :
    policy.next retry = .ok (policy.spreadOf delay) := by
  unfold next
  rw [h]
  rfl

/-- A zero delay is kept while the power is finite, and is the cap from then on. -/
theorem base_of_zero (hfirst : policy.first = .zero) (retry : Nat) :
    policy.base retry = .ok (if (policy.power retry).isFinite then .zero else policy.max) := by
  have hzero : Duration.zero.toBinary64 = zero := by decide +kernel
  have hgrown : policy.grown retry = mul zero (policy.power retry) := by
    unfold grown
    rw [hfirst, hzero]
    rfl
  rw [base_eq, hgrown]
  rcases zero_mul_cases (policy.power retry) with ⟨hfinite, negative, hmul⟩ | ⟨hfinite, hmul⟩
  · rw [hfinite, hmul, if_pos rfl, zero_not_lt, policy.max.unsigned_toBinary64.not_lt_zero,
      ofBinary64?_zero]
    rfl
  · rw [hfinite, hmul]
    rfl

/-- No jitter makes anything of a zero delay that starts at zero. -/
theorem spreadOf_zero (hfirst : policy.first = .zero) :
    policy.spreadOf .zero = .exactly .zero := by
  have hfloor : policy.first.min policy.max = .zero := by
    rw [hfirst]
    exact congrArg Duration.mk (Nat.zero_min _)
  unfold spreadOf
  rw [hfloor]
  cases policy.jitter with
  | decorrelated =>
    have hword : Duration.zero.millisWord = 0 := by decide
    unfold Jitter.applyDecorrelated
    simp only [hword]
    rw [if_pos (by
      rw [Nat.zero_mul]
      exact Nat.max_le.mpr ⟨(Nat.min_le_left _ _).trans (Nat.min_le_left _ _), Nat.le_refl 0⟩)]
  | none => rfl
  | full => rfl
  | equal => rfl

theorem next_of_zero (hfirst : policy.first = .zero) (retry : Nat) :
    policy.next retry =
      .ok (if (policy.power retry).isFinite then .exactly .zero
        else policy.spreadOf policy.max) := by
  rw [next_of_base (base_of_zero hfirst retry)]
  split
  · rw [spreadOf_zero hfirst]
  · rfl

/-- The exponent of a power stays below a word, which changes nothing of what is in range. -/
theorem power_in_range {b : Nat} (hfactor : policy.factor.AtMost b) {retry : Nat}
    (h : b * retry ≤ 1023) : (policy.power retry).isFinite = true :=
  isFinite_pow hfactor (le_trans (Nat.mul_le_mul_left b (Nat.min_le_left _ _)) h)

theorem power_out_of_range {b : Nat} (hfactor : policy.factor.AtLeast b) {retry : Nat}
    (h : 1024 ≤ b * retry) : (policy.power retry).isFinite = false := by
  refine not_isFinite_pow hfactor ?_
  rcases Nat.le_total retry maxExponent with hle | hle
  · rwa [show Nat.min retry maxExponent = retry from Nat.min_eq_left hle]
  · have hb : 0 < b := by
      rcases Nat.eq_zero_or_pos b with rfl | hb
      · omega
      · exact hb
    rw [show Nat.min retry maxExponent = maxExponent from Nat.min_eq_right hle]
    exact le_trans (by decide : 1024 ≤ maxExponent) (Nat.le_mul_of_pos_left _ hb)

end Backoff

/-! ## 6. Executions -/

namespace World

variable {η ι α : Type} {world : World ι α} {handler : Handler η}

theorem paused_mem_news {before : Handler η} {course : Course ι α} {reply : Course.Reply α}
    {turn : Handler.Turn η} {delay : Duration}
    (h : .paused delay ∈ Course.news before course reply turn) :
    turn.move = .pause delay ∧ delay.isZero = false := by
  rw [Course.news, List.mem_append, List.mem_append] at h
  rcases h with (hclosing | htold) | hopening
  · unfold Course.closing at hclosing
    split at hclosing
    · simp at hclosing
    · split at hclosing <;> simp at hclosing
    · split at hclosing <;> simp at hclosing
    · simp at hclosing
  · obtain ⟨event, -, hevent⟩ := List.mem_map.mp htold
    cases hevent
  · cases hmove : turn.move with
    | pause other =>
      rw [hmove, Course.opening] at hopening
      split at hopening
      · cases hopening
      · next hlong =>
        cases List.mem_singleton.mp hopening
        exact ⟨rfl, Bool.eq_false_iff.mpr hlong⟩
    | observe failure =>
      rw [hmove, Course.opening] at hopening
      split at hopening <;> simp at hopening
    | _ =>
      rw [hmove] at hopening
      simp [Course.opening] at hopening

/-- An execution whose delays start at zero waits only once the power has left the range. -/
theorem paused_of_zero (hfirst : handler.backoff.first = .zero) (n : Nat) {delay : Duration}
    (h : .paused delay ∈ (world.run handler n).2.log) :
    ∃ retry draw, retry < (world.run handler n).2.calls ∧
      (handler.backoff.power retry).isFinite = false ∧
      delay = (handler.backoff.spreadOf handler.backoff.max).pick draw := by
  refine (run_induction (P := fun after course => after.fresh = handler.fresh ∧
    0 < course.calls ∧ course.Counted handler.retries ∧ ∀ delay, .paused delay ∈ course.log →
      ∃ retry draw, retry < course.calls ∧ (handler.backoff.power retry).isFinite = false ∧
        delay = (handler.backoff.spreadOf handler.backoff.max).pick draw)
    ⟨rfl, Nat.one_pos, Course.counted_start handler world.input, fun delay h => ?_⟩ ?_ n).2.2.2
    delay h
  · simp [run, Course.start, Course.take, Handler.begin, Handler.attempt, Course.opening] at h
  · rintro before course reply after next ⟨hfresh, hcalls, counted, hpaused⟩ hadvance
    have hretries := Handler.retries_eq_of_fresh hfresh
    have hbackoff : before.backoff = handler.backoff := congrArg (·.backoff) hfresh
    obtain ⟨turn, turns, rfl, rfl⟩ := Course.advance_cases hadvance
    refine ⟨turns.fresh.trans hfresh, Nat.lt_of_lt_of_le hcalls (Nat.le_add_right _ _),
      hretries ▸ (hretries ▸ counted).goOn turns, fun delay h => ?_⟩
    rcases List.mem_append.mp h with hbefore | hnews
    · obtain ⟨retry, draw, hlt, hrest⟩ := hpaused delay hbefore
      exact ⟨retry, draw, Nat.lt_of_lt_of_le hlt (Nat.le_add_right _ _), hrest⟩
    · obtain ⟨hmove, hlong⟩ := paused_mem_news hnews
      cases turns with
      | pauses failure draw spread waits notLast next =>
        obtain rfl : spread.pick draw = delay := by simpa using hmove
        rw [hbackoff, Backoff.next_of_zero hfirst] at next
        split at next
        · cases next
          cases hlong
        · next hrange =>
          cases next
          refine ⟨course.state.attempts - 1, draw, ?_, Bool.eq_false_iff.mpr hrange, rfl⟩
          have hattempts : course.state.attempts = ordinal course.calls := by
            rw [counted.state, Course.standing_attempts]
          have hle : ordinal course.calls ≤ course.calls := Nat.min_le_left _ _
          exact lt_of_lt_of_le (by omega) (Nat.le_add_right _ _)
      | _ => cases hmove

end World

/-- A delay that starts at zero stays zero as long as the power of the factor is a number, and is
what the jitter makes of the cap as soon as it is not: zero times infinity is no number, and that is
taken for a delay above the cap.  If the factor is at most `2 ^ b` without its sign, every delay
before retry `k` is zero with `b * k` up to 1023, and so for ever if it is at most one; if it is at
least `2 ^ b`, no delay is kept from `b * k = 1024` on.  A handler with such delays attempts again
at once, and waits only before a retry whose power is no number. -/
theorem zero_delays_until_power_overflows (policy : Backoff) (hfirst : policy.first = .zero) :
    (∀ retry, policy.next retry =
      .ok (if (policy.power retry).isFinite then .exactly .zero
        else policy.spreadOf policy.max)) ∧
    (∀ b, policy.factor.AtMost b → ∀ retry, b * retry ≤ 1023 →
      policy.next retry = .ok (.exactly .zero)) ∧
    (∀ b, policy.factor.AtLeast b → ∀ retry, 1024 ≤ b * retry →
      policy.next retry = .ok (policy.spreadOf policy.max)) ∧
    ∀ {η ι α : Type} (world : World ι α) (handler : Handler η), handler.backoff = policy →
      ∀ replies delay, .paused delay ∈ (world.run handler replies).2.log →
        ∃ retry draw, retry < (world.run handler replies).2.inputs.length ∧
          (policy.power retry).isFinite = false ∧
          delay = (policy.spreadOf policy.max).pick draw := by
  refine ⟨Backoff.next_of_zero hfirst, fun b hfactor retry h => ?_, fun b hfactor retry h => ?_, ?_⟩
  · rw [Backoff.next_of_zero hfirst, if_pos (Backoff.power_in_range hfactor h)]
  · rw [Backoff.next_of_zero hfirst, Backoff.power_out_of_range hfactor h]
    rfl
  · rintro η ι α world handler rfl replies delay h
    rw [World.inputs_length_run]
    exact World.paused_of_zero hfirst replies h

/-- Zero delays that double, without jitter and at most five seconds long. -/
def Backoff.doubling : Backoff :=
  { first := .zero, max := .ofParts 5 0, factor := Binary64.ofNat 2, jitter := .none }

/-- The thousand and twenty-third retry follows at once, and the next one after five seconds. -/
theorem zero_delays_until_power_overflows_doubling :
    Backoff.doubling.first = .zero ∧ Backoff.doubling.factor.AtMost 1 ∧
      Backoff.doubling.factor.AtLeast 1 ∧
      Backoff.doubling.next 1023 = .ok (.exactly .zero) ∧
      Backoff.doubling.next 1024 = .ok (.exactly (.ofParts 5 0)) := by
  have hfactor : Backoff.doubling.factor = finite false (2 ^ 52) (-51) := by decide +kernel
  have hvalue : ((2 ^ 52 : Nat) : ℚ) * 2 ^ (-51 : ℤ) = 2 ^ 1 := by norm_num
  have hmost : Backoff.doubling.factor.AtMost 1 := by
    rw [hfactor]
    exact hvalue.le
  have hleast : Backoff.doubling.factor.AtLeast 1 := by
    rw [hfactor]
    exact hvalue.ge
  obtain ⟨-, hzero, hcap, -⟩ := zero_delays_until_power_overflows Backoff.doubling rfl
  exact ⟨rfl, hmost, hleast, hzero 1 hmost 1023 (by decide), hcap 1 hleast 1024 (by decide)⟩

end Sequencer
