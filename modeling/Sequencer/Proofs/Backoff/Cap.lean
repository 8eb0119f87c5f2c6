import Sequencer.Backoff
import Sequencer.Proofs.Backoff.Rounding

/-!
# Caps — how long a delay before a retry can get

A grown delay is compared with the cap as doubles, while the cap itself counts nanoseconds.  So a
delay can be longer than the cap by what the cap loses when it becomes a double, and a cap that
becomes `2 ^ 64` seconds lets delays pass that are no durations.
-/

namespace Sequencer

open Binary64

/-! ## 1. Durations as doubles -/

namespace Binary64

variable {x : Binary64} {q : ℚ}

/-- The numbers below `2 ^ 64` end at `2 ^ 64 - 2 ^ 11`. -/
theorem StandsFor.below (h : x.StandsFor q) (hq : q < 2 ^ 64) : q ≤ 2 ^ 64 - 2 ^ 11 := by
  obtain ⟨m, e, -, hm, -, rfl⟩ := h
  have hle : (m : ℚ) ≤ 2 ^ 53 - 1 := by
    have hm' : (m : ℚ) + 1 ≤ 2 ^ 53 := by exact_mod_cast hm
    linarith
  by_cases he : e ≤ 11
  · have hunit : (2 : ℚ) ^ e ≤ 2 ^ (11 : ℤ) := zpow_le_zpow_right₀ one_le_two he
    calc (m : ℚ) * 2 ^ e ≤ (2 ^ 53 - 1) * 2 ^ (11 : ℤ) := by gcongr
      _ = 2 ^ 64 - 2 ^ 11 := by norm_num
  · -- It is a multiple of `2 ^ 11`.
    have hsplit : (m : ℚ) * 2 ^ e = (m * 2 ^ (e - 11).toNat : Nat) * 2 ^ 11 := by
      rw [Nat.cast_mul, ← Nat.pow_eq, natPow_eq_zpow (by omega), mul_assoc]
      congr 1
      rw [← zpow_natCast 2 11, ← zpow_add₀ two_ne_zero]
      congr 1
      omega
    rw [hsplit] at hq ⊢
    have hlt : ((m * 2 ^ (e - 11).toNat : Nat) : ℚ) < 2 ^ 53 := by linarith
    have hlt' : m * 2 ^ (e - 11).toNat + 1 ≤ 2 ^ 53 := by exact_mod_cast hlt
    have hlast : ((m * 2 ^ (e - 11).toNat : Nat) : ℚ) + 1 ≤ 2 ^ 53 := by exact_mod_cast hlt'
    linarith

/-- A fraction that is nearer to them than to `2 ^ 64` is rounded to one of them. -/
theorem standsFor_below (n : Nat) {d : Nat} (hd : 0 < d) (h : (n : ℚ) / d < 2 ^ 64 - 2 ^ 10) :
    ∃ v, StandsFor (ofFraction false n d) v ∧ v ≤ 2 ^ 64 - 2 ^ 11 := by
  have hlt : (n : ℚ) / d < 2 ^ (64 : ℤ) := by
    norm_num at h ⊢
    linarith
  obtain ⟨v, hstands, hoff⟩ := off_of_lt n hd (by norm_num) (by norm_num) hlt
  refine ⟨v, hstands, hstands.below ?_⟩
  have hhigh := (abs_le.mp hoff).2
  norm_num at h hhigh ⊢
  linarith

theorem standsFor_wordSize : (ofNat (wordSize 64)).StandsFor (2 ^ 64) :=
  ⟨2 ^ 52, 12, by decide +kernel, by norm_num, by decide, by norm_num⟩

theorem units_signed (m : Nat) (e : Int) : units true m e = -units false m e := rfl

theorem units_nonneg (m : Nat) (e : Int) : 0 ≤ units false m e := Int.natCast_nonneg _

/-- What has a sign is below `2 ^ 64`. -/
theorem lt_wordSize (m : Nat) (e : Int) : (finite true m e).lt (ofNat (wordSize 64)) = true := by
  obtain ⟨m', e', hword, -, he', hvalue⟩ := standsFor_wordSize
  have hpos : (0 : ℚ) < units false m' e' := by
    rw [units_spec m' he', hvalue]
    positivity
  have hpos' : 0 < units false m' e' := by exact_mod_cast hpos
  have hsign := units_nonneg m e
  rw [hword]
  show decide (units true m e < units false m' e') = true
  rw [decide_eq_true_iff, units_signed]
  omega

/-- What has a sign and is not below zero is zero. -/
theorem eq_zero_of_signed {m : Nat} {e : Int} (h : (finite true m e).lt zero = false) : m = 0 := by
  by_contra hpos
  have hunits : 0 < m * Nat.pow 2 (e - minExponent).toNat :=
    Nat.mul_pos (Nat.pos_of_ne_zero hpos) (Nat.two_pow_pos _)
  have hbelow : (finite true m e).lt zero = true := by
    show decide (-((m * Nat.pow 2 (e - minExponent).toNat : Nat) : Int) < 0) = true
    rw [decide_eq_true_iff]
    omega
  cases hbelow.symm.trans h

end Binary64

namespace Duration

variable {d : Duration}

theorem nanoseconds_eq (d : Duration) :
    (d.nanoseconds : ℚ) = d.seconds * perSecond + d.subsecond := by
  have hsplit := Nat.div_add_mod d.nanoseconds perSecond
  have hcast : (d.nanoseconds : ℚ) = perSecond * d.seconds + d.subsecond := by
    exact_mod_cast hsplit.symm
  rw [hcast, mul_comm]

theorem subsecond_lt (d : Duration) : (d.subsecond : ℚ) ≤ perSecond - 1 := by
  have hlt : d.subsecond < perSecond := Nat.mod_lt _ (by decide)
  have hle : (d.subsecond : ℚ) + 1 ≤ perSecond := by exact_mod_cast hlt
  linarith

/-- The part after the last whole second. -/
theorem fraction_spec (d : Duration) :
    ∃ n k, 0 < k ∧ (ofNat d.subsecond).div (ofNat perSecond) = ofFraction false n k ∧
      (n : ℚ) / k = d.subsecond / perSecond := by
  have hlt : d.subsecond < perSecond := Nat.mod_lt _ (by decide)
  have hpart := standsFor_ofNat (lt_trans hlt (by decide : perSecond < 2 ^ 53))
  have hwhole := standsFor_ofNat (by decide : perSecond < 2 ^ 53)
  exact hpart.div hwhole (by norm_num [perSecond])

theorem fraction_near (d : Duration) :
    ∃ v, ((ofNat d.subsecond).div (ofNat perSecond)).StandsFor v ∧
      |v - d.subsecond / perSecond| ≤ 2 ^ (-54 : ℤ) ∧ v < 1 := by
  obtain ⟨n, k, hk, hdiv, hvalue⟩ := d.fraction_spec
  have hpart := d.subsecond_lt
  have hone : (n : ℚ) / k < 2 ^ (0 : ℤ) := by
    rw [hvalue, zpow_zero, div_lt_one (by norm_num [perSecond])]
    linarith
  obtain ⟨v, hstands, hoff⟩ := off_of_lt n hk (by norm_num) (by norm_num) hone
  rw [hvalue] at hoff
  refine ⟨v, hdiv ▸ hstands, hoff, ?_⟩
  have hhigh := (abs_le.mp hoff).2
  have hle : (d.subsecond : ℚ) / perSecond ≤ 1 - 1 / perSecond := by
    rw [div_le_iff₀ (by norm_num [perSecond])]
    norm_num [perSecond] at hpart ⊢
    linarith
  norm_num [perSecond] at hle hhigh
  linarith

/-- A duration below `2 ^ 23` seconds becomes a double without losing a nanosecond. -/
theorem ofBinary64?_toBinary64 (h : d.nanoseconds < 2 ^ 23 * perSecond) :
    ofBinary64? d.toBinary64 = some d := by
  have hseconds : d.seconds < 2 ^ 23 := Nat.div_lt_of_lt_mul (by rwa [Nat.mul_comm] at h)
  have hseconds' : (d.seconds : ℚ) + 1 ≤ 2 ^ 23 := by exact_mod_cast hseconds
  obtain ⟨v, hpart, hoff, hone⟩ := d.fraction_near
  obtain ⟨n, k, hk, hadd, hsum⟩ :=
    (standsFor_ofNat (lt_trans hseconds (by norm_num : 2 ^ 23 < 2 ^ 53))).add hpart
  have hlt : (n : ℚ) / k < 2 ^ (23 : ℤ) := by
    rw [hsum]
    norm_num at hseconds' ⊢
    linarith
  obtain ⟨w, hstands, hoff'⟩ := off_of_lt n hk (by norm_num) (by norm_num) hlt
  rw [← hadd] at hstands
  rw [hsum] at hoff'
  obtain ⟨r, hnearest, hduration⟩ := StandsFor.duration (x := d.toBinary64) hstands
  obtain ⟨hlow, hhigh⟩ := abs_le.mp hoff
  obtain ⟨hlow', hhigh'⟩ := abs_le.mp hoff'
  have hpart' : (d.subsecond : ℚ) / perSecond * perSecond = d.subsecond :=
    div_mul_cancel₀ _ (by norm_num [perSecond])
  have hr : r = d.nanoseconds := by
    apply hnearest.eq
    rw [d.nanoseconds_eq, ← hpart', abs_lt]
    generalize (d.subsecond : ℚ) / perSecond = part at *
    norm_num [perSecond] at hlow hhigh hlow' hhigh' ⊢
    constructor <;> linarith
  rw [hduration, if_neg, hr]
  norm_num at hlow hhigh hlow' hhigh' hseconds' ⊢
  linarith

/-- The double of a duration is below `2 ^ 64` unless its seconds are next to it. -/
theorem toBinary64_below (h : d.seconds < wordSize 64 - 1024) :
    ∃ v, d.toBinary64.StandsFor v ∧ v ≤ 2 ^ 64 - 2 ^ 11 := by
  have hseconds : d.seconds + 1025 ≤ 2 ^ 64 := by
    unfold wordSize at h
    norm_num at h ⊢
    omega
  have hseconds' : (d.seconds : ℚ) + 1025 ≤ 2 ^ 64 := by exact_mod_cast hseconds
  have hwhole : (d.seconds : ℚ) / (1 : Nat) < 2 ^ 64 - 2 ^ 10 := by
    rw [Nat.cast_one, div_one]
    norm_num at hseconds' ⊢
    linarith
  obtain ⟨u, hu, hbound⟩ := standsFor_below d.seconds Nat.one_pos hwhole
  obtain ⟨v, hpart, -, hone⟩ := d.fraction_near
  obtain ⟨n, k, hk, hadd, hsum⟩ := StandsFor.add (x := ofNat d.seconds) hu hpart
  have hlt : (n : ℚ) / k < 2 ^ 64 - 2 ^ 10 := by
    rw [hsum]
    norm_num at hbound ⊢
    linarith
  obtain ⟨w, hstands, hlast⟩ := standsFor_below n hk hlt
  rw [← hadd] at hstands
  exact ⟨w, hstands, hlast⟩

/-- How far the double of a duration can be above it. -/
theorem toBinary64_near (h : d.seconds < wordSize 64) {w : ℚ} (hw : d.toBinary64.StandsFor w) :
    w * perSecond ≤ d.nanoseconds * (1 + 1 / 2 ^ 51) + 1 / 2 := by
  have hseconds : (d.seconds : ℚ) / (1 : Nat) < 2 ^ (64 : ℤ) := by
    rw [Nat.cast_one, div_one]
    exact_mod_cast h
  have hpart := d.subsecond_lt
  have hone : (d.subsecond : ℚ) / perSecond < 2 ^ (0 : ℤ) := by
    rw [zpow_zero, div_lt_one (by norm_num [perSecond])]
    linarith
  have hpart' : (d.subsecond : ℚ) / perSecond * perSecond = d.subsecond :=
    div_mul_cancel₀ _ (by norm_num [perSecond])
  have hpos : (0 : ℚ) ≤ (d.subsecond : ℚ) / perSecond := by positivity
  have htiny : (2 : ℚ) ^ (-1075 : ℤ) ≤ 2 ^ (-64 : ℤ) :=
    zpow_le_zpow_right₀ one_le_two (by norm_num)
  rw [d.nanoseconds_eq, ← hpart']
  -- The seconds, the part of a second and their sum are rounded one after the other.
  obtain ⟨n, k, hk, hdiv, hvalue⟩ := d.fraction_spec
  rw [← hvalue] at hone
  obtain ⟨u, hu, hoff⟩ := off_le d.seconds Nat.one_pos (by norm_num) hseconds
  obtain ⟨v, hv, hoff'⟩ := off_le n hk (by norm_num) hone
  rw [← hdiv] at hv
  obtain ⟨n', k', hk', hadd, hsum⟩ := StandsFor.add (x := ofNat d.seconds) hu hv
  have hhigh := (abs_le.mp hoff).2.trans (add_le_add_right htiny _)
  have hhigh' := (abs_le.mp hoff').2.trans (add_le_add_right htiny _)
  rw [Nat.cast_one, div_one] at hhigh
  rw [hvalue] at hhigh' hone
  generalize (d.subsecond : ℚ) / perSecond = part at *
  have hsmall : (n' : ℚ) / k' < 2 ^ (66 : ℤ) := by
    have hbound : (d.seconds : ℚ) + 1 ≤ 2 ^ 64 := by exact_mod_cast h
    rw [hsum]
    norm_num at hbound hone hhigh hhigh' ⊢
    linarith
  obtain ⟨w', hw', hoff''⟩ := off_le n' hk' (by norm_num) hsmall
  rw [← hadd] at hw'
  obtain rfl := hw.unique hw'
  have hhigh'' := (abs_le.mp hoff'').2.trans (add_le_add_right htiny _)
  rw [hsum] at hhigh''
  have hpos' : (0 : ℚ) ≤ d.seconds := Nat.cast_nonneg _
  norm_num [perSecond] at hhigh hhigh' hhigh'' ⊢
  linarith

theorem ofBinary64?_mono {x y : Binary64} {p q : ℚ} {e : Duration} (hx : x.StandsFor p)
    (hy : y.StandsFor q) (h : p ≤ q) (he : ofBinary64? y = some e) :
    ∃ c, ofBinary64? x = some c ∧ c ≤ e := by
  obtain ⟨r, hr, hdx⟩ := hx.duration
  obtain ⟨t, ht, hdy⟩ := hy.duration
  rw [hdy] at he
  split at he
  · cases he
  · next hsmall =>
    cases he
    refine ⟨⟨r⟩, ?_, hr.mono ht (mul_le_mul_of_nonneg_right h (Nat.cast_nonneg _))⟩
    rw [hdx, if_neg]
    exact fun hlarge => hsmall (hlarge.trans h)

/-- The double of a duration is read back as one that is hardly longer. -/
theorem ofBinary64?_near {rounded : Duration} (h : d.seconds < wordSize 64 - 1024)
    (hrounded : ofBinary64? d.toBinary64 = some rounded) :
    (rounded.nanoseconds : ℚ) ≤ d.nanoseconds * (1 + 1 / 2 ^ 51) + 1 := by
  obtain ⟨w, hw, -⟩ := toBinary64_below h
  have hnear := toBinary64_near (lt_of_lt_of_le h (Nat.sub_le _ _)) hw
  obtain ⟨r, hr, hduration⟩ := hw.duration
  rw [hduration] at hrounded
  split at hrounded
  · cases hrounded
  · cases hrounded
    have habove := hr.above
    linarith

end Duration

/-! ## 2. Jitter -/

namespace Jitter

theorem millisWord_le (delay : Duration) : delay.millisWord ≤ delay.millis := Nat.mod_le _ _

/-- A draw never selects more than the greatest delay. -/
theorem pick_le {low high : Nat} {delay : Duration} (h : low ≤ high) (hhigh : high ≤ delay.millis)
    (draw : Nat) : (Spread.wholeMillis low high).pick draw ≤ delay := by
  have hdraw : draw % (high - low + 1) < high - low + 1 := Nat.mod_lt _ (Nat.succ_pos _)
  have hle : low + draw % (high - low + 1) ≤ delay.millis := by omega
  exact Nat.le_trans (Nat.mul_le_mul_right _ hle) (Nat.div_mul_le_self _ _)

theorem apply_le (jitter : Jitter) (delay : Duration) (draw : Nat) :
    (jitter.apply delay).pick draw ≤ delay := by
  have hword := millisWord_le delay
  unfold apply
  simp only
  split
  · exact Nat.le_refl _
  · cases jitter with
    | none => exact Nat.le_refl _
    | decorrelated => exact Nat.le_refl _
    | full => exact pick_le (Nat.zero_le _) hword draw
    | equal => exact pick_le (Nat.le_add_right _ _) (by omega) draw

theorem applyDecorrelated_le {base prev max : Duration} (h : base ≤ max) (draw : Nat) :
    (decorrelated.applyDecorrelated base prev max).pick draw ≤ max := by
  have hword := millisWord_le max
  unfold applyDecorrelated
  simp only
  generalize htripled : Nat.min (prev.millisWord * 3) (maxWord 64) = tripled
  have hcapped : Nat.min tripled max.millisWord ≤ max.millisWord := Nat.min_le_right _ _
  generalize Nat.min tripled max.millisWord = capped at *
  rcases Nat.le_total capped base.millisWord with hle | hle
  · rw [show Nat.max capped base.millisWord = base.millisWord from Nat.max_eq_right hle,
      if_pos (Nat.le_refl _)]
    exact h
  · rw [show Nat.max capped base.millisWord = capped from Nat.max_eq_left hle]
    split
    · exact h
    · exact pick_le hle (hcapped.trans hword) draw

end Jitter

/-! ## 3. Growth -/

theorem sound_mul (x y : Binary64) : (x.mul y).Sound := by
  unfold Binary64.mul
  split
  · trivial
  · trivial
  · trivial
  · split <;> trivial
  · split <;> trivial
  · next s m e t n f => exact sound_ofFraction _ _ (scaled_spec (m * n) (e + f)).1

/-- Zero seconds are no time at all, with a sign or without. -/
theorem ofBinary64?_zero (negative : Bool) (e : Int) :
    Duration.ofBinary64? (finite negative 0 e) = some .zero := by
  obtain ⟨hden, hvalue⟩ := scaled_spec 0 e
  have hnum : (scaled 0 e).1 = 0 := by
    rw [Nat.cast_zero, zero_mul, div_eq_zero_iff] at hvalue
    rcases hvalue with hnum | hzero
    · exact_mod_cast hnum
    · exact absurd (by exact_mod_cast hzero) hden.ne'
  have hround : roundHalfEven 0 (scaled 0 e).2 = 0 := by
    unfold roundHalfEven
    simp [hden]
  show (if (negative && 0 != 0) = true then none
    else if wordSize 64 * (scaled 0 e).2 ≤ (scaled 0 e).1 then none
    else some (Duration.mk (roundHalfEven ((scaled 0 e).1 * Duration.perSecond)
      (scaled 0 e).2))) = _
  rw [hnum, Nat.zero_mul, hround, if_neg (by cases negative <;> decide), if_neg]
  · rfl
  · exact not_le.mpr (Nat.mul_pos (Nat.two_pow_pos 64) hden)

namespace Backoff

/-- The first delay in seconds, grown for a retry. -/
def grown (policy : Backoff) (retry : Nat) : Binary64 :=
  policy.first.toBinary64.mul (policy.factor.pow (Nat.min retry maxExponent))

theorem base_eq (policy : Backoff) (retry : Nat) :
    policy.base retry =
      if !(policy.grown retry).isFinite || (policy.grown retry).lt zero ||
          policy.max.toBinary64.lt (policy.grown retry) then
        .ok policy.max
      else match Duration.ofBinary64? (policy.grown retry) with
        | some delay => .ok delay
        | none => .error {} := rfl

/-- The delay is the cap, or nothing, or what a grown delay under the cap comes to. -/
theorem base_cases (policy : Backoff) (retry : Nat) :
    policy.base retry = .ok policy.max ∨ policy.base retry = .ok .zero ∨
      ∃ q, (policy.grown retry).StandsFor q ∧
        policy.max.toBinary64.lt (policy.grown retry) = false ∧
        policy.base retry = match Duration.ofBinary64? (policy.grown retry) with
          | some delay => .ok delay
          | none => .error {} := by
  have hsound : (policy.grown retry).Sound := sound_mul _ _
  rw [base_eq]
  cases hgrown : policy.grown retry with
  | nan => exact .inl rfl
  | infinite negative => exact .inl rfl
  | finite negative m e =>
    rw [hgrown] at hsound
    split
    · exact .inl rfl
    · next hkept =>
      simp only [Bool.or_eq_true, not_or, Bool.not_eq_true] at hkept
      cases negative with
      | false => exact .inr (.inr ⟨_, ⟨m, e, rfl, hsound.1, hsound.2, rfl⟩, hkept.2, rfl⟩)
      | true =>
        obtain rfl := eq_zero_of_signed hkept.1.2
        exact .inr (.inl (by rw [ofBinary64?_zero]))

theorem grown_large {policy : Backoff} {retry : Nat}
    (hfinite : (policy.grown retry).isFinite = true)
    (hlarge : (policy.grown retry).lt (ofNat (wordSize 64)) = false) :
    ∃ q, (policy.grown retry).StandsFor q ∧ 2 ^ 64 ≤ q := by
  have hsound : (policy.grown retry).Sound := sound_mul _ _
  cases hgrown : policy.grown retry with
  | nan => rw [hgrown] at hfinite; cases hfinite
  | infinite negative => rw [hgrown] at hfinite; cases hfinite
  | finite negative m e =>
    rw [hgrown] at hlarge hsound
    cases negative with
    | true => cases (lt_wordSize m e).symm.trans hlarge
    | false =>
      have hstands : (finite false m e).StandsFor (m * 2 ^ e) :=
        ⟨m, e, rfl, hsound.1, hsound.2, rfl⟩
      rw [← Bool.not_eq_true, hstands.lt_iff standsFor_wordSize, not_lt] at hlarge
      exact ⟨_, hstands, hlarge⟩

/-- There is no delay exactly if the grown one is not above the cap and still no duration. -/
theorem base_error_iff (policy : Backoff) (retry : Nat) :
    (∃ fault, policy.base retry = .error fault) ↔
      (policy.grown retry).isFinite = true ∧
        (policy.grown retry).lt (ofNat (wordSize 64)) = false ∧
        policy.max.toBinary64.lt (policy.grown retry) = false := by
  constructor
  · rintro ⟨fault, herror⟩
    rcases policy.base_cases retry with hmax | hzero | ⟨q, hgrown, hcap, hbase⟩
    · cases hmax.symm.trans herror
    · cases hzero.symm.trans herror
    · obtain ⟨r, -, hduration⟩ := hgrown.duration
      have hlarge : 2 ^ 64 ≤ q := by
        by_contra hsmall
        rw [hduration, if_neg hsmall] at hbase
        cases hbase.symm.trans herror
      refine ⟨?_, ?_, hcap⟩
      · obtain ⟨m, e, hfinite, -⟩ := hgrown
        rw [hfinite]
        rfl
      · rw [← Bool.not_eq_true, hgrown.lt_iff standsFor_wordSize]
        exact not_lt.mpr hlarge
  · rintro ⟨hfinite, hlarge, hcap⟩
    obtain ⟨q, hgrown, hq⟩ := grown_large hfinite hlarge
    obtain ⟨r, -, hduration⟩ := hgrown.duration
    have hzero : (policy.grown retry).lt zero = false := by
      rw [← Bool.not_eq_true, hgrown.lt_iff standsFor_zero, not_lt]
      exact le_trans (by positivity) hq
    rw [base_eq, hfinite, hzero, hcap, hduration, if_pos hq]
    exact ⟨{}, rfl⟩

/-- A delay is within the cap, or at least within what the cap is as a double. -/
theorem base_le {policy : Backoff} {retry : Nat} {delay : Duration}
    (h : policy.base retry = .ok delay) :
    delay ≤ policy.max ∨ policy.max.seconds < wordSize 64 - 1024 ∧
      ∃ rounded, Duration.ofBinary64? policy.max.toBinary64 = some rounded ∧ delay ≤ rounded := by
  rcases policy.base_cases retry with hmax | hzero | ⟨q, hgrown, hcap, hbase⟩
  · cases hmax.symm.trans h
    exact .inl (Nat.le_refl _)
  · cases hzero.symm.trans h
    exact .inl (Nat.zero_le _)
  · obtain ⟨r, hr, hduration⟩ := hgrown.duration
    by_cases hlarge : 2 ^ 64 ≤ q
    · rw [hduration, if_pos hlarge] at hbase
      cases hbase.symm.trans h
    rw [hduration, if_neg hlarge] at hbase
    cases hbase.symm.trans h
    by_cases hseconds : policy.max.seconds < wordSize 64 - 1024
    · right
      refine ⟨hseconds, ?_⟩
      obtain ⟨w, hw, hbelow⟩ := Duration.toBinary64_below hseconds
      rw [← Bool.not_eq_true, hw.lt_iff hgrown, not_lt] at hcap
      obtain ⟨t, -, hrounded⟩ := hw.duration
      have hsmall : ¬ 2 ^ 64 ≤ w := by
        norm_num at hbelow ⊢
        linarith
      rw [if_neg hsmall] at hrounded
      obtain ⟨c, hc, hle⟩ := Duration.ofBinary64?_mono hgrown hw hcap hrounded
      rw [hduration, if_neg hlarge] at hc
      cases hc
      exact ⟨_, hrounded, hle⟩
    · -- No double below `2 ^ 64` is as long as such a cap.
      left
      have hbelow := hgrown.below (not_le.mp hlarge)
      have hle : r ≤ (2 ^ 64 - 2 ^ 11) * Duration.perSecond := by
        apply hr.le
        have hscaled := mul_le_mul_of_nonneg_right hbelow
          (Nat.cast_nonneg (α := ℚ) Duration.perSecond)
        norm_num at hscaled ⊢
        exact hscaled
      have hsplit := Nat.div_mul_le_self policy.max.nanoseconds Duration.perSecond
      have hcap' : 2 ^ 64 - 2 ^ 11 ≤ policy.max.seconds := by
        unfold wordSize at hseconds
        norm_num at hseconds ⊢
        omega
      exact hle.trans ((Nat.mul_le_mul_right _ hcap').trans hsplit)

theorem next_error_iff (policy : Backoff) (retry : Nat) :
    (∃ fault, policy.next retry = .error fault) ↔ ∃ fault, policy.base retry = .error fault := by
  unfold next
  cases policy.base retry with
  | error fault => exact ⟨fun _ => ⟨fault, rfl⟩, fun _ => ⟨fault, rfl⟩⟩
  | ok delay => exact ⟨nofun, nofun⟩

/-- A spread is made from a delay, and never selects more than the delay, or than the cap if the
jitter looks at it again. -/
theorem next_le {policy : Backoff} {retry : Nat} {spread : Spread}
    (h : policy.next retry = .ok spread) (draw : Nat) :
    ∃ delay, policy.base retry = .ok delay ∧
      (spread.pick draw ≤ policy.max ∨
        policy.jitter ≠ .decorrelated ∧ spread.pick draw ≤ delay) := by
  unfold next at h
  cases hbase : policy.base retry with
  | error fault => rw [hbase] at h; cases h
  | ok delay =>
    rw [hbase] at h
    refine ⟨delay, rfl, ?_⟩
    cases hjitter : policy.jitter with
    | decorrelated =>
      rw [hjitter] at h
      cases h
      exact .inl (Jitter.applyDecorrelated_le (Nat.min_le_right _ _) draw)
    | none =>
      rw [hjitter] at h
      cases h
      exact .inr ⟨nofun, Jitter.apply_le _ _ _⟩
    | full =>
      rw [hjitter] at h
      cases h
      exact .inr ⟨nofun, Jitter.apply_le _ _ _⟩
    | equal =>
      rw [hjitter] at h
      cases h
      exact .inr ⟨nofun, Jitter.apply_le _ _ _⟩

end Backoff

/-- The cap of the delays holds up to the rounding of the cap itself.  For any first delay, cap,
factor, jitter and retry, whatever the draw: there is no delay exactly if the grown delay is finite,
not above the cap as a double and `2 ^ 64` seconds or more, so that there is one for every cap but
the last seconds below `2 ^ 64`.  A delay is within the cap if the cap is below `2 ^ 23` seconds,
or if the jitter looks at the cap again.  Otherwise it is within what the cap is as a double, which
is longer by less than one part in `2 ^ 51` and a nanosecond. -/
theorem delay_within_rounded_cap (policy : Backoff) (retry : Nat) :
    let grown := policy.first.toBinary64.mul
      (policy.factor.pow (Nat.min retry Backoff.maxExponent))
    let cap := policy.max.toBinary64
    ((∃ fault, policy.next retry = .error fault) ↔
      grown.isFinite = true ∧ grown.lt (Binary64.ofNat (wordSize 64)) = false ∧
        cap.lt grown = false) ∧
    (policy.max.seconds < wordSize 64 - 1024 → ∃ spread, policy.next retry = .ok spread) ∧
    ∀ spread, policy.next retry = .ok spread → ∀ draw,
      (policy.max.nanoseconds < 2 ^ 23 * Duration.perSecond ∨ policy.jitter = .decorrelated →
        spread.pick draw ≤ policy.max) ∧
      (spread.pick draw ≤ policy.max ∨
        ∃ rounded, Duration.ofBinary64? cap = some rounded ∧ spread.pick draw ≤ rounded) ∧
      ((spread.pick draw).nanoseconds : ℚ) ≤ policy.max.nanoseconds * (1 + 1 / 2 ^ 51) + 1 := by
  intro grown cap
  refine ⟨(policy.next_error_iff retry).trans (policy.base_error_iff retry), ?_, ?_⟩
  · intro hseconds
    cases hnext : policy.next retry with
    | ok spread => exact ⟨spread, rfl⟩
    | error fault =>
      -- A cap that is below `2 ^ 64` as a double keeps every grown delay below it.
      obtain ⟨hfinite, hlarge, hcap⟩ :=
        (policy.base_error_iff retry).mp ((policy.next_error_iff retry).mp ⟨fault, hnext⟩)
      obtain ⟨q, hgrown, hq⟩ := Backoff.grown_large hfinite hlarge
      obtain ⟨w, hw, hbelow⟩ := Duration.toBinary64_below hseconds
      rw [← Bool.not_eq_true, hw.lt_iff hgrown, not_lt] at hcap
      norm_num at hq hbelow
      linarith
  · intro spread hnext draw
    obtain ⟨delay, hbase, hpick⟩ := Backoff.next_le hnext draw
    -- What was selected is within the cap, or was not looked at again and is within the delay.
    have hcases : spread.pick draw ≤ policy.max ∨ policy.jitter ≠ .decorrelated ∧
        policy.max.seconds < wordSize 64 - 1024 ∧ ∃ rounded,
          Duration.ofBinary64? cap = some rounded ∧ spread.pick draw ≤ rounded := by
      rcases hpick with hpick | ⟨hjitter, hpick⟩
      · exact .inl hpick
      · rcases Backoff.base_le hbase with hle | ⟨hseconds, rounded, hrounded, hle⟩
        · exact .inl (Nat.le_trans hpick hle)
        · exact .inr ⟨hjitter, hseconds, rounded, hrounded, Nat.le_trans hpick hle⟩
    rcases hcases with hle | ⟨hjitter, hseconds, rounded, hrounded, hle⟩
    · refine ⟨fun _ => hle, .inl hle, ?_⟩
      have hle' : ((spread.pick draw).nanoseconds : ℚ) ≤ policy.max.nanoseconds := by
        exact_mod_cast hle
      have hpos : (0 : ℚ) ≤ policy.max.nanoseconds := Nat.cast_nonneg _
      linarith
    · refine ⟨?_, .inr ⟨rounded, hrounded, hle⟩, ?_⟩
      · rintro (hsmall | hsame)
        · rw [Duration.ofBinary64?_toBinary64 hsmall] at hrounded
          cases hrounded
          exact hle
        · exact absurd hsame hjitter
      · have hle' : ((spread.pick draw).nanoseconds : ℚ) ≤ rounded.nanoseconds := by
          exact_mod_cast hle
        exact hle'.trans (Duration.ofBinary64?_near hseconds hrounded)

/-- A constant delay that is longer than its cap by a nanosecond, one that is not, and one that is
no duration. -/
theorem delay_within_rounded_cap_constant :
    let long := Duration.ofParts 8388608 1
    let short := Duration.ofParts 5 1
    let endless := Duration.ofParts 18446744073709551615 999999999
    (Backoff.constant long).next 0 = .ok (.exactly (.ofParts 8388608 2)) ∧
      ((Duration.ofParts 8388608 2).nanoseconds : ℚ) ≤
        long.nanoseconds * (1 + 1 / 2 ^ 51) + 1 ∧
      (∃ spread, (Backoff.constant short).next 0 = .ok spread ∧ spread.pick 0 ≤ short) ∧
      ∃ fault, (Backoff.constant endless).next 0 = .error fault := by
  intro long short endless
  have hlong : (Backoff.constant long).next 0 = .ok (.exactly (.ofParts 8388608 2)) := by
    decide +kernel
  obtain ⟨-, -, hcap⟩ := delay_within_rounded_cap (Backoff.constant long) 0
  obtain ⟨-, htotal, hcap'⟩ := delay_within_rounded_cap (Backoff.constant short) 0
  obtain ⟨spread, hspread⟩ := htotal (by decide)
  refine ⟨hlong, (hcap _ hlong 0).2.2, ⟨spread, hspread, ?_⟩, ?_⟩
  · exact (hcap' spread hspread 0).1 (.inl (by decide))
  · exact (delay_within_rounded_cap (Backoff.constant endless) 0).1.mpr (by decide +kernel)

end Sequencer
