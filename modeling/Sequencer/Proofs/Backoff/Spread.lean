import Sequencer.Proofs.Backoff.Cap

/-!
# Spreads — the delays that a jitter may choose

A jitter counts whole milliseconds in words of 64 bits.  Below `2 ^ 64` milliseconds nothing is lost
in them: the draws select exactly the delays that the rule of the jitter names in numbers without a
bound, there is always one to select, and none is longer than the cap.
-/

namespace Sequencer

/-! ## 1. Draws -/

namespace Spread

variable {delay chosen : Duration} {low high : Nat}

/-- Some draw selects the delay. -/
def Selects (spread : Spread) (chosen : Duration) : Prop := ∃ draw, spread.pick draw = chosen

/-- There is something to draw from, and all of it is in a word. -/
def Drawable : Spread → Prop
  | exactly _ => True
  | wholeMillis low high => low ≤ high ∧ high < wordSize 64

theorem selects_exactly : (exactly delay).Selects chosen ↔ chosen = delay :=
  ⟨fun ⟨_, h⟩ => h.symm, fun h => ⟨0, h.symm⟩⟩

theorem selects_wholeMillis (h : low ≤ high) :
    (wholeMillis low high).Selects chosen ↔
      ∃ millis, low ≤ millis ∧ millis ≤ high ∧ chosen = .ofMillis millis := by
  constructor
  · rintro ⟨draw, rfl⟩
    have hdraw : draw % (high - low + 1) < high - low + 1 := Nat.mod_lt _ (Nat.succ_pos _)
    exact ⟨low + draw % (high - low + 1), Nat.le_add_right _ _, by omega, rfl⟩
  · -- The distance from the lower end is a draw that selects it.
    rintro ⟨millis, hlow, hhigh, rfl⟩
    refine ⟨millis - low, ?_⟩
    have hdraw : (millis - low) % (high - low + 1) = millis - low := Nat.mod_eq_of_lt (by omega)
    show Duration.ofMillis (low + (millis - low) % (high - low + 1)) = .ofMillis millis
    rw [hdraw, Nat.add_sub_cancel' hlow]

end Spread

/-! ## 2. Jitter without words -/

theorem Duration.millisWord_of_lt {delay : Duration} (h : delay.millis < wordSize 64) :
    delay.millisWord = delay.millis :=
  Nat.mod_eq_of_lt h

namespace Jitter

variable {jitter : Jitter} {delay base prev cap chosen : Duration}

theorem apply_of_short (h : delay.millis = 0) : jitter.apply delay = .exactly delay := by
  have hword : delay.millisWord = 0 := by
    unfold Duration.millisWord
    rw [h, Nat.zero_mod]
  unfold apply
  simp only
  rw [if_pos hword]

theorem apply_of_long (h : delay.millis < wordSize 64) (hlong : delay.millis ≠ 0) :
    jitter.apply delay = match jitter with
      | none => .exactly delay
      | decorrelated => .exactly delay
      | full => .wholeMillis 0 delay.millis
      | equal => .wholeMillis (delay.millis / 2) (delay.millis / 2 + delay.millis / 2) := by
  unfold apply
  simp only [Duration.millisWord_of_lt h]
  exact if_neg hlong

theorem apply_exactly (h : jitter = none ∨ jitter = decorrelated ∨ delay.millis = 0) :
    jitter.apply delay = .exactly delay := by
  rcases h with rfl | rfl | hshort
  · exact ite_self _
  · exact ite_self _
  · exact apply_of_short hshort

theorem drawable_apply (jitter : Jitter) (h : delay.millis < wordSize 64) :
    (jitter.apply delay).Drawable := by
  by_cases hshort : delay.millis = 0
  · rw [apply_of_short hshort]
    trivial
  · rw [apply_of_long h hshort]
    cases jitter with
    | none => trivial
    | decorrelated => trivial
    | full => exact ⟨Nat.zero_le _, h⟩
    | equal => exact ⟨Nat.le_add_right _ _, by omega⟩

theorem selects_full (h : delay.millis < wordSize 64) (hlong : delay.millis ≠ 0) :
    (full.apply delay).Selects chosen ↔
      ∃ millis, millis ≤ delay.millis ∧ chosen = .ofMillis millis := by
  rw [apply_of_long h hlong]
  refine (Spread.selects_wholeMillis (Nat.zero_le _)).trans (exists_congr fun millis => ?_)
  exact ⟨And.right, fun hmillis => ⟨Nat.zero_le _, hmillis⟩⟩

/-- Two equal halves of a delay make up what is even of it. -/
theorem selects_equal (h : delay.millis < wordSize 64) (hlong : delay.millis ≠ 0) :
    (equal.apply delay).Selects chosen ↔
      ∃ millis, delay.millis / 2 ≤ millis ∧ millis ≤ delay.millis - delay.millis % 2 ∧
        chosen = .ofMillis millis := by
  have heven : delay.millis / 2 + delay.millis / 2 = delay.millis - delay.millis % 2 := by omega
  rw [apply_of_long h hlong, ← heven]
  exact Spread.selects_wholeMillis (Nat.le_add_right _ _)

/-- Below `2 ^ 64` milliseconds it does not matter that the triple stays at the greatest word. -/
theorem applyDecorrelated_eq (hbase : base.millis < wordSize 64) (hprev : prev.millis < wordSize 64)
    (hcap : cap.millis < wordSize 64) :
    decorrelated.applyDecorrelated base prev cap =
      if min (3 * prev.millis) cap.millis ≤ base.millis then .exactly base
      else .wholeMillis base.millis (min (3 * prev.millis) cap.millis) := by
  -- A triple beyond the words is above the cap, which is a word.
  have hhigh : Nat.max (Nat.min (Nat.min (prev.millis * 3) (maxWord 64)) cap.millis) base.millis =
      max (min (3 * prev.millis) cap.millis) base.millis := by
    show max (min (min (prev.millis * 3) (wordSize 64 - 1)) cap.millis) base.millis = _
    omega
  unfold applyDecorrelated
  simp only [Duration.millisWord_of_lt, hbase, hprev, hcap, hhigh]
  by_cases h : min (3 * prev.millis) cap.millis ≤ base.millis
  · rw [if_pos h, max_eq_right h, if_pos (le_refl _)]
  · rw [if_neg h, max_eq_left (le_of_not_ge h), if_neg h]

end Jitter

/-! ## 3. Caps -/

/-- A jitter keeps to its rule and to its cap, whatever the draw.  Around a delay below `2 ^ 64`
milliseconds there is always something to draw from, all of it is in a word, and what is selected is
not longer than the delay.  Without jitter, with the decorrelated one and below a millisecond that
is the delay itself; full jitter selects all whole milliseconds up to the delay, and equal jitter
those from one half of it to both halves.  From a base within its cap, decorrelated jitter selects
all whole milliseconds up to three times the previous delay and up to the cap, or the base itself if
those leave no room.  So no jitter makes a delay before a retry longer than the longer of what it
was and its cap. -/
theorem jitter_stays_within_cap :
    (∀ (jitter : Jitter) (delay : Duration), delay.millis < wordSize 64 →
      (jitter.apply delay).Drawable ∧
      (∀ chosen, (jitter.apply delay).Selects chosen → chosen ≤ delay) ∧
      (jitter = .none ∨ jitter = .decorrelated ∨ delay.millis = 0 →
        ∀ chosen, (jitter.apply delay).Selects chosen ↔ chosen = delay) ∧
      (delay.millis ≠ 0 → ∀ chosen,
        ((Jitter.full.apply delay).Selects chosen ↔
          ∃ millis, millis ≤ delay.millis ∧ chosen = .ofMillis millis) ∧
        ((Jitter.equal.apply delay).Selects chosen ↔
          ∃ millis, delay.millis / 2 ≤ millis ∧ millis ≤ delay.millis - delay.millis % 2 ∧
            chosen = .ofMillis millis))) ∧
    (∀ base prev cap : Duration, base.millis < wordSize 64 → prev.millis < wordSize 64 →
      cap.millis < wordSize 64 → base ≤ cap →
      let spread := Jitter.decorrelated.applyDecorrelated base prev cap
      spread.Drawable ∧
      (∀ chosen, spread.Selects chosen → chosen ≤ cap) ∧
      ∀ chosen, spread.Selects chosen ↔
        if min (3 * prev.millis) cap.millis ≤ base.millis then chosen = base
        else ∃ millis, base.millis ≤ millis ∧ millis ≤ 3 * prev.millis ∧ millis ≤ cap.millis ∧
          chosen = .ofMillis millis) ∧
    ∀ (policy : Backoff) (retry : Nat) (spread : Spread), policy.next retry = .ok spread →
      ∃ delay, policy.base retry = .ok delay ∧
        ∀ chosen, spread.Selects chosen → chosen ≤ delay.max policy.max := by
  refine ⟨fun jitter delay h => ⟨Jitter.drawable_apply jitter h, ?_, fun hexact chosen => ?_,
      fun hlong chosen => ⟨Jitter.selects_full h hlong, Jitter.selects_equal h hlong⟩⟩,
    fun base prev cap hbase hprev hcap hle => ⟨?_, ?_, fun chosen => ?_⟩,
    fun policy retry spread hnext => ?_⟩
  · rintro chosen ⟨draw, rfl⟩
    exact Jitter.apply_le jitter delay draw
  · rw [Jitter.apply_exactly hexact]
    exact Spread.selects_exactly
  · rw [Jitter.applyDecorrelated_eq hbase hprev hcap]
    split
    · trivial
    · exact ⟨by omega, by omega⟩
  · rintro chosen ⟨draw, rfl⟩
    exact Jitter.applyDecorrelated_le hle draw
  · rw [Jitter.applyDecorrelated_eq hbase hprev hcap]
    split
    · exact Spread.selects_exactly
    · rw [Spread.selects_wholeMillis (by omega)]
      refine exists_congr fun millis => ?_
      rw [le_min_iff, and_assoc]
  · obtain ⟨delay, hdelay, -⟩ := Backoff.next_le hnext 0
    refine ⟨delay, hdelay, ?_⟩
    rintro chosen ⟨draw, rfl⟩
    obtain ⟨other, hother, hle⟩ := Backoff.next_le hnext draw
    cases hdelay.symm.trans hother
    rcases hle with hle | ⟨-, hle⟩
    · exact Nat.le_trans hle (Nat.le_max_right _ _)
    · exact Nat.le_trans hle (Nat.le_max_left _ _)

/-- Equal jitter leaves out the last millisecond of an odd delay, and decorrelated jitter the third
part of a triple that is above the cap. -/
theorem jitter_stays_within_cap_odd :
    ((Jitter.equal.apply (.ofMillis 7)).Selects (.ofMillis 6) ∧
      ¬ (Jitter.equal.apply (.ofMillis 7)).Selects (.ofMillis 7)) ∧
    ((Jitter.decorrelated.applyDecorrelated (.ofMillis 5) (.ofMillis 4) (.ofMillis 10)).Selects
        (.ofMillis 10) ∧
      ¬ (Jitter.decorrelated.applyDecorrelated (.ofMillis 5) (.ofMillis 4) (.ofMillis 10)).Selects
        (.ofMillis 12)) := by
  have hequal := ((jitter_stays_within_cap.1 .equal (.ofMillis 7) (by decide)).2.2.2 (by decide))
  obtain ⟨-, hcap, hselects⟩ := jitter_stays_within_cap.2.1 (.ofMillis 5) (.ofMillis 4)
    (.ofMillis 10) (by decide) (by decide) (by decide) (by decide)
  refine ⟨⟨(hequal _).2.mpr ⟨6, by decide, by decide, rfl⟩, fun h => ?_⟩,
    (hselects _).mpr ?_, fun h => absurd (hcap _ h) (by decide)⟩
  · obtain ⟨millis, -, hhigh, hchosen⟩ := (hequal _).2.mp h
    have hmillis : 7 * Duration.perMilli = millis * Duration.perMilli :=
      congrArg Duration.nanoseconds hchosen
    have hodd : (Duration.ofMillis 7).millis - (Duration.ofMillis 7).millis % 2 = 6 := by decide
    unfold Duration.perMilli at hmillis
    omega
  · rw [if_neg (by decide)]
    exact ⟨10, by decide, by decide, by decide, rfl⟩

end Sequencer
