import Mathlib.Order.Monotone.Basic
import Sequencer.Proofs.Handler.Standing

/-!
# Budgets — how often an operation that keeps failing is attempted

No execution makes more attempts than one for each retry and the first one.  If the operation fails
every time, and never for good, it makes all of them and ends with the last failure.  That needs
delays that can be told, and it needs a count that can go beyond the number of retries: a handler
with the greatest number of retries there is never comes to its last attempt.
-/

namespace Sequencer

variable {η ι α : Type}

/-! ## 1. Retries that follow at once -/

theorem Binary64.powFrom_one (k : Nat) : powFrom one one k = one := by
  have hsquare : mul one one = one := by decide +kernel
  induction k using Nat.strong_induction_on with
  | _ k ih =>
    rw [powFrom]
    simp only [hsquare, ite_self]
    split
    · rfl
    · exact ih (k / 2) (by omega)

/-- Without a backoff every delay is zero. -/
theorem Backoff.next_immediate (retry : Nat) :
    immediate.next retry = .ok (.exactly .zero) := by
  have hgrowth : immediate.factor.pow (Nat.min retry maxExponent) = Binary64.one :=
    Binary64.powFrom_one _
  have hbase : immediate.base retry = .ok .zero := by
    unfold base
    rw [hgrowth]
    decide +kernel
  rw [next, hbase]
  rfl

theorem Handler.canRest_immediate {handler : Handler η} (h : handler.backoff = .immediate)
    (k : Nat) : handler.CanRest k :=
  ⟨_, by rw [h]; exact Backoff.next_immediate (k - 1)⟩

namespace World

variable {world : World ι α} {handler : Handler η} {k n : Nat}

/-! ## 2. Operations that keep failing -/

/-- The operation fails every time, and never for good. -/
def KeepsFailing (world : World ι α) : Prop :=
  ∀ k, 0 < k → ∃ failure, world.answer k = .error failure ∧ ¬ failure.Permanent

theorem isLast_eq_false {failure : Failure} (hpos : 0 < k) (h : ¬ failure.Permanent)
    (hleft : ordinal k ≤ handler.retries) :
    handler.isLast (.running (ordinal k)) failure = false := by
  rw [Bool.eq_false_iff]
  intro hlast
  rcases Handler.isLast_iff.mp hlast with hpermanent | hspent
  · exact h (Failure.isRetryable_eq_false.mp hpermanent)
  · have hone : 1 ≤ ordinal k := Nat.le_min.mpr ⟨hpos, by decide⟩
    replace hspent : handler.retries ≤ ordinal k - 1 := hspent
    omega

theorem goesOn_of_keepsFailing (failing : world.KeepsFailing) (hpos : 0 < k)
    (hleft : ordinal k ≤ handler.retries) (hrest : handler.CanRest (ordinal k)) :
    ∃ failure spread, world.GoesOn handler k failure spread := by
  obtain ⟨failure, hanswer, htry⟩ := failing k hpos
  obtain ⟨spread, hspread⟩ := hrest
  exact ⟨failure, spread, hanswer, isLast_eq_false hpos htry hleft, hspread⟩

/-- Every attempt is followed by another one while retries are left and delays can be told. -/
theorem continues_of_keepsFailing (failing : world.KeepsFailing)
    (hleft : ∀ k, 0 < k → k ≤ n → ordinal k ≤ handler.retries)
    (hrest : ∀ k, 0 < k → k ≤ n → handler.CanRest (ordinal k)) : world.Continues handler n :=
  fun k hpos hle => goesOn_of_keepsFailing failing hpos (hleft k hpos hle) (hrest k hpos hle)

theorem inputs_monotone (world : World ι α) (handler : Handler η) :
    Monotone fun n => (world.run handler n).2.inputs.length := by
  refine monotone_nat_of_le_succ fun n => ?_
  rw [inputs_length_run, inputs_length_run]
  show _ ≤ (world.step (world.run handler n)).2.calls
  unfold step
  cases h : (world.reply (world.run handler n).2).bind
      ((world.run handler n).2.advance (world.run handler n).1) with
  | none => exact Nat.le_refl _
  | some pair =>
    obtain ⟨reply, -, hadvance⟩ := Option.bind_eq_some_iff.mp h
    obtain ⟨turn, -, -, hnext⟩ := Course.advance_cases hadvance
    rw [Option.getD_some, hnext]
    exact Nat.le_add_right _ _

/-! ## 3. The end of the budget -/

/-- With retries that can be counted through, the last attempt is the one after the last retry. -/
theorem ends_of_keepsFailing (failing : world.KeepsFailing)
    (bound : handler.retries < ExecutionState.maxAttempts)
    (hrest : ∀ k, 0 < k → k ≤ handler.retries → handler.CanRest k) :
    ∃ replies failure, world.answer (handler.retries + 1) = .error failure ∧
      (world.run handler replies).2.ending = some (.returned (.error failure)) ∧
      (world.run handler replies).1.last = .failed (handler.retries + 1) ∧
      (world.run handler replies).2.inputs.length = handler.retries + 1 ∧
      (world.run handler replies).2.numbers = List.range' 1 (handler.retries + 1) := by
  obtain ⟨failure, hanswer, -⟩ := failing (handler.retries + 1) (Nat.succ_pos _)
  have hcontinues : world.Continues handler handler.retries := by
    refine continues_of_keepsFailing failing (fun k _ hle => ?_) fun k hpos hle => ?_
    · rw [ordinal_of_le (by omega)]
      exact hle
    · rw [ordinal_of_le (by omega)]
      exact hrest k hpos hle
  have hordinal : ordinal (handler.retries + 1) = handler.retries + 1 := ordinal_of_le (by omega)
  have hlast : handler.isLast (.running (ordinal (handler.retries + 1))) failure = true :=
    Handler.isLast_iff.mpr (.inr (by rw [hordinal]; exact Nat.le_refl _))
  obtain ⟨replies, hrun⟩ := run_last hcontinues hanswer hlast
  have hlength : (world.run handler replies).2.inputs.length = handler.retries + 1 := by
    rw [inputs_length_run, hrun]
  refine ⟨replies, failure, hanswer, ?_, ?_, hlength, ?_⟩
  · rw [hrun]; rfl
  · rw [hrun, hordinal]
  · rw [(budget_run world bound replies).2, hlength]

/-- With as many retries as can be counted, every attempt is followed by another one. -/
theorem goes_on_for_ever (failing : world.KeepsFailing)
    (greatest : handler.retries = ExecutionState.maxAttempts)
    (hrest : ∀ k, 0 < k → k ≤ handler.retries → handler.CanRest k) (n : Nat) :
    ∃ replies, (world.run handler replies).2.inputs.length = n + 1 ∧
      (world.run handler replies).2.ending = none := by
  have hle : ∀ k, ordinal k ≤ handler.retries := fun k => greatest ▸ Nat.min_le_right _ _
  have hcontinues : world.Continues handler n :=
    continues_of_keepsFailing failing (fun k _ _ => hle k) fun k hpos _ =>
      hrest _ (Nat.le_min.mpr ⟨hpos, by decide⟩) (hle k)
  obtain ⟨replies, hrun⟩ := run_rounds hcontinues
  refine ⟨replies, ?_, ?_⟩
  · rw [inputs_length_run, hrun]; rfl
  · rw [hrun]; rfl

theorem never_ends (h : ∀ n, ∃ replies, (world.run handler replies).2.inputs.length = n + 1 ∧
    (world.run handler replies).2.ending = none) (replies : Nat) :
    (world.run handler replies).2.ending = none := by
  by_contra hending
  have hended := Option.isSome_iff_ne_none.mpr hending
  -- One call more is made at some moment, which is neither before the end nor after it.
  obtain ⟨later, hmore, hnone⟩ := h (world.run handler replies).2.inputs.length
  rcases Nat.le_total replies later with hle | hle
  · obtain ⟨more, rfl⟩ := Nat.exists_eq_add_of_le hle
    rw [run_ended hended] at hnone
    exact hending hnone
  · have hmono : (world.run handler later).2.inputs.length ≤
        (world.run handler replies).2.inputs.length := inputs_monotone world handler hle
    omega

/-- The execution panics at the first delay that cannot be told. -/
theorem panics_of_keepsFailing (failing : world.KeepsFailing)
    (word : handler.retries ≤ ExecutionState.maxAttempts) {first : Nat}
    (h : IsLeast {k | 0 < k ∧ k ≤ handler.retries ∧ ¬ handler.CanRest k} first) :
    ∃ replies, (world.run handler replies).2.ending = some (.panicked {}) ∧
      (world.run handler replies).2.inputs.length = first := by
  obtain ⟨⟨hpos, hle, hrest⟩, hmin⟩ := h
  obtain ⟨n, rfl⟩ := Nat.exists_eq_succ_of_ne_zero (Nat.ne_of_gt hpos)
  have hordinal : ∀ k, k ≤ n + 1 → ordinal k = k := fun k hk => ordinal_of_le (by omega)
  have hcontinues : world.Continues handler n := by
    refine continues_of_keepsFailing failing (fun k _ hk => ?_) fun k hk hkn => ?_
    · rw [hordinal k (by omega)]
      omega
    · rw [hordinal k (by omega)]
      by_contra hnot
      have := hmin ⟨hk, by omega, hnot⟩
      omega
  obtain ⟨failure, hanswer, htry⟩ := failing (n + 1) hpos
  have hlast : handler.isLast (.running (ordinal (n + 1))) failure = false :=
    isLast_eq_false hpos htry (by rw [hordinal _ (Nat.le_refl _)]; exact hle)
  cases hnext : handler.backoff.next (ordinal (n + 1) - 1) with
  | ok spread =>
    rw [hordinal _ (Nat.le_refl _)] at hnext
    exact absurd ⟨spread, hnext⟩ hrest
  | error fault =>
    obtain ⟨replies, hrun⟩ := run_broken hcontinues hanswer hlast hnext
    refine ⟨replies, ?_, ?_⟩
    · rw [hrun]; rfl
    · rw [inputs_length_run, hrun]; rfl

/-- An operation that fails every time, and never for good.  Its attempts are told with the numbers
from one on, as far as they can be counted, and if the count can go beyond the retries there are
never more than one for each retry and the first one.  They are made, and the execution ends as
failed with the last failure, exactly if the count can go beyond the retries and the delay before
each of them can be told.  With the greatest number of retries there is it never ends, however many
attempts it has made, and at the first delay that cannot be told it panics. -/
theorem attempts_of_failing_operation (world : World ι α) (handler : Handler η)
    (word : handler.retries ≤ ExecutionState.maxAttempts) (failing : world.KeepsFailing) :
    (∀ replies,
      let course := (world.run handler replies).2
      course.numbers = (List.range' 1 course.inputs.length).map
          (Nat.min · ExecutionState.maxAttempts) ∧
        (handler.retries < ExecutionState.maxAttempts →
          course.inputs.length ≤ handler.retries + 1 ∧
            course.numbers = List.range' 1 course.inputs.length)) ∧
    ((handler.retries < ExecutionState.maxAttempts ∧
        ∀ k, 0 < k → k ≤ handler.retries → handler.CanRest k) ↔
      ∃ replies failure,
        let (after, course) := world.run handler replies
        world.answer (handler.retries + 1) = .error failure ∧
          course.ending = some (.returned (.error failure)) ∧
          after.last = .failed (handler.retries + 1) ∧
          course.inputs.length = handler.retries + 1 ∧
          course.numbers = List.range' 1 (handler.retries + 1)) ∧
    (handler.retries = ExecutionState.maxAttempts →
      (∀ k, 0 < k → k ≤ handler.retries → handler.CanRest k) →
      (∀ replies, (world.run handler replies).2.ending = none) ∧
        ∀ n, ∃ replies, (world.run handler replies).2.inputs.length = n + 1) ∧
    ∀ first, IsLeast {k | 0 < k ∧ k ≤ handler.retries ∧ ¬ handler.CanRest k} first →
      ∃ replies, (world.run handler replies).2.ending = some (.panicked {}) ∧
        (world.run handler replies).2.inputs.length = first := by
  classical
  have hendless : handler.retries = ExecutionState.maxAttempts →
      (∀ k, 0 < k → k ≤ handler.retries → handler.CanRest k) →
      (∀ replies, (world.run handler replies).2.ending = none) ∧
        ∀ n, ∃ replies, (world.run handler replies).2.inputs.length = n + 1 := by
    intro greatest hrest
    have hgoes := goes_on_for_ever failing greatest hrest
    exact ⟨never_ends hgoes, fun n => (hgoes n).imp fun _ h => h.1⟩
  refine ⟨fun replies =>
      ⟨numbers_run world handler replies, fun bound => budget_run world bound replies⟩,
    ⟨fun h => ends_of_keepsFailing failing h.1 h.2, ?_⟩, hendless,
    fun first => panics_of_keepsFailing failing word⟩
  rintro ⟨replies, failure, -, hending, -⟩
  have hall : ∀ k, 0 < k → k ≤ handler.retries → handler.CanRest k := by
    by_contra hnot
    push Not at hnot
    -- The first delay that cannot be told would be another end of the execution.
    obtain ⟨other, hpanic, -⟩ := panics_of_keepsFailing failing word (Nat.isLeast_find hnot)
    have hsame := Completes.unique ⟨other, rfl, by rw [hpanic]; rfl⟩
      (⟨replies, rfl, by rw [hending]; rfl⟩ : world.Completes handler _)
    rw [hsame, hending] at hpanic
    cases hpanic
  refine ⟨Nat.lt_of_le_of_ne word fun greatest => ?_, hall⟩
  rw [(hendless greatest hall).1 replies] at hending
  cases hending

/-- A handler with the greatest number of retries there is. -/
def tireless : Handler Unit := { name := "tireless", retries := 4294967295 }

/-- An operation that always times out. -/
def timesOut : World Nat String :=
  { input := 7, operation := fun _ _ => .error (.timedOut .zero), draw := fun _ => 0 }

/-- One attempt for each retry and the first one were made, and none of them was the last. -/
theorem attempts_of_failing_operation_tireless :
    tireless.retries ≤ ExecutionState.maxAttempts ∧ timesOut.KeepsFailing ∧
      (∀ replies, (timesOut.run tireless replies).2.ending = none) ∧
      ∃ replies, (timesOut.run tireless replies).2.inputs.length = tireless.retries + 1 := by
  have word : tireless.retries ≤ ExecutionState.maxAttempts := by decide
  have failing : timesOut.KeepsFailing := fun k _ => ⟨.timedOut .zero, rfl, nofun⟩
  obtain ⟨-, -, hendless, -⟩ := attempts_of_failing_operation timesOut tireless word failing
  obtain ⟨hnone, hmany⟩ := hendless rfl fun k _ _ => Handler.canRest_immediate rfl k
  exact ⟨word, failing, hnone, hmany tireless.retries⟩

end World

end Sequencer
