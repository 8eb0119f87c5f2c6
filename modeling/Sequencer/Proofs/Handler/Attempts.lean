import Mathlib.Data.List.Basic
import Mathlib.Order.Nat
import Sequencer.Proofs.Handler.Course

/-!
# Attempts — how often an operation runs and what its observer sees

An execution runs its operation up to the first attempt that gives a value, fails for good or has
no retry left, one attempt after the other and each with the same input.  It ends with the result
of that attempt, and every failure was shown to the observer once, before the next attempt started.
The one exception is a delay that cannot be told: the execution panics where it would have to wait
for it.
-/

namespace Sequencer

variable {η ι α : Type}

/-! ## 1. The last attempt -/

/-- A failure that no attempt may follow. -/
inductive Failure.Permanent : Failure → Prop where
  | fatal (error : String) : Permanent (.fatal error)
  | cancelled : Permanent .cancelled
  | panicked (task reason : String) : Permanent (.panicked task reason)

theorem Failure.isRetryable_eq_false {failure : Failure} :
    failure.isRetryable = false ↔ failure.Permanent := by
  constructor
  · intro h
    cases failure with
    | fatal error => exact .fatal error
    | cancelled => exact .cancelled
    | panicked task reason => exact .panicked task reason
    | _ => cases h
  · rintro (_ | _ | _) <;> rfl

/-- The delay after attempt `k` can be told. -/
def Handler.CanRest (handler : Handler η) (k : Nat) : Prop :=
  ∃ spread, handler.backoff.next (k - 1) = .ok spread

namespace World

variable {world : World ι α} {handler : Handler η} {k n : Nat}

/-- Attempt `k` leaves nothing to try: it gives a value, fails for good or has no retry left. -/
def Concludes (world : World ι α) (retries k : Nat) : Prop :=
  (∃ value, world.answer k = .ok value) ∨
    (∃ failure, world.answer k = .error failure ∧ failure.Permanent) ∨ k = retries + 1

/-- Some attempt is the last one, at the latest the one that spends the last retry. -/
theorem exists_last (world : World ι α) (retries : Nat) :
    ∃ last, IsLeast {k | 0 < k ∧ world.Concludes retries k} last ∧ last ≤ retries + 1 := by
  classical
  have hspent : 0 < retries + 1 ∧ world.Concludes retries (retries + 1) :=
    ⟨Nat.succ_pos _, .inr (.inr rfl)⟩
  exact ⟨_, Nat.isLeast_find ⟨_, hspent⟩, Nat.find_min' _ hspent⟩

theorem ordinal_of_le (h : k ≤ ExecutionState.maxAttempts) : ordinal k = k := Nat.min_eq_left h

/-- An attempt that leaves something to try failed, and its failure is not the last one. -/
theorem goes_on (bound : handler.retries < ExecutionState.maxAttempts) (hk : 0 < k)
    (hle : k ≤ handler.retries + 1) (h : ¬ world.Concludes handler.retries k) :
    ∃ failure, world.answer k = .error failure ∧
      handler.isLast (.running (ordinal k)) failure = false := by
  cases hanswer : world.answer k with
  | ok value => exact absurd (.inl ⟨value, hanswer⟩) h
  | error failure =>
    refine ⟨failure, rfl, Bool.eq_false_iff.mpr fun hlast => h ?_⟩
    rw [ordinal_of_le (by omega)] at hlast
    rcases Handler.isLast_iff.mp hlast with hpermanent | hspent
    · exact .inr (.inl ⟨failure, hanswer, Failure.isRetryable_eq_false.mp hpermanent⟩)
    · -- Attempts count from one and retries from zero.
      replace hspent : handler.retries ≤ k - 1 := hspent
      exact .inr (.inr (by omega))

/-- If the attempt that leaves nothing to try fails, its failure is the last one. -/
theorem isLast_of_concludes (bound : handler.retries < ExecutionState.maxAttempts)
    (hle : k ≤ handler.retries + 1) (h : world.Concludes handler.retries k) {failure : Failure}
    (hanswer : world.answer k = .error failure) :
    handler.isLast (.running (ordinal k)) failure = true := by
  rw [ordinal_of_le (by omega), Handler.isLast_iff]
  rcases h with ⟨value, hok⟩ | ⟨other, herror, hpermanent⟩ | hspent
  · rw [hok] at hanswer
    cases hanswer
  · rw [hanswer] at herror
    cases herror
    exact .inl (Failure.isRetryable_eq_false.mpr hpermanent)
  · right
    show handler.retries ≤ k - 1
    omega

end World

/-! ## 2. Deeds -/

namespace Course

def Happening.isDeed : Happening ι α → Bool
  | told _ => false
  | called _ => true
  | answered _ => true
  | shown _ => true
  | seen => true
  | paused _ => false
  | rested => false

def Happening.input? : Happening ι α → Option ι
  | called input => some input
  | _ => none

def Happening.failure? : Happening ι α → Option Failure
  | shown failure => some failure
  | _ => none

/-- What the operation and the observer did, in order. -/
def deeds (course : Course ι α) : List (Happening ι α) := course.log.filter Happening.isDeed

/-- The inputs that the operation was called with, in order. -/
def inputs (course : Course ι α) : List ι := course.deeds.filterMap Happening.input?

/-- The failures that the observer was shown, in order. -/
def failures (course : Course ι α) : List Failure := course.deeds.filterMap Happening.failure?

end Course

namespace World

variable {world : World ι α} {handler : Handler η} {k n : Nat}

def failure? (world : World ι α) (k : Nat) : Option Failure :=
  match world.answer k with
  | .ok _ => none
  | .error failure => some failure

/-- What the operation and the observer do in attempt `k`: the operation is called and comes back,
and then the observer is shown the failure and comes back. -/
def attempt (world : World ι α) (hooked : Bool) (k : Nat) : List (Course.Happening ι α) :=
  .called world.input :: .answered (world.answer k) ::
    match world.answer k with
    | .ok _ => []
    | .error failure => if hooked then [.shown failure, .seen] else []

/-- The execution made the attempts up to `n` one after the other, all with its input, and every
failure was shown to the observer, if there is one, before the next attempt started. -/
structure Made (world : World ι α) (handler : Handler η) (n : Nat) (course : Course ι α) :
    Prop where
  order : course.deeds = (List.range' 1 n).flatMap (world.attempt handler.observer.isSome)
  inputs : course.inputs = List.replicate n world.input
  failures : course.failures =
    if handler.observer.isSome then (List.range' 1 n).filterMap world.failure? else []
  /-- The observer was called once an attempt, save for a last attempt that gave a value. -/
  count : handler.observer.isSome →
    course.failures.length = if (world.failure? n).isSome then n else n - 1

theorem trial_deeds (world : World ι α) (handler : Handler η) (k : Nat) :
    (world.trial handler k).filter Course.Happening.isDeed =
      world.attempt handler.observer.isSome k := by
  unfold trial entry verdict attempt
  cases world.answer k with
  | ok value => rfl
  | error failure => cases handler.observer.isSome <;> rfl

theorem respite_deeds (world : World ι α) (handler : Handler η) (k : Nat) :
    (world.respite handler k).filter Course.Happening.isDeed = [] := by
  unfold respite
  split
  · rfl
  · next spread _ =>
    show List.filter _ (if (spread.pick (world.draw k)).isZero then _ else _) = []
    split <;> rfl

theorem history_deeds (world : World ι α) (handler : Handler η) (n : Nat) :
    (world.history handler n).filter Course.Happening.isDeed =
      (List.range' 1 n).flatMap (world.attempt handler.observer.isSome) := by
  simp only [history, List.filter_flatMap, List.filter_append, trial_deeds, respite_deeds,
    List.append_nil]

theorem attempt_inputs (world : World ι α) (hooked : Bool) (k : Nat) :
    (world.attempt hooked k).filterMap Course.Happening.input? = [world.input] := by
  unfold attempt
  cases world.answer k with
  | ok value => rfl
  | error failure => cases hooked <;> rfl

theorem attempt_failures (world : World ι α) (hooked : Bool) (k : Nat) :
    (world.attempt hooked k).filterMap Course.Happening.failure? =
      if hooked then (world.failure? k).toList else [] := by
  unfold attempt failure?
  cases world.answer k with
  | ok value => cases hooked <;> rfl
  | error failure => cases hooked <;> rfl

/-- Among attempts that all failed but possibly the last one, the failures are counted. -/
theorem length_failures (h : world.Continues handler n) :
    ((List.range' 1 (n + 1)).filterMap world.failure?).length =
      if (world.failure? (n + 1)).isSome then n + 1 else n := by
  -- All attempts before the last one failed.
  have hbefore : ((List.range' 1 n).filterMap world.failure?).length = n := by
    rw [List.filterMap_length_eq_length.mpr, List.length_range']
    intro k hk
    rw [List.mem_range'_1] at hk
    obtain ⟨failure, spread, hround⟩ := h k hk.1 (by omega)
    rw [failure?, hround.answer]
    rfl
  rw [List.range'_1_concat, List.filterMap_append, List.length_append, hbefore, Nat.add_comm 1 n]
  cases hlast : world.failure? (n + 1) with
  | none => rw [List.filterMap_cons_none hlast]; rfl
  | some failure => rw [List.filterMap_cons_some hlast]; rfl

theorem made_of_log {course : Course ι α} (rest : List (Course.Happening ι α))
    (h : world.Continues handler n)
    (hlog : course.log = world.history handler n ++ world.trial handler (n + 1) ++ rest)
    (hrest : rest.filter Course.Happening.isDeed = []) : world.Made handler (n + 1) course := by
  -- The order of the deeds determines everything else.
  have horder : course.deeds =
      (List.range' 1 (n + 1)).flatMap (world.attempt handler.observer.isSome) := by
    rw [Course.deeds, hlog, List.filter_append, List.filter_append, history_deeds, trial_deeds,
      hrest, List.append_nil, List.range'_1_concat, List.flatMap_append, List.flatMap_singleton,
      Nat.add_comm 1 n]
  have hfailures : course.failures =
      if handler.observer.isSome then (List.range' 1 (n + 1)).filterMap world.failure? else [] := by
    rw [Course.failures, horder, List.filterMap_flatMap]
    simp only [attempt_failures]
    split
    · rw [List.filterMap_eq_flatMap_toList]
    · exact List.flatMap_eq_nil_iff.mpr fun _ _ => rfl
  refine ⟨horder, ?_, hfailures, fun hooked => ?_⟩
  · rw [Course.inputs, horder, List.filterMap_flatMap]
    simp only [attempt_inputs]
    rw [← List.map_eq_flatMap, List.map_const', List.length_range']
  · rw [hfailures, if_pos hooked, length_failures h]
    rfl

/-! ## 3. The end of an execution -/

/-- An attempt that leaves something to try, and whose delay can be told, is followed by another
one. -/
theorem goesOn_of_canRest (bound : handler.retries < ExecutionState.maxAttempts) (hk : 0 < k)
    (hle : k ≤ handler.retries + 1) (h : ¬ world.Concludes handler.retries k)
    (hrest : handler.CanRest k) : ∃ failure spread, world.GoesOn handler k failure spread := by
  obtain ⟨failure, hanswer, hlast⟩ := goes_on bound hk hle h
  obtain ⟨spread, hspread⟩ := hrest
  refine ⟨failure, spread, hanswer, hlast, ?_⟩
  rw [ordinal_of_le (by omega), hspread]

/-- Without a delay that cannot be told, the last attempt decides the result. -/
theorem completes_returned (bound : handler.retries < ExecutionState.maxAttempts)
    (hle : n ≤ handler.retries) (hlast : world.Concludes handler.retries (n + 1))
    (h : world.Continues handler n) :
    ∃ course, world.Completes handler course ∧
      course.ending = some (.returned (world.answer (n + 1))) ∧
      world.Made handler (n + 1) course := by
  cases hanswer : world.answer (n + 1) with
  | ok value =>
    obtain ⟨replies, hrun⟩ := run_ok h hanswer
    refine ⟨_, ⟨replies, rfl, ?_⟩, ?_, ?_⟩
    · rw [hrun]; rfl
    · rw [hrun]; rfl
    · exact made_of_log [] h (by rw [hrun, List.append_nil]) rfl
  | error failure =>
    have hfinal := isLast_of_concludes bound (by omega) hlast hanswer
    obtain ⟨replies, hrun⟩ := run_last h hanswer hfinal
    refine ⟨_, ⟨replies, rfl, ?_⟩, ?_, ?_⟩
    · rw [hrun]; rfl
    · rw [hrun]; rfl
    · exact made_of_log [_] h (by rw [hrun]) (by rfl)

/-- At the first delay that cannot be told the execution panics. -/
theorem completes_panicked (bound : handler.retries < ExecutionState.maxAttempts)
    (hle : n ≤ handler.retries) (hnot : ¬ world.Concludes handler.retries (n + 1))
    (hrest : ¬ handler.CanRest (n + 1)) (h : world.Continues handler n) :
    ∃ course, world.Completes handler course ∧ course.ending = some (.panicked {}) ∧
      world.Made handler (n + 1) course := by
  obtain ⟨failure, hanswer, hlast⟩ := goes_on bound (Nat.succ_pos n) (by omega) hnot
  cases hnext : handler.backoff.next (ordinal (n + 1) - 1) with
  | ok spread =>
    rw [ordinal_of_le (by omega)] at hnext
    exact absurd ⟨spread, hnext⟩ hrest
  | error fault =>
    obtain ⟨replies, hrun⟩ := run_broken h hanswer hlast hnext
    refine ⟨_, ⟨replies, rfl, ?_⟩, ?_, ?_⟩
    · rw [hrun]; rfl
    · rw [hrun]; rfl
    · exact made_of_log [] h (by rw [hrun, List.append_nil]; rfl) rfl

/-- An execution comes to one end.  It makes attempts up to the first one that leaves nothing to
try, and returns the result of that one, exactly if the delay after each attempt before it can be
told; at the first one that cannot be told it panics. -/
theorem attempts_until_last (world : World ι α) (handler : Handler η)
    (bound : handler.retries < ExecutionState.maxAttempts) :
    ∃ last course,
      IsLeast {k | 0 < k ∧ world.Concludes handler.retries k} last ∧
      world.Completes handler course ∧ (∀ other, world.Completes handler other → other = course) ∧
      ((∀ k, 0 < k → k < last → handler.CanRest k) ↔
        course.ending = some (.returned (world.answer last)) ∧
          world.Made handler last course) ∧
      ((∃ k, 0 < k ∧ k < last ∧ ¬ handler.CanRest k) →
        ∃ first, IsLeast {k | 0 < k ∧ k < last ∧ ¬ handler.CanRest k} first ∧
          course.ending = some (.panicked {}) ∧ world.Made handler first course) := by
  classical
  obtain ⟨last, hleast, hle⟩ := world.exists_last handler.retries
  have hbefore : ∀ k, 0 < k → k < last → ¬ world.Concludes handler.retries k :=
    fun k hk hlt h => Nat.not_le_of_lt hlt (hleast.2 ⟨hk, h⟩)
  obtain ⟨⟨hpos, hlast⟩, -⟩ := id hleast
  obtain ⟨n, rfl⟩ := Nat.exists_eq_succ_of_ne_zero (Nat.ne_of_gt hpos)
  by_cases hall : ∀ k, 0 < k → k < n + 1 → handler.CanRest k
  · -- Every delay can be told, so that the last attempt is reached.
    obtain ⟨course, hcompletes, hending, hmade⟩ := completes_returned bound (by omega) hlast
      fun k hk hkn => goesOn_of_canRest bound hk (by omega) (hbefore k hk (by omega))
        (hall k hk (by omega))
    refine ⟨n + 1, course, hleast, hcompletes, fun other h => h.unique hcompletes,
      ⟨fun _ => ⟨hending, hmade⟩, fun _ => hall⟩, ?_⟩
    rintro ⟨k, hk, hlt, hrest⟩
    exact absurd (hall k hk hlt) hrest
  · -- The execution stops at the first delay that cannot be told.
    have hsome : ∃ k, 0 < k ∧ k < n + 1 ∧ ¬ handler.CanRest k := by
      push Not at hall
      exact hall
    have hfirst := Nat.isLeast_find hsome
    generalize Nat.find hsome = first at hfirst
    obtain ⟨⟨hk, hlt, hrest⟩, hmin⟩ := id hfirst
    obtain ⟨m, rfl⟩ := Nat.exists_eq_succ_of_ne_zero (Nat.ne_of_gt hk)
    obtain ⟨course, hcompletes, hending, hmade⟩ := completes_panicked bound (by omega)
      (hbefore _ hk hlt) hrest fun k hk hkm =>
        goesOn_of_canRest bound hk (by omega) (hbefore k hk (by omega)) <| by
          by_contra hnot
          have := hmin ⟨hk, by omega, hnot⟩
          omega
    refine ⟨n + 1, course, hleast, hcompletes, fun other h => h.unique hcompletes,
      ⟨fun h => absurd h hall, fun h => ?_⟩, fun _ => ⟨m + 1, hfirst, hending, hmade⟩⟩
    rw [hending] at h
    cases h.1

/-- A handler that waits the longest duration there is before its only retry. -/
def patient : Handler Unit :=
  { name := "patient", retries := 1, backoff := .constant ⟨18446744073709551615999999999⟩,
    observer := some () }

/-- An operation that fails the first time. -/
def failsOnce : World Nat String :=
  { input := 7, operation := fun k _ => if k = 1 then .error (.failed "no") else .ok "done",
    draw := fun _ => 0 }

/-- The second attempt would give a value, but the delay before it rounds up to `2 ^ 64` seconds. -/
theorem attempts_until_last_patient :
    patient.retries < ExecutionState.maxAttempts ∧ ∃ course,
      IsLeast {k | 0 < k ∧ failsOnce.Concludes patient.retries k} 2 ∧
        failsOnce.Completes patient course ∧ course.ending = some (.panicked {}) ∧
        failsOnce.Made patient 1 course := by
  have bound : patient.retries < ExecutionState.maxAttempts := by decide
  obtain ⟨last, course, hleast, hcompletes, -, -, hpanic⟩ :=
    attempts_until_last failsOnce patient bound
  have htwo : IsLeast {k | 0 < k ∧ failsOnce.Concludes patient.retries k} 2 := by
    refine ⟨⟨by decide, .inl ⟨"done", rfl⟩⟩, fun k ⟨hk, hconcludes⟩ => ?_⟩
    by_contra hlt
    obtain rfl : k = 1 := by omega
    rcases hconcludes with ⟨value, h⟩ | ⟨failure, h, hpermanent⟩ | h
    · cases h
    · cases h
      cases hpermanent
    · cases h
  obtain rfl : last = 2 := Nat.le_antisymm (hleast.2 htwo.1) (htwo.2 hleast.1)
  -- The seconds round up to `2 ^ 64`, and so does the cap, which lets them through.
  have hrest : ¬ patient.CanRest 1 := by
    rintro ⟨spread, hspread⟩
    have hok : ((patient.backoff.next (1 - 1)).isOk) = false := by decide +kernel
    rw [hspread] at hok
    cases hok
  obtain ⟨first, hfirst, hending, hmade⟩ := hpanic ⟨1, by decide, by decide, hrest⟩
  obtain rfl : first = 1 := by
    have hpos := hfirst.1.1
    have hle := hfirst.2 ⟨Nat.one_pos, Nat.lt_succ_self 1, hrest⟩
    omega
  exact ⟨bound, course, htwo, hcompletes, hending, hmade⟩

end World

end Sequencer
