import Mathlib.Order.Monotone.Basic
import Sequencer.Proofs.Handler.Standing

/-!
# Timelines — an execution from its first attempt to its last

An execution is one chapter for each of its attempts and an end.  A chapter tells that its attempt
starts, and if that fails it tells so, shows the failure to the observer, tells the delay and waits
it out.  Meanwhile the handler remembers which attempt is under way, and after the end how many
there were.
-/

namespace Sequencer

variable {η ι α : Type}

theorem Duration.isZero_iff {delay : Duration} :
    delay.isZero = true ↔ delay.nanoseconds = 0 :=
  decide_eq_true_iff

/-- The only element that reads as `number` stands where it stands. -/
theorem List.eq_length_of_only {β γ : Type} {f : β → Option γ} {xs ys : List β} {x y : β}
    {number : γ} {q : Nat}
    (hxs : number ∉ xs.filterMap f) (hys : number ∉ ys.filterMap f) (hy : f y = some number)
    (h : (xs ++ x :: ys)[q]? = some y) : q = xs.length := by
  rcases Nat.lt_trichotomy q xs.length with hlt | heq | hlt
  · rw [List.getElem?_append_left hlt] at h
    exact absurd (List.mem_filterMap.mpr ⟨y, List.mem_of_getElem? h, hy⟩) hxs
  · exact heq
  · rw [List.getElem?_append_right (Nat.le_of_lt hlt)] at h
    obtain ⟨r, hr⟩ := Nat.exists_eq_succ_of_ne_zero (Nat.sub_ne_zero_of_lt hlt)
    rw [hr, List.getElem?_cons_succ] at h
    exact absurd (List.mem_filterMap.mpr ⟨y, List.mem_of_getElem? h, hy⟩) hys

namespace Course

/-- Times at which everything in a log happens, in its order.  A pause lasts at least as long as its
delay. -/
structure Timing (log : List (Happening ι α)) where
  instant : Nat → Nat
  ordered : Monotone instant
  lasts : ∀ p delay, log[p]? = some (.paused delay) →
    instant p + delay.nanoseconds ≤ instant (p + 1)

/-- The time that passes with a happening at the least, in nanoseconds. -/
def Happening.least : Happening ι α → Nat
  | paused delay => delay.nanoseconds
  | _ => 0

/-- The time that passes with a log at the least. -/
def elapsed (log : List (Happening ι α)) : Nat :=
  log.foldl (fun time happening => time + happening.least) 0

theorem elapsed_concat (log : List (Happening ι α)) (happening : Happening ι α) :
    elapsed (log ++ [happening]) = elapsed log + happening.least :=
  List.foldl_concat ..

theorem elapsed_take (log : List (Happening ι α)) {p : Nat} {happening : Happening ι α}
    (h : log[p]? = some happening) :
    elapsed (log.take (p + 1)) = elapsed (log.take p) + happening.least := by
  rw [List.take_add_one, h]
  exact elapsed_concat ..

theorem elapsed_take_monotone (log : List (Happening ι α)) :
    Monotone fun p => elapsed (log.take p) := by
  refine monotone_nat_of_le_succ fun p => ?_
  cases h : log[p]? with
  | none =>
    rw [List.take_add_one, h]
    exact Nat.le_of_eq (congrArg elapsed (List.append_nil _).symm)
  | some happening =>
    rw [elapsed_take log h]
    exact Nat.le_add_right _ _

/-- The earliest times there are: nothing but a pause takes any. -/
def Timing.earliest (log : List (Happening ι α)) : Timing log where
  instant p := elapsed (log.take p)
  ordered := elapsed_take_monotone log
  lasts _ _ h := Nat.le_of_eq (elapsed_take log h).symm

end Course

namespace World

variable {world : World ι α} {handler : Handler η} {delays : Nat → Duration} {last k n : Nat}

/-! ## 1. Chapters -/

/-- The delay drawn after attempt `k`. -/
def Yields (world : World ι α) (handler : Handler η) (k : Nat) (delay : Duration) : Prop :=
  ∃ spread, handler.backoff.next (k - 1) = .ok spread ∧ spread.pick (world.draw k) = delay

def starting (handler : Handler η) (k : Nat) : Event :=
  { kind := .handlerStarting, name := some handler.name, attempt := some k }

def failing (handler : Handler η) (k : Nat) (failure : Failure) : Event :=
  { kind := .handlerFailed, name := some handler.name, attempt := some k,
    reason := some failure.text }

def scheduled (handler : Handler η) (k : Nat) (delay : Duration) : Event :=
  { kind := .retryScheduled, name := some handler.name, attempt := some k,
    delayMs := some (Nat.min delay.millis (maxWord 32)) }

/-- The event at the end, with the number of attempts. -/
def finale (world : World ι α) (handler : Handler η) (last : Nat) : Event :=
  match world.answer last with
  | .ok _ => { kind := .handlerSucceeded, name := some handler.name, attempt := some last }
  | .error failure =>
    { kind := .handlerExhausted, name := some handler.name, attempt := some last,
      reason := some failure.text }

/-- What is told of attempt `k` of `last`. -/
def announcement (world : World ι α) (handler : Handler η) (delays : Nat → Duration)
    (last k : Nat) : List Event :=
  starting handler k ::
    match world.answer k with
    | .ok _ => []
    | .error failure =>
      failing handler k failure :: if k < last then [scheduled handler k (delays k)] else []

/-- What happens after attempt `k` before the next one starts. -/
def interlude (handler : Handler η) (delays : Nat → Duration) (k : Nat) :
    List (Course.Happening ι α) :=
  .told (scheduled handler k (delays k)) ::
    if (delays k).isZero then [] else [.paused (delays k), .rested]

/-- What happens in attempt `k` of `last`, and before the next one starts. -/
def chapter (world : World ι α) (handler : Handler η) (delays : Nat → Duration) (last k : Nat) :
    List (Course.Happening ι α) :=
  .told (starting handler k) :: .called world.input :: .answered (world.answer k) ::
    match world.answer k with
    | .ok _ => []
    | .error failure =>
      .told (failing handler k failure) ::
        (if handler.observer.isSome then [.shown failure, .seen] else []) ++
        if k < last then interlude handler delays k else []

/-- What happens in an execution of `last` attempts. -/
def chronicle (world : World ι α) (handler : Handler η) (delays : Nat → Duration) (last : Nat) :
    List (Course.Happening ι α) :=
  (List.range' 1 last).flatMap (world.chapter handler delays last) ++
    [.told (world.finale handler last)]

theorem chapter_of_goesOn {failure : Failure} {spread : Spread}
    (h : world.GoesOn handler k failure spread) (hlt : k < last)
    (hcounted : ordinal k = k) (hdelay : spread.pick (world.draw k) = delays k) :
    world.trial handler k ++ world.respite handler k = world.chapter handler delays last k := by
  rw [trial, verdict_error h.answer, respite, h.delay, chapter, h.answer, hcounted]
  simp only [if_pos hlt, hdelay, entry, hcounted, interlude, List.append_assoc]
  cases handler.observer.isSome <;> rfl

theorem chapter_of_ok {value : α} (h : world.answer k = .ok value) (hcounted : ordinal k = k) :
    world.trial handler k =
      world.chapter handler delays k k ++ [.told (world.finale handler k)] := by
  rw [trial, verdict, chapter, finale, h, entry, hcounted]
  rfl

theorem chapter_of_error {failure : Failure} (h : world.answer k = .error failure)
    (hcounted : ordinal k = k) :
    world.trial handler k ++
        [.told { handler.event (.running (ordinal k)) .handlerExhausted with
          reason := some failure.text }] =
      world.chapter handler delays k k ++ [.told (world.finale handler k)] := by
  rw [trial, verdict_error h, chapter, finale, h, entry, hcounted]
  simp only [Nat.lt_irrefl, if_false]
  cases handler.observer.isSome <;> rfl

/-- The attempts before the last one, each with its delay. -/
theorem history_eq_chapters (h : world.Continues handler n) (hlt : n < last)
    (hcounted : ∀ k, k ≤ n → ordinal k = k)
    (yields : ∀ k, 0 < k → k ≤ n → world.Yields handler k (delays k)) :
    world.history handler n =
      (List.range' 1 n).flatMap (world.chapter handler delays last) := by
  unfold history
  refine List.flatMap_congr fun k hk => ?_
  rw [List.mem_range'_1] at hk
  obtain ⟨failure, spread, hround⟩ := h k hk.1 (by omega)
  obtain ⟨other, hnext, hpick⟩ := yields k hk.1 (by omega)
  have hsame := hround.delay
  rw [hcounted k (by omega), hnext] at hsame
  cases hsame
  exact chapter_of_goesOn hround (by omega) (hcounted k (by omega)) hpick

/-! ## 2. The end -/

/-- With delays that can be told the execution ends with its last attempt. -/
theorem completes_chronicle (bound : handler.retries < ExecutionState.maxAttempts)
    (least : IsLeast {k | 0 < k ∧ world.Concludes handler.retries k} last)
    (yields : ∀ k, 0 < k → k < last → world.Yields handler k (delays k)) :
    ∃ course, world.Completes handler course ∧
      course.ending = some (.returned (world.answer last)) ∧
      course.log = world.chronicle handler delays last ∧
      course.state = (match world.answer last with
        | .ok _ => .success last
        | .error _ => .failed last) := by
  obtain ⟨⟨hpos, hlast⟩, hmin⟩ := least
  obtain ⟨n, rfl⟩ := Nat.exists_eq_succ_of_ne_zero (Nat.ne_of_gt hpos)
  have hle : n ≤ handler.retries :=
    Nat.le_of_succ_le_succ (hmin ⟨Nat.succ_pos _, .inr (.inr rfl)⟩)
  have hcounted : ∀ k, k ≤ n + 1 → ordinal k = k := fun k hk => ordinal_of_le (by omega)
  have hcontinues : world.Continues handler n := fun k hk hkn =>
    goesOn_of_canRest bound hk (by omega)
      (fun h => absurd (hmin ⟨hk, h⟩) (Nat.not_le_of_lt (Nat.lt_succ_of_le hkn)))
      ((yields k hk (by omega)).imp fun _ h => h.1)
  have hhistory : world.history handler n =
      (List.range' 1 n).flatMap (world.chapter handler delays (n + 1)) :=
    history_eq_chapters hcontinues (Nat.lt_succ_self n)
      (fun k hk => hcounted k (by omega)) fun k hk hkn => yields k hk (by omega)
  have hchronicle : world.chronicle handler delays (n + 1) =
      world.history handler n ++ (world.chapter handler delays (n + 1) (n + 1) ++
        [.told (world.finale handler (n + 1))]) := by
    rw [chronicle, List.range'_1_concat, List.flatMap_append, List.flatMap_singleton,
      Nat.add_comm 1 n, hhistory, List.append_assoc]
  have hself := hcounted (n + 1) (Nat.le_refl _)
  cases hanswer : world.answer (n + 1) with
  | ok value =>
    obtain ⟨replies, hrun⟩ := run_ok hcontinues hanswer
    refine ⟨_, ⟨replies, rfl, ?_⟩, ?_, ?_, ?_⟩
    · rw [hrun]; rfl
    · rw [hrun]; rfl
    · rw [hrun, hchronicle, ← chapter_of_ok hanswer hself]
    · rw [hrun, hself]
  | error failure =>
    obtain ⟨replies, hrun⟩ := run_last hcontinues hanswer
      (isLast_of_concludes bound (by omega) hlast hanswer)
    refine ⟨_, ⟨replies, rfl, ?_⟩, ?_, ?_, ?_⟩
    · rw [hrun]; rfl
    · rw [hrun]; rfl
    · rw [hrun, hchronicle, ← chapter_of_error hanswer hself, List.append_assoc]
    · rw [hrun, hself]

/-! ## 3. Events -/

theorem chapter_events (world : World ι α) (handler : Handler η) (delays : Nat → Duration)
    (last k : Nat) :
    (world.chapter handler delays last k).filterMap Course.Happening.event? =
      world.announcement handler delays last k := by
  unfold chapter announcement interlude
  cases world.answer k with
  | ok value => rfl
  | error failure =>
    by_cases hlt : k < last
    · simp only [if_pos hlt]
      cases handler.observer.isSome <;> cases (delays k).isZero <;> rfl
    · simp only [if_neg hlt]
      cases handler.observer.isSome <;> rfl

theorem chronicle_events (world : World ι α) (handler : Handler η) (delays : Nat → Duration)
    (last : Nat) :
    (world.chronicle handler delays last).filterMap Course.Happening.event? =
      (List.range' 1 last).flatMap (world.announcement handler delays last) ++
        [world.finale handler last] := by
  rw [chronicle, List.filterMap_append, List.filterMap_flatMap]
  simp only [chapter_events]
  rfl

/-! ## 4. Times -/

theorem announcement_starting (world : World ι α) (handler : Handler η)
    (delays : Nat → Duration) (last k : Nat) :
    (world.announcement handler delays last k).filterMap Event.starting? = [k] := by
  unfold announcement
  cases world.answer k with
  | ok value => rfl
  | error failure => by_cases hlt : k < last <;> simp only [hlt, if_true, if_false] <;> rfl

theorem chapter_starting (world : World ι α) (handler : Handler η) (delays : Nat → Duration)
    (last k : Nat) :
    (world.chapter handler delays last k).filterMap Course.Happening.starting? = [k] := by
  rw [Course.filterMap_starting?, chapter_events, announcement_starting]

theorem chapters_starting (world : World ι α) (handler : Handler η) (delays : Nat → Duration)
    (last : Nat) (numbers : List Nat) :
    (numbers.flatMap (world.chapter handler delays last)).filterMap Course.Happening.starting? =
      numbers := by
  rw [List.filterMap_flatMap]
  simp only [chapter_starting]
  exact List.flatMap_singleton' numbers

theorem finale_starting (world : World ι α) (handler : Handler η) (last : Nat) :
    (Course.Happening.told (world.finale handler last) : Course.Happening ι α).starting? =
      none := by
  unfold finale
  cases world.answer last <;> rfl

/-- Between a failure that is seen and the start of the next attempt there is the delay and nothing
else, and no other attempt goes by that number. -/
theorem chronicle_split (handler : Handler η) (delays : Nat → Duration) (hpos : 0 < k)
    (hlt : k < last) {failure : Failure} (hanswer : world.answer k = .error failure) :
    ∃ before after, world.chronicle handler delays last =
        before ++ interlude handler delays k ++ .told (starting handler (k + 1)) :: after ∧
      k + 1 ∉ before.filterMap Course.Happening.starting? ∧
      k + 1 ∉ after.filterMap Course.Happening.starting? := by
  obtain ⟨j, rfl⟩ := Nat.exists_eq_succ_of_ne_zero (Nat.ne_of_gt hpos)
  obtain ⟨m, rfl⟩ := Nat.exists_eq_add_of_lt hlt
  have hrange : List.range' 1 (j + 1 + m + 1) =
      List.range' 1 j ++ (j + 1) :: (j + 2) :: List.range' (j + 3) m := by
    rw [show j + 1 + m + 1 = j + (m + 2) by omega, ← List.range'_append_1, Nat.add_comm 1 j]
    rfl
  obtain ⟨head, hhead⟩ : ∃ head, world.chapter handler delays (j + 1 + m + 1) (j + 1) =
      head ++ interlude handler delays (j + 1) := by
    refine ⟨.told (starting handler (j + 1)) :: .called world.input ::
      .answered (world.answer (j + 1)) :: .told (failing handler (j + 1) failure) ::
        if handler.observer.isSome then [.shown failure, .seen] else [], ?_⟩
    rw [chapter, hanswer]
    simp only [if_pos hlt]
    rfl
  have hstarting := chapter_starting world handler delays (j + 1 + m + 1)
  refine ⟨(List.range' 1 j).flatMap (world.chapter handler delays (j + 1 + m + 1)) ++ head,
    (world.chapter handler delays (j + 1 + m + 1) (j + 2)).tail ++
      ((List.range' (j + 3) m).flatMap (world.chapter handler delays (j + 1 + m + 1)) ++
        [.told (world.finale handler (j + 1 + m + 1))]), ?_, fun hmem => ?_, fun hmem => ?_⟩
  · rw [chronicle, hrange, List.flatMap_append, List.flatMap_cons, List.flatMap_cons, hhead]
    simp only [List.append_assoc]
    rfl
  · -- The attempts before it have smaller numbers.
    rw [List.filterMap_append, chapters_starting, List.mem_append, List.mem_range'_1] at hmem
    rcases hmem with hmem | hmem
    · omega
    · have hself : j + 1 + 1 ∈ (world.chapter handler delays (j + 1 + m + 1) (j + 1)).filterMap
          Course.Happening.starting? := by
        rw [hhead, List.filterMap_append]
        exact List.mem_append_left _ hmem
      rw [hstarting, List.mem_singleton] at hself
      omega
  · -- Those after it have greater ones.
    have htail : ((world.chapter handler delays (j + 1 + m + 1) (j + 2)).tail).filterMap
        Course.Happening.starting? = [] := (List.cons.inj (hstarting (j + 2))).2
    rw [List.filterMap_append, htail, List.filterMap_append, chapters_starting,
      List.filterMap_cons_none (finale_starting world handler _), List.filterMap_nil,
      List.nil_append, List.append_nil, List.mem_range'_1] at hmem
    omega

theorem interlude_starting (handler : Handler η) (delays : Nat → Duration) (k : Nat) :
    (interlude handler delays k : List (Course.Happening ι α)).filterMap
      Course.Happening.starting? = [] := by
  unfold interlude
  cases (delays k).isZero <;> rfl

/-- An attempt starts no earlier than its delay after everything that the observer was shown
before. -/
theorem interlude_apart {before after : List (Course.Happening ι α)}
    (timing : Course.Timing (before ++ interlude handler delays k ++
      .told (starting handler (k + 1)) :: after))
    (hbefore : k + 1 ∉ before.filterMap Course.Happening.starting?)
    (hafter : k + 1 ∉ after.filterMap Course.Happening.starting?) {p q : Nat} (hlt : p < q)
    (hseen : (before ++ interlude handler delays k ++
      .told (starting handler (k + 1)) :: after)[p]? = some .seen)
    (hstart : (before ++ interlude handler delays k ++
      .told (starting handler (k + 1)) :: after)[q]? = some (.told (starting handler (k + 1)))) :
    timing.instant p + (delays k).nanoseconds ≤ timing.instant q := by
  have hq : q = (before ++ interlude handler delays k).length :=
    List.eq_length_of_only (f := Course.Happening.starting?) (by
      rw [List.filterMap_append, interlude_starting, List.append_nil]
      exact hbefore) hafter rfl hstart
  cases hzero : (delays k).isZero with
  | true =>
    rw [Duration.isZero_iff.mp hzero]
    exact timing.ordered (Nat.le_of_lt hlt)
  | false =>
    have hinterlude : interlude handler delays k = [.told (scheduled handler k (delays k)),
        .paused (delays k), (.rested : Course.Happening ι α)] := by
      rw [interlude, hzero]
      rfl
    rw [hinterlude, List.length_append] at hq
    replace hq : q = before.length + 3 := hq
    rw [hinterlude, List.append_assoc] at hseen
    have hp : p < before.length := by
      by_contra hle
      rw [List.getElem?_append_right (Nat.le_of_not_lt hle)] at hseen
      obtain h | h | h : p - before.length = 0 ∨ p - before.length = 1 ∨ p - before.length = 2 := by
        omega
      all_goals
        rw [h] at hseen
        cases hseen
    have hpaused := timing.lasts (before.length + 1) (delays k) (by
      rw [hinterlude, List.append_assoc, List.getElem?_append_right (Nat.le_add_right _ 1),
        Nat.add_sub_cancel_left]
      rfl)
    calc timing.instant p + (delays k).nanoseconds
        ≤ timing.instant (before.length + 1) + (delays k).nanoseconds :=
          Nat.add_le_add_right (timing.ordered (by omega)) _
      _ ≤ timing.instant (before.length + 2) := hpaused
      _ ≤ timing.instant q := timing.ordered (by omega)

/-! ## 5. What the handler remembers -/

/-- While the execution goes on the handler remembers the attempt that started last, and after its
end how many there were. -/
theorem remembers_run (bound : handler.retries < ExecutionState.maxAttempts)
    {course : Course ι α} {state : ExecutionState} (h : world.Completes handler course)
    (hstate : course.state = state) (replies : Nat) :
    ((world.run handler replies).2.ending = none →
      (world.run handler replies).1.last =
        .running (world.run handler replies).2.inputs.length) ∧
    ((world.run handler replies).2.ending ≠ none →
      (world.run handler replies).1.last = state) := by
  rw [last_run]
  refine ⟨fun hnone => ?_, fun hended => ?_⟩
  · have hle := (budget_run world bound replies).1
    rw [(counted_run world handler replies).2.running hnone, ← inputs_length_run,
      ordinal_of_le (by omega)]
  · have hover : world.Completes handler (world.run handler replies).2 :=
      ⟨replies, rfl, Option.isSome_iff_ne_none.mpr hended⟩
    rw [hover.unique h, hstate]

/-- An execution of `last` attempts whose delays can all be told.  It tells that each attempt
starts, and if it fails that it failed, with the text of the failure, and if it is not the last one
the delay before the next, in milliseconds as far as they can be counted; in the end it tells that
it succeeded or gave up.  The observer is shown every failure, and comes back, after the failure is
told and before the delay or the end is.  Whatever time everything takes, an attempt starts no
earlier than its delay after the observer came back.  All the while the handler remembers the
attempt that started last, and after the end how many attempts there were. -/
theorem timeline_of_execution (world : World ι α) (handler : Handler η)
    (bound : handler.retries < ExecutionState.maxAttempts) (delays : Nat → Duration) (last : Nat)
    (least : IsLeast {k | 0 < k ∧ world.Concludes handler.retries k} last)
    (yields : ∀ k, 0 < k → k < last → world.Yields handler k (delays k)) :
    ∃ course, world.Completes handler course ∧
      course.ending = some (.returned (world.answer last)) ∧
      course.events =
        (List.range' 1 last).flatMap (world.announcement handler delays last) ++
          [world.finale handler last] ∧
      course.log =
        (List.range' 1 last).flatMap (world.chapter handler delays last) ++
          [.told (world.finale handler last)] ∧
      (∀ timing : Course.Timing course.log, ∀ k p q, 0 < k → k < last → p < q →
        course.log[p]? = some .seen →
        course.log[q]? = some (.told (starting handler (k + 1))) →
        timing.instant p + (delays k).nanoseconds ≤ timing.instant q) ∧
      ∀ replies,
        let (now, current) := world.run handler replies
        current.numbers = List.range' 1 current.inputs.length ∧
          (current.ending = none → now.last = .running current.inputs.length) ∧
          (current.ending ≠ none → now.last = match world.answer last with
            | .ok _ => .success last
            | .error _ => .failed last) := by
  obtain ⟨course, hcompletes, hending, hlog, hstate⟩ := completes_chronicle bound least yields
  refine ⟨course, hcompletes, hending, ?_, hlog, ?_, fun replies =>
    ⟨(budget_run world bound replies).2, remembers_run bound hcompletes hstate replies⟩⟩
  · rw [Course.events, hlog, chronicle_events]
  · intro timing k p q hpos hlt hpq hseen hstart
    -- Every attempt before the last one failed.
    obtain ⟨failure, hanswer⟩ : ∃ failure, world.answer k = .error failure := by
      cases hanswer : world.answer k with
      | error failure => exact ⟨failure, rfl⟩
      | ok value =>
        exact absurd (least.2 ⟨hpos, .inl ⟨value, hanswer⟩⟩) (Nat.not_le_of_lt hlt)
    obtain ⟨before, after, hsplit, hbefore, hafter⟩ :=
      chronicle_split handler delays hpos hlt hanswer
    rw [hsplit] at hlog
    generalize course.log = log at hlog timing hseen hstart
    subst hlog
    exact interlude_apart timing hbefore hafter hpq hseen hstart

/-- A handler that waits a fifth of a second before each retry. -/
def steady : Handler Unit :=
  { name := "steady", retries := 3, backoff := .constant (.ofMillis 200), observer := some () }

/-- An operation that fails the first two times. -/
def failsTwice : World Nat String :=
  { input := 7, operation := fun k _ => if k < 3 then .error (.failed "no") else .ok "done",
    draw := fun _ => 0 }

/-- Three attempts.  The observer comes back from the first failure as the sixth thing that happens,
and the second attempt starts as the tenth, after the delay and no later if nothing else takes
time. -/
theorem timeline_of_execution_steady :
    steady.retries < ExecutionState.maxAttempts ∧
      IsLeast {k | 0 < k ∧ failsTwice.Concludes steady.retries k} 3 ∧
      (∀ k, 0 < k → k < 3 → failsTwice.Yields steady k (.ofMillis 200)) ∧
      ∃ course, failsTwice.Completes steady course ∧
        course.ending = some (.returned (.ok "done")) ∧
        course.events.map (fun event => (event.kind, event.attempt, event.delayMs)) =
          [(.handlerStarting, some 1, none), (.handlerFailed, some 1, none),
            (.retryScheduled, some 1, some 200), (.handlerStarting, some 2, none),
            (.handlerFailed, some 2, none), (.retryScheduled, some 2, some 200),
            (.handlerStarting, some 3, none), (.handlerSucceeded, some 3, none)] ∧
        (∀ timing : Course.Timing course.log,
          timing.instant 5 + 200000000 ≤ timing.instant 9) ∧
        (Course.Timing.earliest course.log).instant 9 = 200000000 := by
  have bound : steady.retries < ExecutionState.maxAttempts := by decide
  have least : IsLeast {k | 0 < k ∧ failsTwice.Concludes steady.retries k} 3 := by
    refine ⟨⟨by decide, .inl ⟨"done", rfl⟩⟩, fun k ⟨hk, hconcludes⟩ => ?_⟩
    by_contra hlt
    have hanswer : failsTwice.answer k = .error (.failed "no") := if_pos (by omega)
    rcases hconcludes with ⟨value, h⟩ | ⟨failure, h, hpermanent⟩ | h
    · rw [hanswer] at h
      cases h
    · rw [hanswer] at h
      cases h
      cases hpermanent
    · replace h : k = 4 := h
      omega
  have yields : ∀ k, 0 < k → k < 3 → failsTwice.Yields steady k (.ofMillis 200) := by
    intro k hk hlt
    refine ⟨.exactly (.ofMillis 200), ?_, rfl⟩
    obtain rfl | rfl : k = 1 ∨ k = 2 := by omega
    · decide +kernel
    · decide +kernel
  obtain ⟨course, hcompletes, hending, hevents, hlog, hapart, -⟩ :=
    timeline_of_execution failsTwice steady bound (fun _ => .ofMillis 200) 3 least yields
  refine ⟨bound, least, yields, course, hcompletes, hending, ?_, fun timing => ?_, ?_⟩
  · rw [hevents]
    rfl
  · exact hapart timing 1 5 9 (by decide) (by decide) (by decide) (by rw [hlog]; rfl)
      (by rw [hlog]; rfl)
  · rw [hlog]
    rfl

end World

end Sequencer
