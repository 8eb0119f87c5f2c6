import Sequencer.Handler

/-!
# Courses — an execution and what comes back to it

The turns of a handler say what is to be done next; a course is an execution with all of it done.
It calls the operation with its input, shows its failures to the observer, waits its delays out and
goes on with the turn that each reply leads to.  The replies come from a world, which may answer
every call of the operation in any way and draw the delays in any way.
-/

namespace Sequencer

variable {η ι α : Type}

/-! ## 1. Courses -/

namespace Course

/-- What comes back to an execution. -/
inductive Reply (α : Type) where
  /-- The operation came back. -/
  | answer (result : Except Failure α)
  /-- The observer has seen the failure; the draw picks the delay. -/
  | seen (draw : Nat)
  | rested

def Reply.value : Reply α → Option α
  | answer (.ok value) => some value
  | _ => none

/-- What happens in an execution. -/
inductive Happening (ι α : Type) where
  | told (event : Event)
  | called (input : ι)
  | answered (result : Except Failure α)
  | shown (failure : Failure)
  | seen
  | paused (delay : Duration)
  | rested

inductive Ending (α : Type) where
  | returned (result : Except Failure α)
  | panicked (fault : SecondsOutOfRange)

end Course

/-- An execution under way. -/
structure Course (ι α : Type) where
  input : ι
  state : ExecutionState
  /-- What it waits for, or how it ends. -/
  move : Handler.Move
  calls : Nat := 0
  value : Option α := none
  /-- What happened so far, in order. -/
  log : List (Course.Happening ι α) := []

namespace Course

/-- What a move sets going. -/
def opening (hooked : Bool) (input : ι) : Handler.Move → List (Happening ι α)
  | .attempt => [.called input]
  | .observe failure => if hooked then [.shown failure] else []
  -- No time passes in a delay of zero, and nothing is waited for.
  | .pause delay => if delay.isZero then [] else [.paused delay]
  | _ => []

theorem opening_giveUp (hooked : Bool) (input : ι) (failure : Failure) :
    opening hooked input (.giveUp failure) = ([] : List (Happening ι α)) := rfl

theorem opening_broken (hooked : Bool) (input : ι) (fault : SecondsOutOfRange) :
    opening hooked input (.broken fault) = ([] : List (Happening ι α)) := rfl

/-- What the reply to a move brings to its end. -/
def closing (hooked : Bool) : Handler.Move → Reply α → List (Happening ι α)
  | .attempt, .answer result => [.answered result]
  | .observe _, .seen _ => if hooked then [.seen] else []
  | .pause delay, .rested => if delay.isZero then [] else [.rested]
  | _, _ => []

def callsOf : Handler.Move → Nat
  | .attempt => 1
  | _ => 0

/-- The execution takes a turn: its events are told, and its move is set going. -/
def take (course : Course ι α) (turn : Handler.Turn η) : Course ι α :=
  { course with
    state := turn.state
    move := turn.move
    calls := course.calls + callsOf turn.move
    log := course.log ++ turn.events.map .told ++
      opening turn.handler.observer.isSome course.input turn.move }

/-- A handler and an execution of it that begins. -/
def start (handler : Handler η) (input : ι) : Handler η × Course ι α :=
  let turn := handler.begin
  (turn.handler, ({ input, state := .idle, move := .attempt } : Course ι α).take turn)

/-- The turn that a reply leads to, if it is the one that the execution waits for. -/
def turn (handler : Handler η) (course : Course ι α) (reply : Reply α) :
    Option (Handler.Turn η) :=
  match course.move, reply with
  | .attempt, .answer (.ok _) => some (handler.attempted course.state none)
  | .attempt, .answer (.error failure) => some (handler.attempted course.state (some failure))
  | .observe failure, .seen draw => some (handler.observed course.state failure draw)
  | .pause _, .rested => some (handler.resumed course.state)
  | _, _ => none

def advance (handler : Handler η) (course : Course ι α) (reply : Reply α) :
    Option (Handler η × Course ι α) :=
  (course.turn handler reply).map fun turn =>
    let log := course.log ++ closing handler.observer.isSome course.move reply
    (turn.handler, { course with value := reply.value, log }.take turn)

def ending (course : Course ι α) : Option (Ending α) :=
  match course.move with
  | .succeed => course.value.map fun value => .returned (.ok value)
  | .giveUp failure => some (.returned (.error failure))
  | .broken fault => some (.panicked fault)
  -- It waits for a reply.
  | _ => none

end Course

/-! ## 2. Worlds -/

/-- What surrounds an execution. -/
structure World (ι α : Type) where
  input : ι
  /-- The result of a call of the operation, by its number from one and its input. -/
  operation : Nat → ι → Except Failure α
  /-- The draw that picks the delay after an attempt, by its number from one. -/
  draw : Nat → Nat

namespace World

def answer (world : World ι α) (k : Nat) : Except Failure α := world.operation k world.input

/-- The reply that the execution waits for. -/
def reply (world : World ι α) (course : Course ι α) : Option (Course.Reply α) :=
  match course.move with
  | .attempt => some (.answer (world.operation course.calls course.input))
  | .observe _ => some (.seen (world.draw course.calls))
  | .pause _ => some .rested
  | _ => none

def step (world : World ι α) (run : Handler η × Course ι α) : Handler η × Course ι α :=
  -- An execution that is over waits for no reply and stays as it is.
  ((world.reply run.2).bind (run.2.advance run.1)).getD run

/-- An execution of the handler after a number of replies. -/
def run (world : World ι α) (handler : Handler η) : Nat → Handler η × Course ι α
  | 0 => Course.start handler world.input
  | n + 1 => world.step (world.run handler n)

/-- An execution of the handler comes to its end as `course`. -/
def Completes (world : World ι α) (handler : Handler η) (course : Course ι α) : Prop :=
  ∃ replies, (world.run handler replies).2 = course ∧ course.ending.isSome

/-! ## 3. Single steps -/

theorem step_of_turn {world : World ι α} {run : Handler η × Course ι α} {reply : Course.Reply α}
    {turn : Handler.Turn η} (hreply : world.reply run.2 = some reply)
    (hturn : run.2.turn run.1 reply = some turn) :
    world.step run = (turn.handler,
      ({ run.2 with
        value := reply.value
        log := run.2.log ++ Course.closing run.1.observer.isSome run.2.move reply } :
        Course ι α).take turn) := by
  simp only [step, hreply, Option.bind_some, Course.advance, hturn, Option.map_some,
    Option.getD_some]

theorem step_ended {world : World ι α} {run : Handler η × Course ι α}
    (h : run.2.ending.isSome) : world.step run = run := by
  have hreply : world.reply run.2 = none := by
    unfold Course.ending at h
    unfold reply
    split at h <;> simp_all
  simp only [step, hreply, Option.bind_none, Option.getD_none]

theorem run_ended {world : World ι α} {handler : Handler η} {n : Nat}
    (h : (world.run handler n).2.ending.isSome) (m : Nat) :
    world.run handler (n + m) = world.run handler n := by
  induction m with
  | zero => rfl
  | succ m ih =>
    show world.step (world.run handler (n + m)) = _
    rw [ih, step_ended h]

/-- An execution comes to one end only. -/
theorem Completes.unique {world : World ι α} {handler : Handler η} {course other : Course ι α}
    (h : world.Completes handler course) (g : world.Completes handler other) : course = other := by
  obtain ⟨n, rfl, hn⟩ := h
  obtain ⟨m, rfl, hm⟩ := g
  -- Both are where the execution stands after `n + m` replies.
  have := run_ended hn m
  rw [Nat.add_comm, run_ended hm n] at this
  rw [this]

end World

/-! ## 4. What a handler makes of a failure -/

namespace Handler

variable {handler : Handler η} {state : ExecutionState} {failure : Failure}

theorem isLast_iff : handler.isLast state failure = true ↔
    failure.isRetryable = false ∨ handler.retries ≤ state.attempts - 1 := by
  simp only [isLast, Bool.or_eq_true, Bool.not_eq_true', decide_eq_true_eq]

theorem observed_last (h : handler.isLast state failure = true) (draw : Nat) :
    handler.observed state failure draw =
      { handler := handler.record state.giveUp, state := state.giveUp,
        events := [{ handler.event state .handlerExhausted with reason := some failure.text }],
        move := .giveUp failure } := by
  rw [observed, if_pos h]

theorem observed_ok {spread : Spread} (h : handler.isLast state failure = false)
    (hnext : handler.backoff.next (state.attempts - 1) = .ok spread) (draw : Nat) :
    handler.observed state failure draw =
      { handler, state,
        events := [{ handler.event state .retryScheduled with
          delayMs := some (Event.delayField (spread.pick draw)) }],
        move := .pause (spread.pick draw) } := by
  rw [observed, if_neg (by rw [h]; exact Bool.false_ne_true), hnext]

theorem observed_error {fault : SecondsOutOfRange} (h : handler.isLast state failure = false)
    (hnext : handler.backoff.next (state.attempts - 1) = .error fault) (draw : Nat) :
    handler.observed state failure draw =
      { handler, state, events := [], move := .broken fault } := by
  rw [observed, if_neg (by rw [h]; exact Bool.false_ne_true), hnext]

end Handler

/-! ## 5. One attempt after the other -/

namespace World

/-- The number that attempt `k` goes by.  The count stays at the greatest number, so that beyond it
all attempts go by the same one. -/
def ordinal (k : Nat) : Nat := Nat.min k ExecutionState.maxAttempts

theorem ordinal_succ (k : Nat) :
    Nat.min (ordinal k + 1) ExecutionState.maxAttempts = ordinal (k + 1) := by
  show min (min k _ + 1) _ = min (k + 1) _
  omega

def busy (handler : Handler η) (k : Nat) : Handler η :=
  { handler with started := true, last := .running (ordinal k) }

/-- Attempt `k` under way, with what happened so far. -/
def attempting (world : World ι α) (k : Nat) (move : Handler.Move)
    (log : List (Course.Happening ι α)) : Course ι α :=
  { input := world.input, state := .running (ordinal k), move, calls := k, log }

/-- What is logged when attempt `k` starts. -/
def entry (world : World ι α) (handler : Handler η) (k : Nat) : List (Course.Happening ι α) :=
  [.told (handler.event (.running (ordinal k)) .handlerStarting), .called world.input]

theorem run_zero (world : World ι α) (handler : Handler η) :
    world.run handler 0 =
      (busy handler 1, world.attempting 1 .attempt (world.entry handler 1)) := rfl

theorem step_answer_ok {world : World ι α} {k : Nat} {value : α} (h : world.answer k = .ok value)
    (handler : Handler η) (log : List (Course.Happening ι α)) :
    world.step (busy handler k, world.attempting k .attempt log) =
      ({ handler with started := true, last := .success (ordinal k) },
        { input := world.input, state := .success (ordinal k), move := .succeed, calls := k,
          value := some value
          log := log ++ [.answered (.ok value),
            .told (handler.event (.running (ordinal k)) .handlerSucceeded)] }) := by
  have hreply : world.reply (world.attempting k .attempt log) = some (.answer (.ok value)) := by
    rw [← h]; rfl
  rw [step_of_turn hreply rfl]
  simp only [Course.take, attempting, List.append_assoc]
  rfl

theorem step_answer_error {world : World ι α} {k : Nat} {failure : Failure}
    (h : world.answer k = .error failure) (handler : Handler η)
    (log : List (Course.Happening ι α)) :
    world.step (busy handler k, world.attempting k .attempt log) =
      (busy handler k, world.attempting k (.observe failure) (log ++ [.answered (.error failure),
        .told { handler.event (.running (ordinal k)) .handlerFailed with
          reason := some failure.text }] ++
        if handler.observer.isSome then [.shown failure] else [])) := by
  have hreply : world.reply (world.attempting k .attempt log) =
      some (.answer (.error failure)) := by
    rw [← h]; rfl
  rw [step_of_turn hreply rfl]
  simp only [Course.take, attempting, List.append_assoc]
  rfl

theorem step_seen_last {world : World ι α} {handler : Handler η} {k : Nat} {failure : Failure}
    (h : handler.isLast (.running (ordinal k)) failure = true)
    (log : List (Course.Happening ι α)) :
    world.step (busy handler k, world.attempting k (.observe failure) log) =
      ({ handler with started := true, last := .failed (ordinal k) },
        { input := world.input, state := .failed (ordinal k), move := .giveUp failure, calls := k
          log := log ++ (if handler.observer.isSome then [.seen] else []) ++
            [.told { handler.event (.running (ordinal k)) .handlerExhausted with
              reason := some failure.text }] }) := by
  have h' : (busy handler k).isLast (.running (ordinal k)) failure = true := h
  have hturn : (world.attempting k (.observe failure) log).turn (busy handler k)
      (.seen (world.draw k)) = some _ := congrArg some (Handler.observed_last h' _)
  rw [step_of_turn rfl hturn]
  simp only [Course.take, attempting, Course.opening_giveUp, List.append_nil]
  rfl

theorem step_seen_ok {world : World ι α} {handler : Handler η} {k : Nat} {failure : Failure}
    {spread : Spread} (h : handler.isLast (.running (ordinal k)) failure = false)
    (hnext : handler.backoff.next (ordinal k - 1) = .ok spread)
    (log : List (Course.Happening ι α)) :
    world.step (busy handler k, world.attempting k (.observe failure) log) =
      (busy handler k, world.attempting k (.pause (spread.pick (world.draw k)))
        (log ++ (if handler.observer.isSome then [.seen] else []) ++
          [.told { handler.event (.running (ordinal k)) .retryScheduled with
            delayMs := some (Event.delayField (spread.pick (world.draw k))) }] ++
          if (spread.pick (world.draw k)).isZero then []
          else [.paused (spread.pick (world.draw k))])) := by
  have h' : (busy handler k).isLast (.running (ordinal k)) failure = false := h
  have hturn : (world.attempting k (.observe failure) log).turn (busy handler k)
      (.seen (world.draw k)) = some _ := congrArg some (Handler.observed_ok h' hnext _)
  rw [step_of_turn rfl hturn]
  simp only [Course.take, attempting]
  rfl

theorem step_seen_error {world : World ι α} {handler : Handler η} {k : Nat} {failure : Failure}
    {fault : SecondsOutOfRange} (h : handler.isLast (.running (ordinal k)) failure = false)
    (hnext : handler.backoff.next (ordinal k - 1) = .error fault)
    (log : List (Course.Happening ι α)) :
    world.step (busy handler k, world.attempting k (.observe failure) log) =
      (busy handler k, world.attempting k (.broken fault)
        (log ++ if handler.observer.isSome then [.seen] else [])) := by
  have h' : (busy handler k).isLast (.running (ordinal k)) failure = false := h
  have hturn : (world.attempting k (.observe failure) log).turn (busy handler k)
      (.seen (world.draw k)) = some _ := congrArg some (Handler.observed_error h' hnext _)
  rw [step_of_turn rfl hturn]
  simp only [Course.take, attempting, List.map_nil, Course.opening_broken, List.append_nil]
  rfl

theorem step_rested (world : World ι α) (handler : Handler η) (k : Nat) (delay : Duration)
    (log : List (Course.Happening ι α)) :
    world.step (busy handler k, world.attempting k (.pause delay) log) =
      (busy handler (k + 1), world.attempting (k + 1) .attempt
        (log ++ (if delay.isZero then [] else [.rested]) ++ world.entry handler (k + 1))) := by
  rw [step_of_turn rfl rfl]
  simp only [Course.take, attempting, busy, entry, Handler.resumed, Handler.attempt, Handler.record,
    Handler.event, ExecutionState.retry, ExecutionState.attempts, ordinal_succ]
  simp only [Course.closing, Course.opening, Course.callsOf, Course.Reply.value, List.append_assoc]
  rfl

/-! ## 6. Rounds -/

/-- What is logged once attempt `k` came back, until its failure was seen. -/
def verdict (world : World ι α) (handler : Handler η) (k : Nat) : List (Course.Happening ι α) :=
  match world.answer k with
  | .ok value =>
    [.answered (.ok value), .told (handler.event (.running (ordinal k)) .handlerSucceeded)]
  | .error failure =>
    [.answered (.error failure),
      .told { handler.event (.running (ordinal k)) .handlerFailed with
        reason := some failure.text }] ++
    if handler.observer.isSome then [.shown failure, .seen] else []

/-- What is logged of the delay after attempt `k`. -/
def respite (world : World ι α) (handler : Handler η) (k : Nat) : List (Course.Happening ι α) :=
  match handler.backoff.next (ordinal k - 1) with
  | .error _ => []
  | .ok spread =>
    let delay := spread.pick (world.draw k)
    .told { handler.event (.running (ordinal k)) .retryScheduled with
      delayMs := some (Event.delayField delay) } ::
    if delay.isZero then [] else [.paused delay, .rested]

/-- What is logged of attempt `k`, without its delay. -/
def trial (world : World ι α) (handler : Handler η) (k : Nat) : List (Course.Happening ι α) :=
  world.entry handler k ++ world.verdict handler k

/-- What is logged of the first `n` attempts, if another one follows each. -/
def history (world : World ι α) (handler : Handler η) (n : Nat) : List (Course.Happening ι α) :=
  (List.range' 1 n).flatMap fun k => world.trial handler k ++ world.respite handler k

structure GoesOn (world : World ι α) (handler : Handler η) (k : Nat) (failure : Failure)
    (spread : Spread) : Prop where
  answer : world.answer k = .error failure
  notLast : handler.isLast (.running (ordinal k)) failure = false
  delay : handler.backoff.next (ordinal k - 1) = .ok spread

def Continues (world : World ι α) (handler : Handler η) (n : Nat) : Prop :=
  ∀ k, 0 < k → k ≤ n → ∃ failure spread, world.GoesOn handler k failure spread

section Rounds

variable {world : World ι α} {handler : Handler η} {k n : Nat} {failure : Failure}

theorem history_succ (world : World ι α) (handler : Handler η) (n : Nat) :
    world.history handler (n + 1) = world.history handler n ++
      (world.trial handler (n + 1) ++ world.respite handler (n + 1)) := by
  rw [history, List.range'_1_concat, List.flatMap_append, List.flatMap_singleton, Nat.add_comm 1 n]
  rfl

theorem verdict_error (h : world.answer k = .error failure) :
    world.verdict handler k = [.answered (.error failure),
      .told { handler.event (.running (ordinal k)) .handlerFailed with
        reason := some failure.text }] ++
      ((if handler.observer.isSome then [.shown failure] else []) ++
        if handler.observer.isSome then [.seen] else []) := by
  rw [verdict, h]
  cases handler.observer.isSome <;> rfl

/-- A round: the attempt fails, its failure is seen, its delay passes, and the next attempt
starts. -/
theorem step_round {spread : Spread} (h : world.GoesOn handler k failure spread)
    (log : List (Course.Happening ι α)) :
    world.step (world.step (world.step (busy handler k, world.attempting k .attempt log))) =
      (busy handler (k + 1), world.attempting (k + 1) .attempt
        (log ++ world.verdict handler k ++ world.respite handler k ++
          world.entry handler (k + 1))) := by
  -- Three replies: the failure, the end of the observer's call and the end of the delay.
  rw [step_answer_error h.answer, step_seen_ok h.notLast h.delay, step_rested,
    verdict_error h.answer, respite, h.delay]
  simp only [List.append_assoc]
  cases (spread.pick (world.draw k)).isZero <;> rfl

/-- As long as every attempt is followed by another one, the next attempt starts. -/
theorem run_rounds (h : world.Continues handler n) :
    ∃ replies, world.run handler replies = (busy handler (n + 1),
      world.attempting (n + 1) .attempt
        (world.history handler n ++ world.entry handler (n + 1))) := by
  -- By induction on the attempts that are over; each one takes three replies.
  induction n with
  | zero => exact ⟨0, run_zero world handler⟩
  | succ n ih =>
    obtain ⟨replies, hrun⟩ := ih fun k hk hn => h k hk (Nat.le_succ_of_le hn)
    obtain ⟨failure, spread, hround⟩ := h (n + 1) (Nat.succ_pos n) (Nat.le_refl _)
    refine ⟨replies + 3, ?_⟩
    show world.step (world.step (world.step (world.run handler replies))) = _
    rw [hrun, step_round hround, history_succ, trial]
    simp only [List.append_assoc]

theorem run_ok {value : α} (h : world.Continues handler n)
    (hok : world.answer (n + 1) = .ok value) :
    ∃ replies, world.run handler replies =
      ({ handler with started := true, last := .success (ordinal (n + 1)) },
        { input := world.input, state := .success (ordinal (n + 1)), move := .succeed,
          calls := n + 1, value := some value,
          log := world.history handler n ++ world.trial handler (n + 1) }) := by
  obtain ⟨replies, hrun⟩ := run_rounds h
  refine ⟨replies + 1, ?_⟩
  show world.step (world.run handler replies) = _
  rw [hrun, step_answer_ok hok, trial, verdict, hok, List.append_assoc]

theorem run_last (h : world.Continues handler n)
    (herror : world.answer (n + 1) = .error failure)
    (hlast : handler.isLast (.running (ordinal (n + 1))) failure = true) :
    ∃ replies, world.run handler replies =
      ({ handler with started := true, last := .failed (ordinal (n + 1)) },
        { input := world.input, state := .failed (ordinal (n + 1)), move := .giveUp failure,
          calls := n + 1
          log := world.history handler n ++ world.trial handler (n + 1) ++
            [.told { handler.event (.running (ordinal (n + 1))) .handlerExhausted with
              reason := some failure.text }] }) := by
  obtain ⟨replies, hrun⟩ := run_rounds h
  refine ⟨replies + 2, ?_⟩
  show world.step (world.step (world.run handler replies)) = _
  rw [hrun, step_answer_error herror, step_seen_last hlast, trial, verdict_error herror]
  simp only [List.append_assoc]

theorem run_broken {fault : SecondsOutOfRange} (h : world.Continues handler n)
    (herror : world.answer (n + 1) = .error failure)
    (hlast : handler.isLast (.running (ordinal (n + 1))) failure = false)
    (hnext : handler.backoff.next (ordinal (n + 1) - 1) = .error fault) :
    ∃ replies, world.run handler replies = (busy handler (n + 1),
      world.attempting (n + 1) (.broken fault)
        (world.history handler n ++ world.trial handler (n + 1))) := by
  obtain ⟨replies, hrun⟩ := run_rounds h
  refine ⟨replies + 2, ?_⟩
  show world.step (world.step (world.run handler replies)) = _
  rw [hrun, step_answer_error herror, step_seen_error hlast hnext, trial, verdict_error herror]
  simp only [List.append_assoc]

end Rounds

end World

end Sequencer
