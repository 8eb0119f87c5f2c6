import Mathlib.Data.List.Basic
import Sequencer.Proofs.Handler.Attempts
import Sequencer.Proofs.Handler.Returns

/-!
# Standings — where an execution stands and what its handler remembers

An execution counts its attempts and tells each of them with its number.  Where it stands is settled
by its count and by what it does next.  It leaves that in its handler whenever an attempt starts and
when it ends, and changes nothing else of the handler once that has started.
-/

namespace Sequencer

variable {η ι α : Type}

namespace Handler

/-- A handler with the same settings that was never executed. -/
def fresh (handler : Handler η) : Handler η := { handler with started := false, last := .idle }

/-- With this move an execution leaves in its handler where it stands. -/
def Move.isRecorded : Move → Bool
  | attempt => true
  | succeed => true
  | giveUp _ => true
  | _ => false

theorem retries_eq_of_fresh {handler other : Handler η} (h : handler.fresh = other.fresh) :
    handler.retries = other.retries :=
  congrArg (·.retries) h

end Handler

namespace Course

variable {course next : Course ι α} {handler after : Handler η} {reply : Reply α}
  {turn : Handler.Turn η}

/-! ## 1. What a reply leads to -/

/-- The turns that an execution can take. -/
inductive Turns (handler : Handler η) (course : Course ι α) : Reply α → Handler.Turn η → Prop where
  | succeeds (value : α) (waits : course.move = .attempt) :
      Turns handler course (.answer (.ok value))
        { handler := handler.record course.state.succeed, state := course.state.succeed,
          events := [handler.event course.state .handlerSucceeded], move := .succeed }
  | fails (failure : Failure) (waits : course.move = .attempt) :
      Turns handler course (.answer (.error failure))
        { handler, state := course.state,
          events := [{ handler.event course.state .handlerFailed with
            reason := some failure.text }],
          move := .observe failure }
  | givesUp (failure : Failure) (draw : Nat) (waits : course.move = .observe failure)
      (last : handler.isLast course.state failure = true) :
      Turns handler course (.seen draw)
        { handler := handler.record course.state.giveUp, state := course.state.giveUp,
          events := [{ handler.event course.state .handlerExhausted with
            reason := some failure.text }],
          move := .giveUp failure }
  | pauses (failure : Failure) (draw : Nat) (spread : Spread)
      (waits : course.move = .observe failure)
      (notLast : handler.isLast course.state failure = false)
      (delay : handler.backoff.next (course.state.attempts - 1) = .ok spread) :
      Turns handler course (.seen draw)
        { handler, state := course.state,
          events := [{ handler.event course.state .retryScheduled with
            delayMs := some (Event.delayField (spread.pick draw)) }],
          move := .pause (spread.pick draw) }
  | breaks (failure : Failure) (draw : Nat) (fault : SecondsOutOfRange)
      (waits : course.move = .observe failure)
      (notLast : handler.isLast course.state failure = false)
      (delay : handler.backoff.next (course.state.attempts - 1) = .error fault) :
      Turns handler course (.seen draw)
        { handler, state := course.state, events := [], move := .broken fault }
  | resumes (delay : Duration) (waits : course.move = .pause delay) :
      Turns handler course .rested
        { handler := handler.record course.state.retry, state := course.state.retry,
          events := [handler.event course.state.retry .handlerStarting], move := .attempt }

theorem turns_of_turn (h : course.turn handler reply = some turn) :
    course.Turns handler reply turn := by
  rcases turn_cases h with ⟨value, hmove, rfl, rfl⟩ | ⟨failure, hmove, rfl, rfl⟩ |
    ⟨failure, draw, hmove, rfl, rfl⟩ | ⟨delay, hmove, rfl, rfl⟩
  · exact .succeeds value hmove
  · exact .fails failure hmove
  · cases hlast : handler.isLast course.state failure with
    | true =>
      rw [Handler.observed_last hlast]
      exact .givesUp failure draw hmove hlast
    | false =>
      cases hnext : handler.backoff.next (course.state.attempts - 1) with
      | ok spread =>
        rw [Handler.observed_ok hlast hnext]
        exact .pauses failure draw spread hmove hlast hnext
      | error fault =>
        rw [Handler.observed_error hlast hnext]
        exact .breaks failure draw fault hmove hlast hnext
  · exact .resumes delay hmove

/-- What happens when an execution takes a turn. -/
def news (handler : Handler η) (course : Course ι α) (reply : Reply α) (turn : Handler.Turn η) :
    List (Happening ι α) :=
  closing handler.observer.isSome course.move reply ++ turn.events.map .told ++
    opening turn.handler.observer.isSome course.input turn.move

/-- The execution after a turn. -/
def goOn (handler : Handler η) (course : Course ι α) (reply : Reply α) (turn : Handler.Turn η) :
    Course ι α :=
  { course with
    state := turn.state
    move := turn.move
    calls := course.calls + callsOf turn.move
    value := reply.value
    log := course.log ++ news handler course reply turn }

/-- The turn of an execution that goes on, and what it comes to. -/
theorem advance_cases (h : course.advance handler reply = some (after, next)) :
    ∃ turn, course.Turns handler reply turn ∧ after = turn.handler ∧
      next = goOn handler course reply turn := by
  obtain ⟨turn, hturn, hafter, hnext⟩ := advance_eq_some h
  refine ⟨turn, turns_of_turn hturn, hafter, ?_⟩
  rw [hnext]
  simp only [take, goOn, news, List.append_assoc]

/-- An execution that is over takes no turn. -/
theorem Turns.ending (turns : course.Turns handler reply turn) : course.ending = none := by
  cases turns <;> simp only [Course.ending, *]

theorem Turns.fresh (turns : course.Turns handler reply turn) :
    turn.handler.fresh = handler.fresh := by
  cases turns <;> rfl

/-- The handler remembers where the execution stands if the turn leaves that in it. -/
theorem Turns.last (turns : course.Turns handler reply turn) :
    (turn.move.isRecorded = true ∧ turn.handler.last = turn.state) ∨
      (turn.move.isRecorded = false ∧ turn.handler = handler ∧ turn.state = course.state) := by
  cases turns with
  | succeeds => exact .inl ⟨rfl, rfl⟩
  | givesUp => exact .inl ⟨rfl, rfl⟩
  | resumes => exact .inl ⟨rfl, rfl⟩
  | fails => exact .inr ⟨rfl, rfl, rfl⟩
  | pauses => exact .inr ⟨rfl, rfl, rfl⟩
  | breaks => exact .inr ⟨rfl, rfl, rfl⟩

/-! ## 2. Attempts by number -/

/-- The event that is told. -/
def Happening.event? : Happening ι α → Option Event
  | told event => some event
  | _ => none

/-- The events that an execution told, in order. -/
def events (course : Course ι α) : List Event := course.log.filterMap Happening.event?

end Course

/-- The number of the attempt that starts. -/
def Event.starting? (event : Event) : Option Nat :=
  if event.kind = .handlerStarting then event.attempt else none

namespace Course

variable {course : Course ι α} {handler : Handler η} {reply : Reply α} {turn : Handler.Turn η}
  {retries : Nat}

def Happening.starting? (happening : Happening ι α) : Option Nat :=
  happening.event?.bind Event.starting?

/-- The numbers with which attempts were told to start, in order. -/
def numbers (course : Course ι α) : List Nat := course.log.filterMap Happening.starting?

theorem filterMap_starting? (happenings : List (Happening ι α)) :
    happenings.filterMap Happening.starting? =
      (happenings.filterMap Happening.event?).filterMap Event.starting? :=
  List.filterMap_filterMap.symm

/-- Where an execution stands after so many calls of its operation. -/
def standing (calls : Nat) : Handler.Move → ExecutionState
  | .succeed => .success (World.ordinal calls)
  | .giveUp _ => .failed (World.ordinal calls)
  | _ => .running (World.ordinal calls)

theorem standing_attempts (calls : Nat) (move : Handler.Move) :
    (standing calls move).attempts = World.ordinal calls := by
  cases move <;> rfl

/-- An execution counts its attempts, and has as many as its retries allow. -/
structure Counted (retries : Nat) (course : Course ι α) : Prop where
  state : course.state = standing course.calls course.move
  inputs : course.inputs = List.replicate course.calls course.input
  numbers : course.numbers = (List.range' 1 course.calls).map World.ordinal
  spent : retries < ExecutionState.maxAttempts → course.calls ≤ retries + 1
  /-- A pause is followed by an attempt. -/
  rests : retries < ExecutionState.maxAttempts → ∀ delay, course.move = .pause delay →
    course.calls ≤ retries
  value : course.move = .succeed → course.value.isSome

theorem counted_start (handler : Handler η) (input : ι) :
    (start handler input : _ × Course ι α).2.Counted handler.retries where
  state := rfl
  inputs := rfl
  numbers := rfl
  spent _ := Nat.succ_le_succ (Nat.zero_le _)
  rests _ _ h := nomatch h
  value h := nomatch h

/-- What an execution tells when it takes a turn are the events of the turn. -/
theorem news_events (handler : Handler η) (course : Course ι α) (reply : Reply α)
    (turn : Handler.Turn η) :
    (news handler course reply turn).filterMap Happening.event? = turn.events := by
  have hclosing : (closing handler.observer.isSome course.move reply :
      List (Happening ι α)).filterMap Happening.event? = [] := by
    refine List.filterMap_eq_nil_iff.mpr fun happening hmem => ?_
    cases happening with
    | told event => exact absurd rfl ((notMem_closing hmem).2 event)
    | _ => rfl
  have hopening : (opening turn.handler.observer.isSome course.input turn.move :
      List (Happening ι α)).filterMap Happening.event? = [] := by
    refine List.filterMap_eq_nil_iff.mpr fun happening hmem => ?_
    cases happening with
    | told event => exact absurd hmem told_notMem_opening
    | _ => rfl
  rw [news, List.filterMap_append, List.filterMap_append, hclosing, hopening, List.nil_append,
    List.append_nil, List.filterMap_map]
  exact List.filterMap_some

/-- Only the turn to another attempt tells that one starts. -/
theorem news_starting (turns : course.Turns handler reply turn) :
    (news handler course reply turn).filterMap Happening.starting? =
      List.replicate (callsOf turn.move) turn.state.attempts := by
  rw [filterMap_starting?, news_events]
  cases turns <;> rfl

theorem closing_inputs (hooked : Bool) (move : Handler.Move) (reply : Reply α) :
    ((closing hooked move reply : List (Happening ι α)).filter Happening.isDeed).filterMap
      Happening.input? = [] := by
  refine List.filterMap_eq_nil_iff.mpr fun happening h => ?_
  have hmem := List.mem_of_mem_filter h
  cases happening with
  | called input => exact absurd rfl ((notMem_closing hmem).1 input)
  | _ => rfl

theorem opening_inputs (hooked : Bool) (input : ι) (move : Handler.Move) :
    ((opening hooked input move : List (Happening ι α)).filter Happening.isDeed).filterMap
      Happening.input? = List.replicate (callsOf move) input := by
  cases move with
  | observe failure => cases hooked <;> rfl
  | pause delay =>
    rw [opening]
    split <;> rfl
  | _ => rfl

/-- Only the turn to another attempt calls the operation. -/
theorem news_inputs (handler : Handler η) (course : Course ι α) (reply : Reply α)
    (turn : Handler.Turn η) :
    ((news handler course reply turn).filter Happening.isDeed).filterMap Happening.input? =
      List.replicate (callsOf turn.move) course.input := by
  have htold : ((turn.events.map .told : List (Happening ι α)).filter
      Happening.isDeed) = [] := by
    rw [List.filter_eq_nil_iff]
    intro happening h
    obtain ⟨event, -, rfl⟩ := List.mem_map.mp h
    exact Bool.false_ne_true
  rw [news, List.filter_append, List.filter_append, htold, List.append_nil,
    List.filterMap_append, closing_inputs, opening_inputs, List.nil_append]

/-- The next attempt has the next number, and any other turn keeps it. -/
theorem Turns.standing (turns : course.Turns handler reply turn)
    (h : course.state = standing course.calls course.move) :
    turn.state = Course.standing (course.calls + callsOf turn.move) turn.move := by
  have hattempts : course.state.attempts = World.ordinal course.calls := by
    rw [h, standing_attempts]
  cases turns with
  | succeeds value waits => exact congrArg ExecutionState.success hattempts
  | fails failure waits => rw [h, waits]; rfl
  | givesUp failure draw waits last => exact congrArg ExecutionState.failed hattempts
  | pauses failure draw spread waits notLast delay => rw [h, waits]; rfl
  | breaks failure draw fault waits notLast delay => rw [h, waits]; rfl
  | resumes delay waits =>
    rw [h, waits]
    exact congrArg ExecutionState.running (World.ordinal_succ course.calls)

/-- After a failure that is not the last one, some retry is left. -/
theorem calls_le_of_notLast {failure : Failure}
    (bound : handler.retries < ExecutionState.maxAttempts)
    (h : course.state.attempts = World.ordinal course.calls)
    (notLast : handler.isLast course.state failure = false) : course.calls ≤ handler.retries := by
  by_contra hspent
  refine Bool.false_ne_true (notLast.symm.trans (Handler.isLast_iff.mpr (.inr ?_)))
  rw [h]
  show _ ≤ min course.calls _ - 1
  omega

theorem range_add_callsOf (calls : Nat) (move : Handler.Move) :
    (List.range' 1 (calls + callsOf move)).map World.ordinal =
      (List.range' 1 calls).map World.ordinal ++
        List.replicate (callsOf move) (World.ordinal (calls + callsOf move)) := by
  cases move <;> simp [callsOf, List.range'_1_concat, Nat.add_comm 1]

theorem Counted.goOn (counted : course.Counted handler.retries)
    (turns : course.Turns handler reply turn) :
    (goOn handler course reply turn).Counted handler.retries := by
  have hattempts : course.state.attempts = World.ordinal course.calls := by
    rw [counted.state, standing_attempts]
  have hstanding := turns.standing counted.state
  refine ⟨hstanding, ?_, ?_, fun bound => ?_, fun bound delay hdelay => ?_, fun hsucceed => ?_⟩
  · show ((course.log ++ _).filter _).filterMap _ = List.replicate (_ + _) _
    rw [List.filter_append, List.filterMap_append, news_inputs, List.replicate_add]
    exact congrArg (· ++ _) counted.inputs
  · show (course.log ++ _).filterMap _ = (List.range' 1 (_ + _)).map _
    rw [List.filterMap_append, news_starting turns, hstanding, standing_attempts,
      range_add_callsOf]
    exact congrArg (· ++ _) counted.numbers
  · cases turns with
    | resumes delay waits => exact Nat.succ_le_succ (counted.rests bound delay waits)
    | _ => exact counted.spent bound
  · cases turns with
    | pauses failure draw spread waits notLast next =>
      exact calls_le_of_notLast bound hattempts notLast
    | _ => cases hdelay
  · cases turns with
    | succeeds value waits => rfl
    | _ => cases hsucceed

/-- An execution that is not over is at the attempt that it called its operation for last. -/
theorem Counted.running (counted : course.Counted retries) (h : course.ending = none) :
    course.state = .running (World.ordinal course.calls) := by
  have hstate := counted.state
  cases hmove : course.move with
  | succeed =>
    obtain ⟨value, hvalue⟩ := Option.isSome_iff_exists.mp (counted.value hmove)
    rw [ending, hmove, hvalue] at h
    cases h
  | giveUp failure =>
    rw [ending, hmove] at h
    cases h
  | _ =>
    rw [hmove] at hstate
    exact hstate

end Course

/-! ## 3. Executions from their beginning -/

namespace World

variable {world : World ι α} {handler : Handler η}

/-- What holds when an execution begins and is kept by each of its turns holds at every moment. -/
theorem run_induction {P : Handler η → Course ι α → Prop}
    (begins : P (world.run handler 0).1 (world.run handler 0).2)
    (advances : ∀ before course reply after next, P before course →
      Course.advance before course reply = some (after, next) → P after next) (n : Nat) :
    P (world.run handler n).1 (world.run handler n).2 := by
  induction n with
  | zero => exact begins
  | succ n ih =>
    show P (world.step (world.run handler n)).1 (world.step (world.run handler n)).2
    unfold step
    cases h : (world.reply (world.run handler n).2).bind
        ((world.run handler n).2.advance (world.run handler n).1) with
    | none => exact ih
    | some pair =>
      obtain ⟨reply, -, hadvance⟩ := Option.bind_eq_some_iff.mp h
      exact advances _ _ _ _ _ ih hadvance

theorem counted_run (world : World ι α) (handler : Handler η) (n : Nat) :
    (world.run handler n).1.fresh = handler.fresh ∧
      (world.run handler n).2.Counted handler.retries := by
  refine run_induction (P := fun after course => after.fresh = handler.fresh ∧
    course.Counted handler.retries) ⟨rfl, Course.counted_start handler world.input⟩ ?_ n
  rintro before course reply after next ⟨hfresh, counted⟩ h
  rw [← Handler.retries_eq_of_fresh hfresh] at counted ⊢
  obtain ⟨turn, turns, rfl, rfl⟩ := Course.advance_cases h
  exact ⟨turns.fresh.trans hfresh, counted.goOn turns⟩

theorem inputs_length_run (world : World ι α) (handler : Handler η) (n : Nat) :
    (world.run handler n).2.inputs.length = (world.run handler n).2.calls := by
  rw [(counted_run world handler n).2.inputs, List.length_replicate]

theorem numbers_run (world : World ι α) (handler : Handler η) (n : Nat) :
    (world.run handler n).2.numbers =
      (List.range' 1 (world.run handler n).2.inputs.length).map ordinal := by
  rw [inputs_length_run]
  exact (counted_run world handler n).2.numbers

/-- Retries that can be counted through are a budget that no execution exceeds. -/
theorem budget_run (world : World ι α) (bound : handler.retries < ExecutionState.maxAttempts)
    (n : Nat) :
    (world.run handler n).2.inputs.length ≤ handler.retries + 1 ∧
      (world.run handler n).2.numbers =
        List.range' 1 (world.run handler n).2.inputs.length := by
  have hle : (world.run handler n).2.inputs.length ≤ handler.retries + 1 := by
    rw [inputs_length_run]
    exact (counted_run world handler n).2.spent bound
  refine ⟨hle, ?_⟩
  rw [numbers_run, List.map_congr_left (g := id), List.map_id]
  intro k hk
  rw [List.mem_range'_1] at hk
  exact ordinal_of_le (by omega)

/-- The handler of a single execution remembers where that stands. -/
theorem last_run (world : World ι α) (handler : Handler η) (n : Nat) :
    (world.run handler n).1.last = (world.run handler n).2.state := by
  refine run_induction (P := fun after course => after.last = course.state) rfl ?_ n
  intro before course reply after next hlast h
  obtain ⟨turn, turns, rfl, rfl⟩ := Course.advance_cases h
  rcases turns.last with ⟨-, hturn⟩ | ⟨-, hhandler, hstate⟩
  · exact hturn
  · show turn.handler.last = turn.state
    rw [hhandler, hstate, hlast]

end World

end Sequencer
