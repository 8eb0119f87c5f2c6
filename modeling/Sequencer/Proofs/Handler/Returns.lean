import Sequencer.Proofs.Handler.Course

/-!
# Returns — an execution returns what its operation gave last

The result of an execution is the one that the last call of its operation came back with, whatever
happened to the handler meanwhile.  The execution calls the operation with its own input only, and
its events are those of a handler, none of a dispatch.
-/

namespace Sequencer

variable {η ι α : Type}

namespace Course

def Happening.answer? : Happening ι α → Option (Except Failure α)
  | answered result => some result
  | _ => none

/-- What the operation gave when it was called last. -/
def lastAnswer (course : Course ι α) : Option (Except Failure α) :=
  (course.log.filterMap Happening.answer?).getLast?

end Course

def EventKind.isOutcome : EventKind → Bool
  | commandCompleted => true
  | commandFailed => true
  | _ => false

namespace Course

/-! ## 1. What an execution goes by -/

/-- What the execution goes by is what the operation gave last. -/
def Agrees (course : Course ι α) : Prop :=
  match course.move with
  | .observe failure => course.lastAnswer = some (.error failure)
  | .giveUp failure => course.lastAnswer = some (.error failure)
  | .succeed => ∀ value, course.value = some value → course.lastAnswer = some (.ok value)
  | _ => True

/-- An execution with the input `given`. -/
structure Sound (given : ι) (course : Course ι α) : Prop where
  input : course.input = given
  called : ∀ other, .called other ∈ course.log → other = given
  told : ∀ event, .told event ∈ course.log → event.kind.isOutcome = false
  agrees : course.Agrees

variable {course next : Course ι α} {handler after : Handler η} {reply : Reply α}
  {turn : Handler.Turn η} {input : ι}

/-! ## 2. Turns -/

theorem turn_cases (h : course.turn handler reply = some turn) :
    (∃ value, course.move = .attempt ∧ reply = .answer (.ok value) ∧
      turn = handler.attempted course.state none) ∨
    (∃ failure, course.move = .attempt ∧ reply = .answer (.error failure) ∧
      turn = handler.attempted course.state (some failure)) ∨
    (∃ failure draw, course.move = .observe failure ∧ reply = .seen draw ∧
      turn = handler.observed course.state failure draw) ∨
    (∃ delay, course.move = .pause delay ∧ reply = .rested ∧
      turn = handler.resumed course.state) := by
  unfold Course.turn at h
  split at h
  · next value hmove => exact .inl ⟨value, hmove, rfl, (Option.some.inj h).symm⟩
  · next failure hmove => exact .inr (.inl ⟨failure, hmove, rfl, (Option.some.inj h).symm⟩)
  · next failure draw hmove =>
    exact .inr (.inr (.inl ⟨failure, draw, hmove, rfl, (Option.some.inj h).symm⟩))
  · next delay hmove => exact .inr (.inr (.inr ⟨delay, hmove, rfl, (Option.some.inj h).symm⟩))
  · cases h

theorem observed_cases (handler : Handler η) (state : ExecutionState) (failure : Failure)
    (draw : Nat) :
    (∀ event ∈ (handler.observed state failure draw).events, event.kind.isOutcome = false) ∧
      ((handler.observed state failure draw).move = .giveUp failure ∨
        (∃ delay, (handler.observed state failure draw).move = .pause delay) ∨
        ∃ fault, (handler.observed state failure draw).move = .broken fault) := by
  unfold Handler.observed
  split
  · refine ⟨fun event h => ?_, .inl rfl⟩
    rw [List.mem_singleton.mp h]
    rfl
  · split
    · next fault _ => exact ⟨fun event h => absurd h List.not_mem_nil, .inr (.inr ⟨fault, rfl⟩)⟩
    · next spread _ =>
      refine ⟨fun event h => ?_, .inr (.inl ⟨_, rfl⟩)⟩
      rw [List.mem_singleton.mp h]
      rfl

theorem turn_events (h : course.turn handler reply = some turn) :
    ∀ event ∈ turn.events, event.kind.isOutcome = false := by
  intro event hmem
  rcases turn_cases h with ⟨value, -, -, rfl⟩ | ⟨failure, -, -, rfl⟩ | ⟨failure, draw, -, -, rfl⟩ |
    ⟨delay, -, -, rfl⟩
  · rw [List.mem_singleton.mp hmem]
    rfl
  · rw [List.mem_singleton.mp hmem]
    rfl
  · exact (observed_cases _ _ _ _).1 event hmem
  · rw [List.mem_singleton.mp hmem]
    rfl

theorem told_answer? (events : List Event) :
    (events.map Happening.told).filterMap
      (Happening.answer? : Happening ι α → Option (Except Failure α)) = [] := by
  rw [List.filterMap_eq_nil_iff]
  rintro _ hmem
  obtain ⟨event, -, rfl⟩ := List.mem_map.mp hmem
  rfl

theorem opening_answer? (hooked : Bool) (input : ι) (move : Handler.Move) :
    (opening hooked input move).filterMap
      (Happening.answer? : Happening ι α → Option (Except Failure α)) = [] := by
  unfold opening
  repeat' split
  all_goals rfl

/-- What a turn sets going is no answer. -/
theorem lastAnswer_take (course : Course ι α) (turn : Handler.Turn η) :
    (course.take turn).lastAnswer = course.lastAnswer := by
  unfold lastAnswer take
  simp only [List.filterMap_append, told_answer?, opening_answer?, List.append_nil]

/-- The turn of an execution calls its operation with the input and tells no outcome. -/
theorem mem_take {happening : Happening ι α} (h : happening ∈ (course.take turn).log) :
    happening ∈ course.log ∨ (∃ event ∈ turn.events, happening = .told event) ∨
      happening ∈ opening turn.handler.observer.isSome course.input turn.move := by
  rcases List.mem_append.mp h with h | h
  · rcases List.mem_append.mp h with h | h
    · exact .inl h
    · obtain ⟨event, hevent, rfl⟩ := List.mem_map.mp h
      exact .inr (.inl ⟨event, hevent, rfl⟩)
  · exact .inr (.inr h)

theorem called_of_mem_opening {hooked : Bool} {other : ι} {move : Handler.Move}
    (h : (.called other : Happening ι α) ∈ opening hooked input move) : other = input := by
  unfold opening at h
  repeat' split at h
  all_goals simp_all

theorem told_notMem_opening {hooked : Bool} {event : Event} {move : Handler.Move} :
    (.told event : Happening ι α) ∉ opening hooked input move := by
  unfold opening
  repeat' split
  all_goals simp

theorem notMem_closing {hooked : Bool} {move : Handler.Move} {happening : Happening ι α}
    (h : happening ∈ closing hooked move reply) :
    (∀ other, happening ≠ .called other) ∧ ∀ event, happening ≠ .told event := by
  unfold closing at h
  repeat' split at h
  all_goals simp_all

/-! ## 3. Steps -/

theorem sound_take (hinput : course.input = input)
    (hcalled : ∀ other, .called other ∈ course.log → other = input)
    (htold : ∀ event, .told event ∈ course.log → event.kind.isOutcome = false)
    (hevents : ∀ event ∈ turn.events, event.kind.isOutcome = false)
    (hagrees : (course.take turn).Agrees) : (course.take turn).Sound input where
  input := hinput
  called other h := by
    rcases mem_take h with h | ⟨event, -, h⟩ | h
    · exact hcalled other h
    · cases h
    · exact (called_of_mem_opening h).trans hinput
  told event h := by
    rcases mem_take h with h | ⟨other, hmem, h⟩ | h
    · exact htold event h
    · cases h
      exact hevents event hmem
    · exact absurd h told_notMem_opening
  agrees := hagrees

theorem sound_start (handler : Handler η) (input : ι) :
    (start handler input : Handler η × Course ι α).2.Sound input := by
  refine sound_take rfl (fun _ h => absurd h List.not_mem_nil)
    (fun _ h => absurd h List.not_mem_nil) (fun event h => ?_) trivial
  rw [List.mem_singleton.mp h]
  rfl

theorem advance_eq_some (h : course.advance handler reply = some (after, next)) :
    ∃ turn, course.turn handler reply = some turn ∧ after = turn.handler ∧
      next = ({ course with
        value := reply.value
        log := course.log ++ closing handler.observer.isSome course.move reply } :
        Course ι α).take turn := by
  obtain ⟨turn, hturn, hpair⟩ := Option.map_eq_some_iff.mp h
  cases hpair
  exact ⟨turn, hturn, rfl, rfl⟩

/-- The operation is asked last before the observer is, and the observer before the execution
ends. -/
theorem agrees_advance (agrees : course.Agrees)
    (h : course.advance handler reply = some (after, next)) : next.Agrees := by
  obtain ⟨turn, hturn, -, rfl⟩ := advance_eq_some h
  unfold Agrees
  rw [lastAnswer_take]
  rcases turn_cases hturn with ⟨value, hmove, rfl, rfl⟩ | ⟨failure, hmove, rfl, rfl⟩ |
    ⟨failure, draw, hmove, rfl, rfl⟩ | ⟨delay, hmove, rfl, rfl⟩
  · rintro other ⟨⟩
    simp [lastAnswer, hmove, closing, Happening.answer?]
  · simp [take, Handler.attempted, lastAnswer, hmove, closing, Happening.answer?]
  · -- The observer was shown what the operation gave last, and its reply is no answer.
    have hlast : ({ course with
        value := (Reply.seen draw : Reply α).value
        log := course.log ++ closing handler.observer.isSome course.move (.seen draw) } :
        Course ι α).lastAnswer = some (.error failure) := by
      unfold Agrees at agrees
      simp only [hmove] at agrees
      rw [← agrees]
      simp only [lastAnswer, hmove, closing, List.filterMap_append]
      split <;> simp [Happening.answer?]
    rcases (observed_cases handler course.state failure draw).2 with
      hmove | ⟨delay, hmove⟩ | ⟨fault, hmove⟩
    · simp only [take, hmove]
      exact hlast
    · simp only [take, hmove]
    · simp only [take, hmove]
  · trivial

theorem sound_advance (sound : course.Sound input)
    (h : course.advance handler reply = some (after, next)) : next.Sound input := by
  have hagrees := agrees_advance sound.agrees h
  obtain ⟨turn, hturn, -, rfl⟩ := advance_eq_some h
  refine sound_take sound.input (fun other hmem => ?_) (fun event hmem => ?_) (turn_events hturn)
    hagrees
  · rcases List.mem_append.mp hmem with hmem | hmem
    · exact sound.called other hmem
    · exact absurd rfl ((notMem_closing hmem).1 other)
  · rcases List.mem_append.mp hmem with hmem | hmem
    · exact sound.told event hmem
    · exact absurd rfl ((notMem_closing hmem).2 event)

theorem log_advance (h : course.advance handler reply = some (after, next)) :
    next.log = course.log ++ next.log.drop course.log.length := by
  obtain ⟨turn, -, -, rfl⟩ := advance_eq_some h
  simp [take]

/-- An execution returns what its operation gave last. -/
theorem Sound.lastAnswer {result : Except Failure α} (sound : course.Sound input)
    (h : course.ending = some (.returned result)) : course.lastAnswer = some result := by
  have agrees := sound.agrees
  unfold ending at h
  unfold Agrees at agrees
  split at h
  · next hmove =>
    rw [hmove] at agrees
    obtain ⟨value, hvalue, hending⟩ := Option.map_eq_some_iff.mp h
    cases hending
    exact agrees value hvalue
  · next failure hmove =>
    rw [hmove] at agrees
    cases h
    exact agrees
  · cases h
  · cases h

end Course

end Sequencer
