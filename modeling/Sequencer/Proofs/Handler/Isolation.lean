import Sequencer.Proofs.Handler.Desk
import Sequencer.Proofs.Handler.Station

/-!
# Isolation — executions of one handler do not disturb each other

The executions of a handler share it, but none of them reads what another one leaves in it.  With a
backoff that has no jitter, each of them does what it would do if it were the only one: on a new
handler with the same settings, with an operation that gives it the same results.
-/

namespace Sequencer

variable {η ι α : Type}

theorem Backoff.next_unjittered {backoff : Backoff} (h : backoff.jitter = .none) {retry : Nat}
    {spread : Spread} (hnext : backoff.next retry = .ok spread) :
    ∃ delay, spread = .exactly delay := by
  unfold next at hnext
  rw [h] at hnext
  split at hnext
  · cases hnext
  · next delay _ =>
    cases hnext
    exact ⟨delay, ite_self _⟩

namespace Course

variable {course : Course ι α} {handler other : Handler η} {reply : Reply α}
  {turn : Handler.Turn η}

/-! ## 1. What a turn depends on -/

theorem turn_of_turns (turns : course.Turns handler reply turn) :
    course.turn handler reply = some turn := by
  unfold Course.turn
  cases turns with
  | succeeds value waits => rw [waits]; rfl
  | fails failure waits => rw [waits]; rfl
  | givesUp failure draw waits last => rw [waits, ← Handler.observed_last last]
  | pauses failure draw spread waits notLast delay =>
    rw [waits, ← Handler.observed_ok notLast delay]
  | breaks failure draw fault waits notLast delay =>
    rw [waits, ← Handler.observed_error notLast delay]
  | resumes delay waits => rw [waits]; rfl

theorem advance_of_turns (turns : course.Turns handler reply turn) :
    course.advance handler reply = some (turn.handler, course.goOn handler reply turn) := by
  rw [advance, turn_of_turns turns, Option.map_some]
  simp only [take, goOn, news, List.append_assoc]

theorem eq_of_fresh (h : other.fresh = handler.fresh) :
    other = { handler with started := other.started, last := other.last } := by
  cases other
  cases handler
  cases h
  rfl

/-- Of its handler a turn depends on the settings only. -/
theorem Turns.of_fresh (turns : course.Turns handler reply turn)
    (h : other.fresh = handler.fresh) :
    ∃ after, course.Turns other reply { turn with handler := after } := by
  rw [eq_of_fresh h]
  generalize other.started = started
  generalize other.last = last
  cases turns with
  | succeeds value waits => exact ⟨_, .succeeds value waits⟩
  | fails failure waits => exact ⟨_, .fails failure waits⟩
  | givesUp failure draw waits last => exact ⟨_, .givesUp failure draw waits last⟩
  | pauses failure draw spread waits notLast delay =>
    exact ⟨_, .pauses failure draw spread waits notLast delay⟩
  | breaks failure draw fault waits notLast delay =>
    exact ⟨_, .breaks failure draw fault waits notLast delay⟩
  | resumes delay waits => exact ⟨_, .resumes delay waits⟩

/-- Without jitter a turn does not depend on the draw. -/
theorem Turns.redraw {draw : Nat} (turns : course.Turns handler (.seen draw) turn)
    (h : handler.backoff.jitter = .none) (drawn : Nat) :
    course.Turns handler (.seen drawn) turn := by
  cases turns with
  | givesUp failure draw waits last => exact .givesUp failure drawn waits last
  | pauses failure draw spread waits notLast hnext =>
    obtain ⟨delay, rfl⟩ := Backoff.next_unjittered h hnext
    exact .pauses failure drawn (.exactly delay) waits notLast hnext
  | breaks failure draw fault waits notLast delay =>
    exact .breaks failure drawn fault waits notLast delay

theorem observer_of_fresh (h : other.fresh = handler.fresh) : other.observer = handler.observer :=
  congrArg (·.observer) h

/-- On another handler with the same settings an execution goes on in the same way. -/
theorem advance_of_fresh (turns : course.Turns handler reply turn)
    (h : other.fresh = handler.fresh) :
    ∃ after, course.advance other reply = some (after, course.goOn handler reply turn) := by
  obtain ⟨after, hturns⟩ := turns.of_fresh h
  refine ⟨after, ?_⟩
  have hafter : after.fresh = turn.handler.fresh := by
    rw [turns.fresh, ← h]
    exact hturns.fresh
  rw [advance_of_turns hturns]
  simp only [goOn, news, observer_of_fresh h, observer_of_fresh hafter]

/-! ## 2. Answers -/

/-- What the operation gave, in order. -/
def answers (course : Course ι α) : List (Except Failure α) :=
  course.log.filterMap Happening.answer?

def Reply.answer? : Reply α → Option (Except Failure α)
  | answer result => some result
  | _ => none

theorem Turns.answer? (turns : course.Turns handler reply turn) :
    (closing handler.observer.isSome course.move reply : List (Happening ι α)).filterMap
      Happening.answer? = reply.answer?.toList := by
  cases turns with
  | succeeds value waits => rw [waits]; rfl
  | fails failure waits => rw [waits]; rfl
  | resumes delay waits =>
    rw [waits, closing]
    split <;> rfl
  | _ => simp only [closing, *]; cases handler.observer.isSome <;> rfl

theorem answers_goOn (turns : course.Turns handler reply turn) :
    (course.goOn handler reply turn).answers = course.answers ++ reply.answer?.toList := by
  show (course.log ++ news handler course reply turn).filterMap _ = _
  rw [List.filterMap_append, news, List.filterMap_append, List.filterMap_append, turns.answer?,
    told_answer?, opening_answer?, List.append_nil, List.append_nil]
  rfl

/-- Every call of the operation was answered, but the one that the execution waits for. -/
def Answered (course : Course ι α) : Prop :=
  course.answers.length + callsOf course.move = course.calls

/-- An execution waits for its operation exactly if the turn brings an answer. -/
theorem Turns.calls (turns : course.Turns handler reply turn) :
    callsOf course.move = reply.answer?.toList.length := by
  cases turns <;> simp only [callsOf, *] <;> rfl

theorem Answered.goOn (answered : course.Answered) (turns : course.Turns handler reply turn) :
    (course.goOn handler reply turn).Answered := by
  unfold Answered at answered ⊢
  rw [answers_goOn turns, List.length_append]
  show _ + callsOf turn.move = course.calls + callsOf turn.move
  rw [← answered, turns.calls]

end Course

/-! ## 3. Executions alone -/

/-- The operation gives the results that it gave to the execution. -/
def World.Repeats (world : World ι α) (course : Course ι α) : Prop :=
  ∀ k result, course.answers[k]? = some result → world.answer (k + 1) = result

namespace Course

variable {course : Course ι α} {handler other : Handler η} {reply : Reply α}
  {turn : Handler.Turn η} {world : World ι α}

theorem goOn_seen {failure : Failure} (waits : course.move = .observe failure)
    (handler : Handler η) (draw drawn : Nat) (turn : Handler.Turn η) :
    course.goOn handler (.seen draw) turn = course.goOn handler (.seen drawn) turn := by
  simp only [goOn, news, waits]
  rfl

/-- If the operation repeats its results and there is no jitter, an execution comes to the next turn
with the reply of its own world. -/
theorem exists_reply (turns : course.Turns handler reply turn) (answered : course.Answered)
    (plain : handler.backoff.jitter = .none) (hinput : world.input = course.input)
    (repeats : world.Repeats (course.goOn handler reply turn)) :
    ∃ back, world.reply course = some back ∧ course.Turns handler back turn ∧
      course.goOn handler back turn = course.goOn handler reply turn := by
  have hanswer : ∀ result, reply = .answer result → course.move = .attempt →
      world.operation course.calls course.input = result := by
    rintro result rfl hmove
    unfold Answered at answered
    rw [hmove] at answered
    rw [← answered, ← hinput]
    refine repeats course.answers.length result ?_
    rw [answers_goOn turns]
    exact List.getElem?_concat_length
  cases turns with
  | succeeds value waits =>
    refine ⟨_, ?_, .succeeds value waits, rfl⟩
    rw [World.reply, waits, hanswer _ rfl waits]
  | fails failure waits =>
    refine ⟨_, ?_, .fails failure waits, rfl⟩
    rw [World.reply, waits, hanswer _ rfl waits]
  | givesUp failure draw waits last =>
    exact ⟨_, by rw [World.reply, waits], .givesUp failure _ waits last, goOn_seen waits _ _ _ _⟩
  | pauses failure draw spread waits notLast hnext =>
    have turns := Turns.pauses failure draw spread waits notLast hnext
    exact ⟨_, by rw [World.reply, waits], turns.redraw plain (world.draw course.calls),
      goOn_seen waits _ _ _ _⟩
  | breaks failure draw fault waits notLast hnext =>
    exact ⟨_, by rw [World.reply, waits], .breaks failure _ fault waits notLast hnext,
      goOn_seen waits _ _ _ _⟩
  | resumes delay waits =>
    exact ⟨_, by rw [World.reply, waits], .resumes delay waits, rfl⟩

/-- An execution that goes on as it would alone. -/
structure Solo (handler : Handler η) (course : Course ι α) : Prop where
  answered : course.Answered
  alone : ∀ world : World ι α, world.input = course.input → world.Repeats course →
    ∃ replies, (world.run handler replies).2 = course

theorem repeats_of_goOn (turns : course.Turns handler reply turn)
    (repeats : world.Repeats (course.goOn handler reply turn)) : world.Repeats course := by
  intro k result hresult
  refine repeats k result ?_
  rw [answers_goOn turns, List.getElem?_append_left (List.getElem?_eq_some_iff.mp hresult).1]
  exact hresult

theorem Solo.goOn (solo : course.Solo other.fresh) (turns : course.Turns handler reply turn)
    (hfresh : handler.fresh = other.fresh) (plain : handler.backoff.jitter = .none) :
    (course.goOn handler reply turn).Solo other.fresh := by
  refine ⟨solo.answered.goOn turns, fun world hinput repeats => ?_⟩
  obtain ⟨replies, hrun⟩ := solo.alone world hinput (repeats_of_goOn turns repeats)
  obtain ⟨back, hback, hturns, hgoOn⟩ := exists_reply turns solo.answered plain hinput repeats
  have halone : (world.run other.fresh replies).1.fresh = handler.fresh :=
    (World.counted_run world other.fresh replies).1.trans hfresh.symm
  obtain ⟨after, hadvance⟩ := advance_of_fresh hturns halone
  refine ⟨replies + 1, ?_⟩
  show (world.step (world.run other.fresh replies)).2 = _
  unfold World.step
  rw [hrun, hback, Option.bind_some, hadvance, Option.getD_some, hgoOn]

theorem solo_start (handler : Handler η) (input : ι) :
    (start handler input : _ × Course ι α).2.Solo handler.fresh := by
  refine ⟨rfl, fun world hinput _ => ⟨0, ?_⟩⟩
  show (start handler.fresh world.input).2 = _
  rw [hinput]
  rfl

end Course

/-! ## 4. Executions side by side -/

namespace Station

variable {x y : Station η ι α} {move : Move η ι α} {number : Nat}

/-- What the execution with a number did, in order. -/
def history (x : Station η ι α) (number : Nat) : List (Course.Happening ι α) :=
  x.log.filterMap fun entry => if entry.1 = number then some entry.2 else none

/-- What the executions do is logged under their numbers. -/
structure Logged (x : Station η ι α) : Prop where
  numbers : ∀ entry ∈ x.log, entry.1 < x.courses.length
  history : ∀ number course, x.courses[number]? = some course → x.history number = course.log

theorem history_note (x : Station η ι α) (number other : Nat) (handler : Handler η)
    (next : Course ι α) (happenings : List (Course.Happening ι α)) :
    (x.note number handler next happenings).history other =
      x.history other ++ if number = other then happenings else [] := by
  show (x.log ++ _).filterMap _ = _
  rw [List.filterMap_append, Desk.filterMap_tagged]
  rfl

theorem history_start (x : Station η ι α) (input : ι) (other : Nat) :
    (x.start input).history other = x.history other ++
      if x.courses.length = other then
        (Course.start x.handler input : _ × Course ι α).2.log else [] := by
  show (x.log ++ _).filterMap _ = _
  rw [List.filterMap_append, Desk.filterMap_tagged]
  rfl

theorem logged_start (logged : x.Logged) (input : ι) : (x.start input).Logged where
  numbers entry hmem := by
    show entry.1 < (x.courses ++ [_]).length
    rw [List.length_append, List.length_singleton]
    rcases List.mem_append.mp hmem with hmem | hmem
    · exact Nat.lt_succ_of_lt (logged.numbers entry hmem)
    · obtain ⟨_, -, rfl⟩ := List.mem_map.mp hmem
      exact Nat.lt_succ_self _
  history other course hhere := by
    rw [history_start]
    rcases getElem?_concat_cases hhere with hold | ⟨rfl, rfl⟩
    · rw [if_neg (Nat.ne_of_gt (List.getElem?_eq_some_iff.mp hold).1), List.append_nil]
      exact logged.history other course hold
    · -- The next execution did nothing yet.
      have hnothing : x.history x.courses.length = [] :=
        List.filterMap_eq_nil_iff.mpr fun entry hmem =>
          if_neg (Nat.ne_of_lt (logged.numbers entry hmem))
      rw [if_pos rfl, hnothing, List.nil_append]
      rfl

theorem logged_note (logged : x.Logged) {course : Course ι α} {back : Course.Reply α}
    {turn : Handler.Turn η} (here : x.courses[number]? = some course) :
    (x.note number turn.handler (course.goOn x.handler back turn)
      (course.news x.handler back turn)).Logged where
  numbers entry hmem := by
    show entry.1 < (x.courses.set number _).length
    rw [List.length_set]
    rcases List.mem_append.mp hmem with hmem | hmem
    · exact logged.numbers entry hmem
    · obtain ⟨_, -, rfl⟩ := List.mem_map.mp hmem
      exact (List.getElem?_eq_some_iff.mp here).1
  history other old hold := by
    rw [history_note]
    by_cases hsame : number = other
    · subst hsame
      have hself := List.getElem?_set_self (a := course.goOn x.handler back turn)
        (List.getElem?_eq_some_iff.mp here).1
      cases hself.symm.trans hold
      rw [if_pos rfl, logged.history number course here]
      rfl
    · rw [if_neg hsame, List.append_nil]
      exact logged.history other old ((List.getElem?_set_ne hsame).symm.trans hold)

/-- The executions are logged, and without jitter they go on as they would alone. -/
structure Apart (x : Station η ι α) : Prop where
  frozen : x.Frozen
  logged : x.Logged
  solo : x.handler.backoff.jitter = .none → ∀ course ∈ x.courses, course.Solo x.handler.fresh

theorem Apart.change (apart : x.Apart) (change : x.Change move y) : y.Apart := by
  refine ⟨apart.frozen.change change, ?_, ?_⟩
  · cases change with
    | nothing => exact apart.logged
    | configures setting idle => exact ⟨apart.logged.numbers, apart.logged.history⟩
    | starts input => exact logged_start apart.logged input
    | goesOn number course back turn here turns => exact logged_note apart.logged here
  · cases change with
    | nothing => exact apart.solo
    | configures setting idle =>
      intro _ course hmem
      rw [apart.frozen (List.ne_nil_of_mem hmem)] at idle
      cases idle
    | starts input =>
      intro plain course hmem
      rcases List.mem_append.mp hmem with hmem | hmem
      · exact apart.solo plain course hmem
      · rw [List.mem_singleton.mp hmem]
        exact Course.solo_start x.handler input
    | goesOn number course back turn here turns =>
      intro plain other hmem
      have hbackoff : turn.handler.backoff = x.handler.backoff :=
        congrArg (·.backoff) turns.fresh
      replace plain : x.handler.backoff.jitter = .none := hbackoff ▸ plain
      show other.Solo turn.handler.fresh
      rw [turns.fresh]
      rcases List.mem_or_eq_of_mem_set hmem with hmem | rfl
      · exact apart.solo plain other hmem
      · exact (apart.solo plain course (List.mem_of_getElem? here)).goOn turns rfl plain

theorem apart_run (handler : Handler η) (moves : List (Move η ι α)) :
    ((opened handler : Station η ι α).run moves).Apart :=
  run_induction (fun _ _ _ apart change => apart.change change)
    ⟨fun hne => absurd rfl hne, ⟨fun _ hmem => absurd hmem List.not_mem_nil, nofun⟩,
      fun _ _ hmem => absurd hmem List.not_mem_nil⟩ moves

end Station

/-- A handler without jitter after any settings and executions, which go on beside each other at any
pace.  What one of them has done so far, all of it and where it stands, is what an execution with
its input does on a new handler with the same settings and nobody else, if the operation gives that
one the same results.  So one that is over makes the same attempts alone, shows the same failures,
waits for the same delays, tells the same events and comes to the same end. -/
theorem executions_do_not_disturb_each_other (handler : Handler η)
    (moves : List (Station.Move η ι α)) :
    let x := (Station.opened handler).run moves
    x.handler.backoff.jitter = .none →
    ∀ number course, x.courses[number]? = some course →
      x.history number = course.log ∧
      ∀ world : World ι α, world.input = course.input → world.Repeats course →
        (∃ replies, (world.run x.handler.fresh replies).2 = course) ∧
        (course.ending.isSome → ∀ alone, world.Completes x.handler.fresh alone ↔
          alone = course) := by
  intro x plain number course hhere
  have apart : x.Apart := Station.apart_run handler moves
  refine ⟨apart.logged.history number course hhere, fun world hinput repeats => ?_⟩
  obtain ⟨replies, hrun⟩ :=
    (apart.solo plain course (List.mem_of_getElem? hhere)).alone world hinput repeats
  refine ⟨⟨replies, hrun⟩, fun hended alone => ⟨fun h => ?_, ?_⟩⟩
  · exact h.unique ⟨replies, hrun, hended⟩
  · rintro rfl
    exact ⟨replies, hrun, hended⟩

/-- An operation that fails every time. -/
def World.failsAlways : World Nat String :=
  { input := 2, operation := fun _ _ => .error (.failed "no"), draw := fun _ => 0 }

/-- Two executions that take turns. -/
def Station.inTurn : List (Station.Move Unit Nat String) :=
  [.configure (.retryInterval 1 (.ofMillis 5)), .start 1, .start 2,
    .reply 0 (.answer (.error (.failed "no"))), .reply 1 (.answer (.error (.failed "no"))),
    .reply 1 (.seen 4), .reply 0 (.seen 3), .reply 0 .rested, .reply 0 (.answer (.ok "done")),
    .reply 1 .rested, .reply 1 (.answer (.error (.failed "no"))), .reply 1 (.seen 5)]

/-- The first one succeeds with its retry while the other one waits for its own, and the other one
spends what it would spend alone. -/
theorem executions_do_not_disturb_each_other_in_turn :
    ∃ x course, x = (Station.opened { name := "shared" }).run Station.inTurn ∧
      x.courses.map Course.state = [.success 2, .failed 2] ∧
      x.handler.backoff.jitter = .none ∧ x.courses[1]? = some course ∧
      World.failsAlways.Repeats course ∧ course.ending.isSome ∧
      ∀ alone, World.failsAlways.Completes x.handler.fresh alone ↔ alone = course := by
  have hstates : ((Station.opened { name := "shared" }).run Station.inTurn).courses.map
      Course.state = [.success 2, .failed 2] := by decide +kernel
  have plain : ((Station.opened { name := "shared" }).run
      Station.inTurn).handler.backoff.jitter = .none := by decide +kernel
  have hother : ((Station.opened { name := "shared" }).run Station.inTurn).courses[1]?.map
      (fun course => (course.input, course.answers, course.ending.isSome)) =
      some (2, [.error (.failed "no"), .error (.failed "no")], true) := by decide +kernel
  obtain ⟨course, hhere, hcourse⟩ := Option.map_eq_some_iff.mp hother
  obtain ⟨hinput, hpair⟩ := Prod.ext_iff.mp hcourse
  obtain ⟨hanswers, hended⟩ := Prod.ext_iff.mp hpair
  replace hinput : course.input = 2 := hinput
  replace hanswers : course.answers = [.error (.failed "no"), .error (.failed "no")] := hanswers
  replace hended : course.ending.isSome = true := hended
  have repeats : World.failsAlways.Repeats course := by
    intro k result hresult
    rw [hanswers] at hresult
    have hmem := List.mem_of_getElem? hresult
    simp only [List.mem_cons, List.not_mem_nil, or_false, or_self] at hmem
    rw [hmem]
    rfl
  exact ⟨_, course, rfl, hstates, plain, hhere, repeats, hended,
    ((executions_do_not_disturb_each_other { name := "shared" } Station.inTurn plain 1 course
      hhere).2 World.failsAlways hinput.symm repeats).2 hended⟩

end Sequencer
