import Sequencer.Proofs.Handler.Desk

/-!
# Dispatches — every dispatch that returns has reported once

Dispatches go on side by side, of one command or of several, and share the handlers that they
execute.  Each one reports the result of its own execution, under its own id, after its event and
before it returns.  A command that is not registered does nothing but return, and a registration of
one that is does nothing at all.
-/

namespace Sequencer

theorem EventKind.isOutcome_eq_false {kind : EventKind} :
    kind.isOutcome = false ↔ kind ≠ .commandCompleted ∧ kind ≠ .commandFailed := by
  cases kind <;> simp [isOutcome]

namespace Desk

variable {η ω ι : Type} {x y : Desk η ω ι} {ticket : Ticket ι} {command : String} {operation : ω}
  {number : Nat} {answer : Except Refusal Unit}

/-- Operations are never replaced. -/
theorem grows_change (change : x.Change y) :
    y.hosted = x.hosted ∧ ∀ command operation,
      x.operation? command = some operation → y.operation? command = some operation := by
  cases change with
  | aside y grows => exact ⟨grows.hosted, grows.operations⟩
  | enters y grows ticket entries begins => exact ⟨grows.hosted, grows.operations⟩
  | advances y grows number ticket next entries here advances =>
    exact ⟨grows.hosted, grows.operations⟩

theorem grows_run (x : Desk η ω ι) (moves : List (Move η ω ι)) :
    (x.run moves).hosted = x.hosted ∧ ∀ command operation,
      x.operation? command = some operation →
        (x.run moves).operation? command = some operation := by
  induction moves generalizing x with
  | nil => exact ⟨rfl, fun _ _ h => h⟩
  | cons move moves ih =>
    obtain ⟨hhosted, hoperations⟩ := grows_change (change_step x move)
    obtain ⟨hlast, hkept⟩ := ih (x.step move)
    exact ⟨hlast.trans hhosted, fun command operation h =>
      hkept command operation (hoperations command operation h)⟩

theorem getElem?_dispatch_of_some {post : Post η ω} (h : x.registry.get? command = some post)
    (id : String) (input : ι) :
    (x.dispatch id command input).tickets[x.tickets.length]? =
      some { id, command, input, phase := .executing (Course.start post.handler input).2 } := by
  rw [dispatch_of_some h]
  exact List.getElem?_concat_length

theorem getElem?_dispatch_of_none (h : x.registry.get? command = none) (id : String) (input : ι) :
    (x.dispatch id command input).tickets[x.tickets.length]? =
      some { id, command, input, phase := .refused (.unknownCommand command) } := by
  rw [dispatch_of_none h]
  exact List.getElem?_concat_length

def Entry.report? : Entry ω ι → Option (String × Option Failure)
  | reported id outcome => some (id, outcome)
  | _ => none

def Entry.isReturn : Entry ω ι → Bool
  | returned _ => true
  | _ => false

/-- An execution neither reports nor returns from the dispatch. -/
theorem traces_cases {hosted : Bool} {happenings : List (Course.Happening ι Unit)}
    {entry : Entry ω ι} (h : entry ∈ traces hosted operation happenings) :
    entry.report? = none ∧ ∀ answer, entry ≠ .returned answer := by
  obtain ⟨happening, -, hentry⟩ := List.mem_filterMap.mp h
  split at hentry
  · split at hentry <;> cases hentry
    exact ⟨rfl, nofun⟩
  · cases hentry
    exact ⟨rfl, nofun⟩

theorem verdict_cases {hosted : Bool} {id : String} {result : Except Failure Unit}
    {entry : Entry ω ι} (h : entry ∈ verdict hosted id command result) :
    entry.report? = none ∧ ∀ answer, entry ≠ .returned answer := by
  unfold verdict at h
  split at h
  · rw [List.mem_singleton.mp h]
    exact ⟨rfl, nofun⟩
  · cases h

theorem filterMap_report? (hosted : Bool) (operation : ω)
    (happenings : List (Course.Happening ι Unit)) (id command : String)
    (result : Except Failure Unit) :
    (traces hosted operation happenings ++ verdict hosted id command result ++
      [Entry.reported id (outcome result)] ++ [Entry.returned (.ok ())]).filterMap Entry.report? =
      [(id, outcome result)] := by
  have htraces : (traces hosted operation happenings).filterMap Entry.report? = [] :=
    List.filterMap_eq_nil_iff.mpr fun _ h => (traces_cases h).1
  have hverdict : (verdict hosted id command result : List (Entry ω ι)).filterMap
      Entry.report? = [] :=
    List.filterMap_eq_nil_iff.mpr fun _ h => (verdict_cases h).1
  rw [List.filterMap_append, List.filterMap_append, List.filterMap_append, htraces, hverdict]
  rfl

/-- A dispatch that found its handler returns once its execution did. -/
theorem returned_of_mem_tale {hosted : Bool} (h : .returned answer ∈ ticket.tale hosted operation) :
    ∃ course result, ticket.phase = .returned course result := by
  have htraces : ∀ happenings : List (Course.Happening ι Unit),
      .returned answer ∉ traces hosted operation happenings :=
    fun _ h => (traces_cases h).2 answer rfl
  have hverdict : ∀ result,
      (.returned answer : Entry ω ι) ∉ verdict hosted ticket.id ticket.command result :=
    fun _ h => (verdict_cases h).2 answer rfl
  unfold Ticket.tale at h
  split at h
  · cases h
  · exact absurd h (htraces _)
  · exact absurd h (List.not_mem_append (htraces _) (hverdict _))
  · simp [htraces, hverdict] at h
  · next course result hphase => exact ⟨course, result, hphase⟩
  · exact absurd h (htraces _)

theorem Orderly.history_returned (orderly : x.Orderly) (h : x.tickets[number]? = some ticket)
    (hphase : ∀ refusal, ticket.phase ≠ .refused refusal)
    (hoperation : x.operation? ticket.command = some operation)
    (hanswer : .returned answer ∈ x.history number) :
    ∃ (course : Course ι Unit) (result : Except Failure Unit),
      course.Sound ticket.input ∧ course.ending = some (.returned result) ∧
        x.history number = traces x.hosted operation course.log ++
          verdict x.hosted ticket.id ticket.command result ++
          [.reported ticket.id (outcome result)] ++ [.returned (.ok ())] := by
  cases orderly.keeps number ticket h with
  | refused phase history => exact absurd phase (hphase _)
  | posted other post sound history =>
    obtain rfl : other = operation := Option.some.inj (post.symm.trans hoperation)
    rw [history] at hanswer
    obtain ⟨course, result, hreturned⟩ := returned_of_mem_tale hanswer
    simp only [Ticket.Sound, hreturned] at sound
    refine ⟨course, result, sound.1, sound.2, ?_⟩
    rw [history, Ticket.tale, hreturned]

/-- A dispatch that found no handler does nothing more. -/
theorem Orderly.history_refused (orderly : x.Orderly) (h : x.tickets[number]? = some ticket)
    {refusal : Refusal} (hphase : ticket.phase = .refused refusal) :
    x.history number = [.returned (.error (.unknownCommand ticket.command))] := by
  cases orderly.keeps number ticket h with
  | refused phase history => exact history
  | posted operation post sound history =>
    simp only [Ticket.Sound, hphase] at sound

theorem outcome_eq_none {result : Except Failure Unit} :
    outcome result = none ↔ result = .ok () := by
  rcases result with failure | ⟨⟨⟩⟩ <;> simp [outcome]

theorem outcome_eq_some {result : Except Failure Unit} {failure : Failure} :
    outcome result = some failure ↔ result = .error failure := by
  rcases result with other | ⟨⟨⟩⟩ <;> simp [outcome]

end Desk

/-- A registry after any commands were registered, and any dispatches that go on beside each other.
A dispatch of a registered command that has returned executed the operation of the command with its
input.  Its execution returned what the operation gave last, and then the dispatch told that
outcome, if there is a bus, reported it under its own id, and returned: each of them once, and in
this order.  A dispatch of another command returns at once and does nothing else.  To register a
command again is refused and changes nothing. -/
theorem each_dispatch_reports_once {η ω ι : Type} (hosted : Bool) (backoff : Backoff)
    (moves : List (Desk.Move η ω ι)) :
    let x := (Desk.opened hosted backoff : Desk η ω ι).run moves
    (∀ id command input later,
      let begun := x.step (.dispatch id command input)
      let history := (begun.run later).history x.tickets.length
      (∀ post, x.registry.get? command = some post → ∀ answer, .returned answer ∈ history →
        ∃ (course : Course ι Unit) (result : Except Failure Unit) (outcome : Option Failure),
          (∀ other, .called other ∈ course.log → other = input) ∧
          (∀ event, .told event ∈ course.log →
            event.kind ≠ .commandCompleted ∧ event.kind ≠ .commandFailed) ∧
          course.ending = some (.returned result) ∧ course.lastAnswer = some result ∧
          (outcome = none ↔ result = .ok ()) ∧
          (∀ failure, outcome = some failure ↔ result = .error failure) ∧
          history = Desk.traces hosted post.operation course.log ++
            (if hosted then [.published (Registry.outcomeEvent id command outcome)] else []) ++
            [.reported id outcome] ++ [.returned (.ok ())] ∧
          history.filterMap Desk.Entry.report? = [(id, outcome)]) ∧
      (x.registry.get? command = none →
        history = [.returned (.error (.unknownCommand command))] ∧
          begun.registry = x.registry)) ∧
    ∀ command operation post, x.registry.get? command = some post →
      x.onCommand command operation = .error (.duplicateHandler command) ∧
        x.step (.register command operation) = x := by
  intro x
  have orderly : x.Orderly := Desk.orderly_run (Desk.orderly_opened hosted backoff) moves
  refine ⟨fun id command input later => ?_, fun command operation post hget => ?_⟩
  · intro begun history
    have hbegun := Desk.change_step x (.dispatch id command input)
    have hlater : (begun.run later).Orderly :=
      Desk.orderly_run (Desk.orderly_change orderly hbegun) later
    constructor
    · intro post hget answer hanswer
      have hbefore := Desk.grows_change hbegun
      have hafter := Desk.grows_run begun later
      obtain ⟨ticket, hticket, same⟩ :=
        Desk.same_run (Desk.getElem?_dispatch_of_some hget id input) later
      have hoperation : (begun.run later).operation? ticket.command = some post.operation := by
        rw [same.command]
        exact hafter.2 _ _ (hbefore.2 _ _ (Desk.operation?_of_get? hget))
      have hphase : ∀ refusal, ticket.phase ≠ .refused refusal := fun refusal hrefused =>
        nomatch (same.refused refusal).mp hrefused
      have hhosted : (begun.run later).hosted = hosted :=
        hafter.1.trans (hbefore.1.trans (Desk.grows_run _ moves).1)
      obtain ⟨course, result, sound, hending, hhistory⟩ :=
        hlater.history_returned hticket hphase hoperation hanswer
      refine ⟨course, result, Desk.outcome result, fun other hcalled => ?_, fun event htold => ?_,
        hending, sound.lastAnswer hending, Desk.outcome_eq_none, fun _ => Desk.outcome_eq_some, ?_⟩
      · exact (sound.called other hcalled).trans same.input
      · exact EventKind.isOutcome_eq_false.mp (sound.told event htold)
      · have hreturned : history = _ := hhistory
        rw [hhosted, same.id, same.command] at hreturned
        refine ⟨hreturned, ?_⟩
        rw [hreturned]
        exact Desk.filterMap_report? hosted post.operation course.log id command result
    · intro hget
      obtain ⟨ticket, hticket, same⟩ :=
        Desk.same_run (Desk.getElem?_dispatch_of_none hget id input) later
      have hrefused := hlater.history_refused hticket ((same.refused _).mpr rfl)
      rw [same.command] at hrefused
      refine ⟨hrefused, ?_⟩
      show (x.dispatch id command input).registry = x.registry
      rw [Desk.dispatch_of_none hget]
      rfl
  · have hrefused := Desk.onCommand_of_some hget operation
    refine ⟨hrefused, ?_⟩
    simp only [Desk.step, hrefused]

/-- Two dispatches of one command go on side by side.  The second one fails for good while the
first one waits for its retry, which gives a value. -/
theorem each_dispatch_reports_once_overlap :
    let x := (Desk.opened true .immediate : Desk Unit String Nat).run
      [.register "home" "axis", .configure "home" (.retry 2)]
    let y := (x.step (.dispatch "c-1" "home" 1)).run
      [.dispatch "c-2" "home" 2, .reply 0 (.answer (.error (.failed "encoder glitch"))),
        .reply 1 (.answer (.error (.fatal "stuck"))), .reply 0 (.seen 0), .reply 1 (.seen 0),
        .proceed 1, .reply 0 .rested, .proceed 1, .reply 0 (.answer (.ok ())), .proceed 0,
        .proceed 1, .proceed 0, .proceed 0]
    (y.history 1).filterMap Desk.Entry.report? = [("c-2", some (.fatal "stuck"))] ∧
    (y.history 0).filterMap Desk.Entry.report? = [("c-1", none)] ∧
    ∃ course : Course Nat Unit, course.lastAnswer = some (.ok ()) ∧
      y.history 0 = Desk.traces true "axis" course.log ++
        [.published (Registry.outcomeEvent "c-1" "home" none)] ++
        [.reported "c-1" none] ++ [.returned (.ok ())] := by
  intro x y
  have hother : (y.history 1).filterMap Desk.Entry.report? = [("c-2", some (.fatal "stuck"))] := by
    decide +kernel
  have hreport : (y.history 0).filterMap Desk.Entry.report? = [("c-1", none)] := by
    decide +kernel
  have hreturned : (y.history 0).any Desk.Entry.isReturn = true := by
    decide +kernel
  refine ⟨hother, hreport, ?_⟩
  obtain ⟨entry, hmem, hentry⟩ := List.any_eq_true.mp hreturned
  cases entry with
  | returned answer =>
    obtain ⟨course, result, outcome, -, -, -, hlast, hok, -, hhistory, hreports⟩ :=
      ((each_dispatch_reports_once true .immediate _).1 "c-1" "home" 1 _).1 _ rfl answer hmem
    cases hreport.symm.trans hreports
    rw [hok.mp rfl] at hlast
    exact ⟨course, hlast, hhistory⟩
  | _ => cases hentry

end Sequencer
