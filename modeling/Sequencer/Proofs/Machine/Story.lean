import Sequencer.Proofs.Machine.Entries

/-!
# Story — the events of an actor, told as its dispatches

An actor tells a dispatch before it starts, and how it ended when it came back; in the end it tells
that it stopped.  The log of a machine that never panics is a story of such chapters, one for each
dispatch, in which nothing is left out, told twice or told in another place.
-/

namespace Sequencer

/-! ## 1. Chapters -/

/-- Whether events of the kind are told by the actor itself, not by those who send to it. -/
def EventKind.ofActor : EventKind → Bool
  | machineTick => true
  | machineFailed => true
  | machineCompleted => true
  | machineStopped => true
  | _ => false

/-- The part of the log that is about the dispatches of the actor and its own events. -/
def Occurrence.ofActor? : Occurrence → Option Occurrence
  | dispatched tick => some (dispatched tick)
  | returned round => some (returned round)
  | published event => if event.kind.ofActor then some (published event) else none
  | _ => none

def Effect.ofActor? : Effect → Option Occurrence
  | publish event => if event.kind.ofActor then some (.published event) else none
  | _ => none

/-- What the machine `name` tells of a dispatch that came back and left it in the state `left`. -/
def Round.event? (name left : String) (round : Round) : Option Event :=
  match round.result with
  | .error failure =>
    some { kind := .machineFailed, name := some name, state := some round.state,
           reason := some failure.text }
  | .ok () =>
    if round.completed then
      some { kind := .machineCompleted, name := some name, state := some left }
    else none

/-- A dispatch in the story of its actor. -/
structure Chapter where
  /-- What the logic saw when it started. -/
  view : View
  source : String
  /-- How it came back, if it did, and the state in which it left the machine. -/
  back : Option (Round × String) := none

namespace Chapter

def tick (c : Chapter) : Tick := { state := c.view.state, source := c.source }

/-- What is told when a dispatch came back. -/
def ending (name : String) (back : Round × String) : List Occurrence :=
  .returned back.1 :: (back.1.event? name back.2).toList.map .published

def text (c : Chapter) : List Occurrence :=
  .published (c.tick.event c.view.machine c.view.previous) :: .dispatched c.tick ::
    c.back.toList.flatMap (ending c.view.machine)

theorem text_close {c : Chapter} (back : Round × String) (h : c.back = none) :
    { c with back := some back }.text = c.text ++ ending c.view.machine back := by
  simp [text, tick, h]

end Chapter

namespace Traffic

variable {t t' : Traffic} {service : Service}

/-- What the actor does and tells, the latest first. -/
def story (t : Traffic) : List Occurrence := t.log.filterMap Occurrence.ofActor?

/-! ## 2. What a step adds to the story -/

theorem story_conduct (h : t.hosted = true) (actor : Actor) (effects : List Effect) :
    (t.conduct actor effects).story =
      (effects.filterMap Effect.ofActor?).reverse ++ t.story := by
  have heffect : ∀ effect : Effect,
      (effect.entry t.hosted actor.mailbox.queue).bind Occurrence.ofActor? =
        effect.ofActor? := by
    intro effect
    rw [h]
    cases effect with
    | deliver =>
      -- A request that enters is no deed of the actor.
      cases hlast : actor.mailbox.queue.getLast? <;> simp [Effect.entry, hlast] <;> rfl
    | _ => rfl
  show (_ ++ t.log).filterMap _ = _
  rw [List.filterMap_append, List.filterMap_reverse, List.filterMap_filterMap]
  exact congrArg (fun f => (effects.filterMap f).reverse ++ t.story) (funext heffect)

theorem story_aside (h : t.hosted = true) (actor : Actor) {effects : List Effect}
    (hnone : effects.filterMap Effect.ofActor? = []) :
    (t.conduct actor effects).story = t.story := by
  rw [story_conduct h, hnone]
  rfl

theorem ofActor?_told (service : Service) (result : Except Failure Unit) :
    (t.aftermath service result).told.filterMap Effect.ofActor? =
      ((t.round service result).event? t.actor.core.name t.actor.core.current).toList.map
        .published := by
  cases result with
  | error failure =>
    rw [told_failed]
    cases t.actor.core.completed <;> rfl
  | ok value =>
    cases hcompleted : t.actor.core.completed with
    | true =>
      rw [told_completed service hcompleted]
      simp [Round.event?, round, hcompleted, Effect.ofActor?, Core.completedEvent,
        EventKind.ofActor]
    | false =>
      rw [told_uncompleted service hcompleted]
      simp [Round.event?, round, hcompleted]

/-! ## 3. The story so far -/

/-- The log tells the chapters, the latest first, of the dispatches that the logic saw. -/
structure Tells (views : List View) (t : Traffic) (chapters : List Chapter) : Prop where
  hosted : t.hosted = true
  story : t.story = (if t.actor.ended then [.published t.actor.core.stoppedEvent] else []) ++
    chapters.flatMap fun c => c.text.reverse
  seen : chapters.map (·.view) = views.reverse
  sound : ∀ c ∈ chapters, c.view.machine = t.actor.core.name ∧
    ∀ back, c.back = some back → back.1.toTick = c.tick
  earlier : ∀ c ∈ chapters.tail, ∃ back, c.back = some back ∧ back.1.completed = false
  running : ∀ service, t.actor.service = some service →
    ∃ c rest, chapters = c :: rest ∧ c.back = none ∧
      c.tick = { state := service.state, source := service.chain.source }
  resting : t.actor.service = none → ∀ c ∈ chapters, c.back.isSome = true
  uncompleted : t.cancelled = false →
    ∀ c ∈ chapters, ∀ back, c.back = some back → back.1.completed = false
  ended : t.actor.ended = true → t.actor.service = none
  ticks : t.actor.core.ticks = chapters.length
  shown : t.actor.seen.ticks = (chapters.filterMap (·.back)).length

theorem tells_start (config : Config) (name initial : String) :
    Tells [] (start config name initial true) [] where
  hosted := rfl
  story := rfl
  seen := rfl
  sound _ h := by cases h
  earlier _ h := by cases h
  running _ h := by cases h
  resting _ _ h := by cases h
  uncompleted _ _ h := by cases h
  ended h := by cases h
  ticks := rfl
  shown := rfl

variable {views : List View} {chapters rest : List Chapter} {c : Chapter}

theorem length_backs (h : ∀ c ∈ chapters, c.back.isSome = true) :
    (chapters.filterMap (·.back)).length = chapters.length := by
  rw [List.length_filterMap_eq_countP]
  exact List.countP_eq_length.mpr h

theorem Tells.live (tells : Tells views t chapters) (h : t.actor.service = some service) :
    t.actor.ended = false := by
  cases hended : t.actor.ended with
  | false => rfl
  | true => cases h.symm.trans (tells.ended hended)

theorem Tells.back_earlier (tells : Tells views t (c :: rest)) :
    ∀ other ∈ rest, other.back.isSome = true := by
  intro other hmem
  obtain ⟨back, hback, -⟩ := tells.earlier other hmem
  rw [hback]
  rfl

/-- A step beside the dispatches keeps the story. -/
theorem Tells.keep (tells : Tells views t chapters) (hchange : t.Change t')
    (hstory : t'.story = t.story)
    (hended : t'.actor.ended = t.actor.ended)
    (hstopped : t.actor.ended = true → t'.actor.core.stoppedEvent = t.actor.core.stoppedEvent)
    (hservice : t'.actor.service = t.actor.service)
    (hticks : t'.actor.core.ticks = t.actor.core.ticks)
    (hseen : t'.actor.seen = t.actor.seen) : Tells views t' chapters where
  hosted := (hosted_change hchange).trans tells.hosted
  story := by
    rw [hstory, tells.story, hended]
    split
    · next h => rw [hstopped h]
    · rfl
  seen := tells.seen
  sound := by
    rw [name_change hchange]
    exact tells.sound
  earlier := tells.earlier
  running := by
    rw [hservice]
    exact tells.running
  resting := by
    rw [hservice]
    exact tells.resting
  uncompleted h := by
    apply tells.uncompleted
    cases hcancelled : t.cancelled with
    | false => rfl
    | true => cases h.symm.trans (cancelled_change hchange hcancelled)
  ended := by
    rw [hended, hservice]
    exact tells.ended
  ticks := hticks.trans tells.ticks
  shown := by
    rw [hseen]
    exact tells.shown

theorem Tells.close (tells : Tells views t (c :: rest)) (back : Round × String)
    (hsome : t.actor.service = some service) (hnone : c.back = none)
    (hround : back.1.toTick = c.tick)
    (hhosted : t'.hosted = t.hosted) (hname : t'.actor.core.name = t.actor.core.name)
    (hstory : t'.story = (Chapter.ending t.actor.core.name back).reverse ++ t.story)
    (hended : t'.actor.ended = t.actor.ended) (hservice : t'.actor.service = none)
    (hcancelled : t'.cancelled = (t.cancelled || back.1.completed))
    (hticks : t'.actor.core.ticks = t.actor.core.ticks)
    (hseen : t'.actor.seen.ticks = t.actor.core.ticks) :
    Tells views t' ({ c with back := some back } :: rest) where
  hosted := hhosted.trans tells.hosted
  story := by
    have hmachine := (tells.sound c List.mem_cons_self).1
    rw [hstory, tells.story, hended, tells.live hsome, List.flatMap_cons, List.flatMap_cons,
      Chapter.text_close back hnone, hmachine, List.reverse_append]
    simp
  seen := tells.seen
  sound := by
    rw [hname]
    refine List.forall_mem_cons.mpr ⟨⟨(tells.sound c List.mem_cons_self).1, ?_⟩,
      fun other hmem => tells.sound other (List.mem_cons_of_mem _ hmem)⟩
    intro other hother
    cases hother
    exact hround
  earlier := tells.earlier
  running other hother := by cases hother.symm.trans hservice
  resting _ := List.forall_mem_cons.mpr ⟨rfl, tells.back_earlier⟩
  uncompleted h := by
    rw [hcancelled, Bool.or_eq_false_iff] at h
    refine List.forall_mem_cons.mpr ⟨fun other hother => ?_,
      fun other hmem => tells.uncompleted h.1 other (List.mem_cons_of_mem _ hmem)⟩
    cases hother
    exact h.2
  ended _ := hservice
  ticks := hticks.trans tells.ticks
  shown := by
    -- All chapters but this one were closed before.
    rw [hseen, tells.ticks]
    simp [length_backs tells.back_earlier]

theorem Tells.begin (tells : Tells views t chapters) (hnone : t.actor.service = none)
    (hcancelled : t.cancelled = false) (hended : t.actor.ended = false)
    (hhosted : t'.hosted = t.hosted) (hname : t'.actor.core.name = t.actor.core.name)
    (hservice : t'.actor.service = some service)
    (hcurrent : t'.actor.core.current = service.state)
    (hstory : t'.story =
      .dispatched { state := service.state, source := service.chain.source } ::
        .published (t'.actor.core.tickEvent service.chain.source) :: t.story)
    (hended' : t'.actor.ended = false)
    (hticks : t'.actor.core.ticks = t.actor.core.ticks + 1)
    (hseen : t'.actor.seen.ticks = t.actor.seen.ticks) :
    Tells (views ++ [t'.actor.core.view]) t'
      ({ view := t'.actor.core.view, source := service.chain.source } :: chapters) where
  hosted := hhosted.trans tells.hosted
  story := by
    rw [hstory, tells.story, hended, hended', ← hcurrent]
    rfl
  seen := by
    rw [List.map_cons, tells.seen, List.reverse_append]
    rfl
  sound := by
    rw [hname]
    exact List.forall_mem_cons.mpr ⟨⟨hname, fun _ h => by cases h⟩, tells.sound⟩
  earlier other hmem := by
    obtain ⟨back, hback⟩ := Option.isSome_iff_exists.mp (tells.resting hnone other hmem)
    exact ⟨back, hback, tells.uncompleted hcancelled other hmem back hback⟩
  running other hother := by
    cases hother.symm.trans hservice
    exact ⟨_, _, rfl, rfl, by rw [← hcurrent]; rfl⟩
  resting h := by cases h.symm.trans hservice
  uncompleted _ :=
    List.forall_mem_cons.mpr ⟨(fun _ h => by cases h), tells.uncompleted hcancelled⟩
  ended h := by cases h.symm.trans hended'
  ticks := by rw [hticks, tells.ticks, List.length_cons]
  shown := hseen.trans tells.shown

theorem tells_leave (tells : Tells views t chapters) (hlive : t.actor.ended = false)
    (hnone : t.actor.service = none) :
    Tells views (t.conduct t.actor.leave.1 t.actor.leave.2) chapters where
  hosted := tells.hosted
  story := by
    rw [story_conduct tells.hosted, tells.story, hlive]
    simp [Actor.leave, Effect.ofActor?, Function.comp_def, Core.stoppedEvent, EventKind.ofActor,
      conduct]
  seen := tells.seen
  sound := tells.sound
  earlier := tells.earlier
  running _ h := by cases h.symm.trans hnone
  resting _ := tells.resting hnone
  uncompleted h := tells.uncompleted (Bool.or_eq_false_iff.mp h).1
  ended _ := hnone
  ticks := tells.ticks
  shown := tells.shown

/-- A step keeps the story, if it is no panic. -/
theorem tells_change (tells : Tells views t chapters) (hchange : t.Change t')
    (hcalm : t.actor.service ≠ none →
      t' ≠ t.conduct t.actor.collapse.1 t.actor.collapse.2) :
    ∃ chapters, Tells (views ++ t.opening t') t' chapters := by
  have hosted := tells.hosted
  have keep := tells.keep hchange
  have hsame : ∀ {chapters}, t'.dispatches = t.dispatches → Tells views t' chapters →
      ∃ chapters, Tells (views ++ t.opening t') t' chapters := fun hdispatches later =>
    ⟨_, by rw [opening_same hdispatches, List.append_nil]; exact later⟩
  have hopens : ∀ {tick chapters}, t'.dispatches = tick :: t.dispatches →
      Tells (views ++ [t'.actor.core.view]) t' chapters →
      ∃ chapters, Tells (views ++ t.opening t') t' chapters := fun hdispatches later =>
    ⟨_, by rw [opening_cons hdispatches]; exact later⟩
  cases hchange with
  | nothing => exact hsame rfl tells
  | cancel => exact hsame rfl (keep rfl rfl (fun _ => rfl) rfl rfl rfl)
  | look c hphase hreply => exact hsame rfl (keep rfl rfl (fun _ => rfl) rfl rfl rfl)
  | hear c result hphase hreply => exact hsame rfl (keep rfl rfl (fun _ => rfl) rfl rfl rfl)
  | forgo c hphase => exact hsame rfl (keep rfl rfl (fun _ => rfl) rfl rfl rfl)
  | overflow source hopen hfull =>
    exact hsame (dispatches_conduct _ _)
      (keep (story_aside hosted _ rfl) rfl (fun _ => rfl) rfl rfl rfl)
  | post source hopen hroom =>
    exact hsame (dispatches_conduct _ _)
      (keep (story_aside hosted _ rfl) rfl (fun _ => rfl) rfl rfl rfl)
  | enter c source mailbox hphase hsend =>
    exact hsame (dispatches_conduct _ _)
      (keep (story_aside hosted _ rfl) rfl (fun _ => rfl) rfl rfl rfl)
  | wait c source mailbox hphase hsend =>
    exact hsame (dispatches_conduct _ _)
      (keep (story_aside hosted _ rfl) rfl (fun _ => rfl) rfl rfl rfl)
  | refuse c source mailbox hphase hsend =>
    exact hsame (dispatches_conduct _ _)
      (keep (story_aside hosted _ rfl) rfl (fun _ => rfl) rfl rfl rfl)
  | giveUp c source hphase =>
    refine hsame (dispatches_conduct _ _)
      (keep (story_aside hosted _ ?_) rfl (fun _ => rfl) rfl rfl rfl)
    cases (t.actor.mailbox.abandon c).2 <;> rfl
  | cut request queue hidle hqueue =>
    have hnone := (idle_iff.mp hidle).2
    refine hsame (dispatches_conduct _ _) (keep
      (story_aside (t := { t with cancelled := true }.record (.taken request)) hosted _ ?_) rfl
      (fun _ => rfl) hnone.symm rfl rfl)
    cases (t.taken queue).2 <;> cases request.reply <;> rfl
  | deed service hservice deed =>
    refine hsame rfl (keep rfl rfl (fun h => ?_) rfl (by cases deed <;> rfl) rfl)
    cases hservice.symm.trans (tells.ended h)
  | serve request queue hidle hcancelled hqueue =>
    obtain ⟨hlive, hnone⟩ := idle_iff.mp hidle
    refine hopens (congrArg (List.cons _) (dispatches_conduct _ _))
      (tells.begin hnone hcancelled hlive rfl rfl rfl rfl ?_ hlive rfl rfl)
    refine congrArg (List.cons _)
      ((story_conduct (t := t.record (.taken request)) hosted _ _).trans ?_)
    cases (t.taken queue).2 <;> rfl
  | finish service result final hservice hfinal =>
    obtain ⟨c, rest, rfl, hnone, htick⟩ := tells.running service hservice
    refine hsame (dispatches_conduct _ _) (tells.close
      (t.round service result, t.actor.core.current) hservice hnone htick.symm rfl
      (Chain.name_settle _ _ _ _) ?_ rfl rfl ?_ (ticks_aftermath service result) rfl)
    · have hreturned : (t.record (.returned (t.round service result))).hosted = true := hosted
      refine (story_conduct hreturned _ _).trans ?_
      rw [List.filterMap_append, ofActor?_told]
      cases service.reply <;> simp [Chapter.ending, Effect.ofActor?] <;> rfl
    · exact congrArg (t.cancelled || ·) (cancels_finish service result final)
  | next service state work hservice hcompleted hwork hcancelled =>
    -- It comes back first, and the machine stands between two dispatches.
    obtain ⟨c, rest, rfl, hnone, htick⟩ := tells.running service hservice
    have between : Tells views
        { t.record (.returned (t.round service (.ok ()))) with
          actor := { t.actor with
            core := t.moved state, service := none
            seen := t.actor.core.snapshot, version := t.actor.version + 1 } }
        ({ c with back := some (t.round service (.ok ()), t.actor.core.current) } :: rest) := by
      refine tells.close (t.round service (.ok ()), t.actor.core.current) hservice hnone
        htick.symm rfl rfl ?_ rfl rfl ?_ rfl rfl
      · simp [Chapter.ending, Round.event?, round, hcompleted]
        rfl
      · simp [round, record, hcompleted]
    refine hopens (congrArg (List.cons _) (dispatches_conduct _ _))
      (between.begin rfl hcancelled (tells.live hservice) rfl rfl rfl rfl ?_ (tells.live hservice)
        rfl rfl)
    exact congrArg (List.cons _)
      (story_conduct (t := t.record (.returned (t.round service (.ok ())))) hosted _ _)
  | leave hidle =>
    obtain ⟨hlive, hnone⟩ := idle_iff.mp hidle
    exact hsame (dispatches_conduct _ _) (tells_leave tells hlive hnone)
  | collapse service hservice =>
    exact absurd rfl (hcalm (hservice ▸ Option.some_ne_none service))

/-- Only a panic breaks a dispatch off. -/
theorem step_ne_collapse {move : Move} (hmove : move ≠ .panic) (h : t.actor.service ≠ none) :
    t.step move ≠ t.conduct t.actor.collapse.1 t.actor.collapse.2 := by
  obtain ⟨service, hservice⟩ := Option.ne_none_iff_exists'.mp h
  intro hcollapse
  cases hreturns : move.returns with
  | false =>
    have hruns := (step_running hservice hreturns).1
    rw [hcollapse] at hruns
    cases hruns
  | true =>
    cases move with
    | settle result =>
      have hrounds := rounds_settle hservice result
      rw [hcollapse, rounds_conduct] at hrounds
      exact List.cons_ne_self _ _ hrounds.symm
    | panic => exact hmove rfl
    | _ => cases hreturns

theorem length_ticksTold (config : Config) (name initial : String) (moves : List Move) :
    ((start config name initial true).run moves).ticksTold.length =
      ((start config name initial true).run moves).dispatches.length := by
  have hboth := run_induction
    (P := fun t => t.hosted = true ∧ t.ticksTold.length = t.dispatches.length)
    (t := start config name initial true) (fun t t' h hchange => ?_) ⟨rfl, rfl⟩ moves
  · exact hboth.2
  · obtain ⟨started, hdispatches, hticks⟩ := told_change hchange
    refine ⟨(hosted_change hchange).trans h.1, ?_⟩
    rw [hticks, hdispatches, h.1, if_pos rfl, List.length_append, List.length_append,
      List.length_map, h.2]

end Traffic

/-- Whatever is asked of a machine with a bus, and whatever its logic does as long as it does not
panic, the dispatches and the events of its actor are chapters in a row, and once the actor left,
the event of its stop follows and ends them.  A chapter begins with the event of its dispatch, which
names what the logic sees; it goes on with the return of the dispatch, and then with the event of a
failure or of a completion if it came to one.  Only the latest chapter may still be open or have
completed the machine.  There are as many such beginnings as dispatches, and others see as many
dispatches as came back. -/
theorem events_tell_the_dispatches (config : Config) (name initial : String)
    (moves : List Traffic.Move) (hcalm : .panic ∉ moves) :
    let start := Traffic.start config name initial true
    let t := start.run moves
    ∃ chapters : List Chapter,
      t.story.reverse = chapters.flatMap Chapter.text ++
        (if t.actor.ended then [.published t.actor.core.stoppedEvent] else []) ∧
      chapters.map (·.view) = start.views moves ∧
      (∀ c ∈ chapters, c.view.machine = name ∧
        ∀ back, c.back = some back → back.1.toTick = c.tick) ∧
      (∀ c ∈ chapters.dropLast, ∃ back, c.back = some back ∧ back.1.completed = false) ∧
      (t.actor.ended = true ∨ t.actor.service = none → ∀ c ∈ chapters, c.back.isSome = true) ∧
      t.ticksTold.length = t.actor.core.ticks ∧
      t.actor.seen.ticks = (chapters.filterMap (·.back)).length ∧
      (t.actor.service = none → t.actor.seen.ticks = t.ticksTold.length) := by
  intro start t
  have tally : t.Tally := Traffic.tally_run (Traffic.tally_start config name initial true) moves
  obtain ⟨chapters, tells⟩ : ∃ chapters, Traffic.Tells (start.views moves) t chapters :=
    Traffic.views_induction (P := fun views t => ∃ chapters, Traffic.Tells views t chapters)
      (fun _ t move hmem ⟨_, tells⟩ =>
        Traffic.tells_change tells (Traffic.change_step t move)
          (Traffic.step_ne_collapse fun hpanic => hcalm (hpanic ▸ hmem)))
      ⟨[], Traffic.tells_start config name initial⟩
  have hname : t.actor.core.name = name := Traffic.name_run _ moves
  have hticks : t.ticksTold.length = t.actor.core.ticks :=
    (Traffic.length_ticksTold config name initial moves).trans tally.ticks.symm
  -- The chapters are kept latest first, and the statement reads them in order.
  refine ⟨chapters.reverse, ?_, ?_, fun c hmem => ?_, fun c hmem => ?_, fun hover c hmem => ?_,
    hticks, ?_, fun hnone => ?_⟩
  · rw [tells.story, List.reverse_append, List.reverse_flatMap]
    congr 1
    · simp [Function.comp_def]
    · split <;> rfl
  · rw [List.map_reverse, tells.seen, List.reverse_reverse]
  · exact hname ▸ tells.sound c (List.mem_reverse.mp hmem)
  · rw [List.dropLast_reverse] at hmem
    exact tells.earlier c (List.mem_reverse.mp hmem)
  · exact tells.resting (hover.elim tells.ended id) c (List.mem_reverse.mp hmem)
  · rw [List.filterMap_reverse, List.length_reverse, tells.shown]
  · rw [hticks, tells.shown, tells.ticks, Traffic.length_backs (tells.resting hnone)]

/-- A refresh that fails in its second dispatch, and one that completes the machine, which then
leaves. -/
theorem events_tell_the_dispatches_failure :
    let moves : List Traffic.Move :=
      [.call 0 "go", .turn false, .deed (.become "B"), .deed .closeTransition, .settle (.ok ()),
        .settle (.error (.failed "stuck")), .call 1 "again", .turn false, .deed .complete,
        .settle (.ok ()), .turn false]
    let t := (Traffic.start {} "m" "A" true).run moves
    .panic ∉ moves ∧ t.actor.ended = true ∧
      ∃ chapters : List Chapter, chapters.map (·.view.state) = ["A", "B", "B"] ∧
        t.story.reverse = chapters.flatMap Chapter.text ++ [.published
          { kind := .machineStopped, name := some "m", state := some "B" }] ∧
        ∀ c ∈ chapters, c.back.isSome = true := by
  intro moves t
  have hcalm : .panic ∉ moves := by simp [moves]
  obtain ⟨chapters, hstory, hviews, -, -, hback, -⟩ :=
    events_tell_the_dispatches {} "m" "A" moves hcalm
  refine ⟨hcalm, rfl, chapters, ?_, hstory, hback (.inl rfl)⟩
  have hstates := congrArg (List.map (·.state)) hviews
  rw [List.map_map] at hstates
  exact hstates

end Sequencer
