import Mathlib.Data.List.Induction
import Sequencer.Proofs.Machine.Updates

/-!
# Previous — the state from which a refresh began

When a request is taken, the current state of the machine becomes the previous one of the whole
refresh: for its first dispatch and for those that are chained to it, in the events that tell them
and in what others see of the machine.  That state is the one in which the last dispatch of the
refresh before left the machine, however that refresh ended.
-/

namespace Sequencer

/-! ## 1. Requests and the events of dispatches -/

namespace Occurrence

def taking? : Occurrence → Option Request
  | taken request => some request
  | _ => none

def tickEvent? : Occurrence → Option Event
  | published event => if event.kind = .machineTick then some event else none
  | _ => none

end Occurrence

/-- The event of a dispatch in a refresh that began in `previous`. -/
def Tick.event (name : String) (previous : Option String) (tick : Tick) : Event :=
  { kind := .machineTick, name := some name, state := some tick.state, previous,
    source := some tick.source }

namespace Traffic

variable {t t' u : Traffic} {effects : List Effect} {service : Service} {request : Request}

/-- The requests that were taken, the latest first. -/
def takings (t : Traffic) : List Request := t.log.filterMap Occurrence.taking?

def ticksTold (t : Traffic) : List Event := t.log.filterMap Occurrence.tickEvent?

theorem takings_conduct (actor : Actor) (effects : List Effect) :
    (t.conduct actor effects).takings = t.takings :=
  filterMap_untold actor (fun _ => rfl) fun _ _ => rfl

theorem ticksTold_conduct (actor : Actor)
    (h : ∀ event, Effect.publish event ∈ effects → event.kind ≠ .machineTick) :
    (t.conduct actor effects).ticksTold = t.ticksTold :=
  filterMap_untold actor (fun _ => rfl) fun event hmem => if_neg (h event hmem)

theorem ticksTold_start (t : Traffic) (actor : Actor) (reserved : Option Nat) {event : Event}
    (hkind : event.kind = .machineTick) :
    (t.conduct actor ((reserved.map Effect.reserve).toList ++ [.publish event])).ticksTold =
      (if t.hosted then [event] else []) ++ t.ticksTold := by
  unfold ticksTold conduct
  cases reserved <;> cases t.hosted <;>
    simp [List.filterMap_cons, Effect.entry, Occurrence.tickEvent?, hkind]

/-- A dispatch that comes back tells of itself, not of another one. -/
theorem kind_of_told {event : Event} {result : Except Failure Unit}
    (h : .publish event ∈ (t.aftermath service result).told) :
    event.kind = .machineFailed ∨ event.kind = .machineCompleted := by
  cases result with
  | error failure =>
    rw [told_failed] at h
    rcases List.mem_cons.mp h with h | h
    · cases h
      exact .inl rfl
    · split at h
      · cases List.mem_singleton.mp h
      · cases h
  | ok value =>
    cases hcompleted : t.actor.core.completed with
    | true =>
      rw [told_completed service hcompleted] at h
      rcases List.mem_cons.mp h with h | h
      · cases h
        exact .inr rfl
      · cases List.mem_singleton.mp h
    | false =>
      rw [told_uncompleted service hcompleted] at h
      cases h

/-! ## 2. What a step can do -/

/-- A request is taken as long as the machine rests, and its refresh begins where the machine is. -/
theorem previous_change (hchange : t.Change t') :
    t'.takings = t.takings ∧ t'.actor.core.previous = t.actor.core.previous ∨
      ∃ request, t'.takings = request :: t.takings ∧
        t'.actor.core.previous = some t.actor.core.current ∧ t.idle = true ∧
        (t'.actor.service ≠ none ∨ t'.cancelled = true) := by
  cases hchange with
  | serve request queue hidle hcancelled hqueue =>
    exact .inr ⟨request, takings_conduct _ _, rfl, hidle, .inl nofun⟩
  | cut request queue hidle hqueue =>
    exact .inr ⟨request, takings_conduct _ _, rfl, hidle, .inr rfl⟩
  | deed service hservice deed => exact .inl ⟨rfl, by cases deed <;> rfl⟩
  | finish service result final hservice hfinal =>
    obtain ⟨pending, current, hcore⟩ :=
      Chain.core_settle t.actor.core service.chain service.state result
    refine .inl ⟨takings_conduct _ _, ?_⟩
    show (Chain.settle t.actor.core service.chain service.state result).core.previous = _
    rw [hcore]
  | _ => exact .inl (by first | exact ⟨rfl, rfl⟩ | exact ⟨takings_conduct _ _, rfl⟩)

theorem seen_change (hchange : t.Change t') :
    t'.rounds = t.rounds ∧ t'.actor.seen = t.actor.seen ∨
      t.actor.service ≠ none ∧ t'.actor.seen = t.actor.core.snapshot := by
  cases hchange with
  | serve request queue hidle hcancelled hqueue => exact .inl ⟨rounds_conduct _ _, rfl⟩
  | finish service result final hservice hfinal =>
    exact .inr ⟨by rw [hservice]; exact nofun, rfl⟩
  | next service state work hservice hcompleted hwork hcancelled =>
    exact .inr ⟨by rw [hservice]; exact nofun, rfl⟩
  | _ => exact .inl (by first | exact ⟨rfl, rfl⟩ | exact ⟨rounds_conduct _ _, rfl⟩)

/-- Every dispatch that starts is told, with the previous state of its refresh. -/
theorem told_change (hchange : t.Change t') :
    ∃ started, t'.dispatches = started ++ t.dispatches ∧
      t'.ticksTold = (if t.hosted then
        started.map (Tick.event t.actor.core.name t'.actor.core.previous) else []) ++
          t.ticksTold := by
  have hquiet : ∀ {u : Traffic}, u.dispatches = t.dispatches → u.ticksTold = t.ticksTold →
      ∃ started, u.dispatches = started ++ t.dispatches ∧
        u.ticksTold = (if t.hosted then
          started.map (Tick.event t.actor.core.name u.actor.core.previous) else []) ++
            t.ticksTold :=
    fun hdispatches hticks => ⟨[], hdispatches, by rw [hticks]; split <;> rfl⟩
  cases hchange with
  | serve request queue hidle hcancelled hqueue =>
    refine ⟨[_], congrArg (List.cons _) (dispatches_conduct _ _), ?_⟩
    exact ticksTold_start (t.record (.taken request)) _ _ rfl
  | next service state work hservice hcompleted hwork hcancelled =>
    refine ⟨[_], congrArg (List.cons _) (dispatches_conduct _ _), ?_⟩
    exact ticksTold_start (t.record (.returned (t.round service (.ok ())))) _ none rfl
  | overflow source hopen hfull =>
    exact hquiet (dispatches_conduct _ _) (ticksTold_conduct _ (by simp [Core.overflowEvent]))
  | finish service result final hservice hfinal =>
    refine hquiet (dispatches_conduct _ _) (ticksTold_conduct _ fun event hmem => ?_)
    have hkind := kind_of_told ((List.mem_append.mp hmem).resolve_right (by simp))
    rcases hkind with h | h <;> simp [h]
  | leave hidle =>
    exact hquiet (dispatches_conduct _ _)
      (ticksTold_conduct _ (by simp [Actor.leave, Core.stoppedEvent]))
  | collapse service hservice =>
    exact hquiet (dispatches_conduct _ _)
      (ticksTold_conduct _ (by simp [Actor.collapse, hservice]))
  | _ =>
    exact hquiet (by first | rfl | exact dispatches_conduct _ _)
      (by first | rfl | exact ticksTold_conduct _ (by simp))

/-- A machine that rests stays where it is until a request is taken. -/
theorem resting_change (hchange : t.Change t') (h : t.actor.service = none) :
    t'.actor.core.current = t.actor.core.current ∧
      (t'.actor.service = none ∨ t'.takings ≠ t.takings) := by
  have hbusy : ∀ {service : Service}, t.actor.service ≠ some service := by
    rw [h]
    exact nofun
  cases hchange with
  | serve request queue hidle hcancelled hqueue =>
    exact ⟨rfl, .inr fun hsame =>
      List.cons_ne_self _ _ ((takings_conduct (t := t.record (.taken request)) _ _).symm.trans
        hsame)⟩
  | deed service hservice deed => exact absurd hservice hbusy
  | finish service result final hservice hfinal => exact absurd hservice hbusy
  | next service state work hservice hcompleted hwork hcancelled => exact absurd hservice hbusy
  | collapse service hservice => exact absurd hservice hbusy
  | cut request queue hidle hqueue => exact ⟨rfl, .inl rfl⟩
  | _ => exact ⟨rfl, .inl h⟩

/-! ## 3. Before the first request -/

/-- No request was taken, and the machine is as it was when it started. -/
def Untouched (initial : String) (t : Traffic) : Prop :=
  t.takings = [] → t.actor.core.previous = none ∧ t.actor.seen.previous = none ∧
    t.actor.core.current = initial ∧ t.actor.service = none

theorem untouched_change {initial : String} (untouched : t.Untouched initial)
    (hchange : t.Change t') : t'.Untouched initial := by
  intro hnone
  rcases previous_change hchange with ⟨htakings, hprevious⟩ | ⟨request, htakings, -⟩
  · obtain ⟨hno, hseen, hcurrent, hservice⟩ := untouched (htakings.symm.trans hnone)
    have hrests := resting_change hchange hservice
    rcases seen_change hchange with ⟨-, hsame⟩ | ⟨hbusy, -⟩
    · exact ⟨hprevious.trans hno, hsame ▸ hseen, hrests.1.trans hcurrent,
        hrests.2.resolve_right (not_not_intro htakings)⟩
    · exact absurd hservice hbusy
  · cases hnone.symm.trans htakings

/-! ## 4. While a request is served -/

/-- The request that was taken last was taken when the machine stood at `t`. -/
structure Serves (t u : Traffic) : Prop where
  hosted : u.hosted = t.hosted
  name : u.actor.core.name = t.actor.core.name
  previous : u.actor.core.previous = some t.actor.core.current
  told : ∃ started, u.dispatches = started ++ t.dispatches ∧
    u.ticksTold = (if t.hosted then
      started.map (Tick.event t.actor.core.name (some t.actor.core.current)) else []) ++
        t.ticksTold
  seen : u.rounds ≠ t.rounds → u.actor.seen.previous = some t.actor.core.current

theorem serves_taken (hchange : t.Change t') (h : t'.takings = request :: t.takings) :
    t.Serves t' := by
  rcases previous_change hchange with ⟨htakings, -⟩ | ⟨other, -, hprevious, hidle, -⟩
  · exact absurd (h.symm.trans htakings) (List.cons_ne_self _ _)
  · have hservice : t.actor.service = none := (idle_iff.mp hidle).2
    refine ⟨hosted_change hchange, name_change hchange, hprevious, ?_, fun hrounds => ?_⟩
    · rw [← hprevious]
      exact told_change hchange
    · -- No dispatch came back by this step.
      rcases seen_change hchange with ⟨hsame, -⟩ | ⟨hbusy, -⟩
      · exact absurd hsame hrounds
      · exact absurd hservice hbusy

theorem Serves.change (serves : t.Serves u) {u' : Traffic} (hchange : u.Change u')
    (h : u'.takings = u.takings) : t.Serves u' := by
  have hprevious : u'.actor.core.previous = u.actor.core.previous := by
    rcases previous_change hchange with ⟨-, hprevious⟩ | ⟨other, htakings, -⟩
    · exact hprevious
    · exact absurd (htakings.symm.trans h) (List.cons_ne_self _ _)
  refine ⟨(hosted_change hchange).trans serves.hosted, (name_change hchange).trans serves.name,
    hprevious.trans serves.previous, ?_, fun hrounds => ?_⟩
  · -- What this step starts is told after what was started before it.
    obtain ⟨before, hbefore, hticks⟩ := serves.told
    obtain ⟨started, hstarted, hmore⟩ := told_change hchange
    refine ⟨started ++ before, by rw [hstarted, hbefore, List.append_assoc], ?_⟩
    rw [hmore, hticks, serves.hosted, serves.name, hprevious, serves.previous, ← List.append_assoc]
    split
    · rw [List.map_append]
    · rfl
  · rcases seen_change hchange with ⟨hsame, hseen⟩ | ⟨-, hseen⟩
    · rw [hseen]
      exact serves.seen (hsame ▸ hrounds)
    · rw [hseen]
      exact serves.previous

theorem takings_change (hchange : t.Change t') : t.takings <:+ t'.takings := by
  rcases previous_change hchange with ⟨htakings, -⟩ | ⟨request, htakings, -⟩
  · exact htakings ▸ List.suffix_rfl
  · exact htakings ▸ List.suffix_cons _ _

theorem takings_run (t : Traffic) (moves : List Move) : t.takings <:+ (t.run moves).takings :=
  run_induction (P := fun u => t.takings <:+ u.takings)
    (fun _ _ h hchange => h.trans (takings_change hchange)) List.suffix_rfl moves

/-- If no request was taken in the end, none was taken on the way. -/
theorem takings_between (hlast : t'.takings = t.takings) (hfirst : t.takings <:+ u.takings)
    (hchange : u.Change t') : u.takings = t.takings :=
  (hfirst.eq_of_length_le (hlast ▸ (takings_change hchange).length_le)).symm

theorem Serves.run (serves : t.Serves u) (moves : List Move)
    (h : (u.run moves).takings = u.takings) : t.Serves (u.run moves) := by
  have hserves : u.takings <:+ (u.run moves).takings ∧
      ((u.run moves).takings = u.takings → t.Serves (u.run moves)) := by
    apply run_induction
      (P := fun v => u.takings <:+ v.takings ∧ (v.takings = u.takings → t.Serves v))
    · rintro v v' ⟨hsuffix, hserves⟩ hchange
      refine ⟨hsuffix.trans (takings_change hchange), fun hlast => ?_⟩
      have hsame := takings_between hlast hsuffix hchange
      exact (hserves hsame).change hchange (hlast.trans hsame.symm)
    · exact ⟨List.suffix_rfl, fun _ => serves⟩
  exact hserves.2 h

/-! ## 5. The state in which the last dispatch left the machine -/

/-- The last dispatch in a run left the machine in the state in which it still is. -/
def LeftByLast (t : Traffic) (moves : List Move) : Prop :=
  ∃ during result after service, moves = during ++ .settle result :: after ∧
    (t.run during).actor.service = some service ∧
    (t.run moves).rounds = ((t.run during).step (.settle result)).rounds ∧
    (t.run moves).actor.core.current = (t.run during).actor.core.current

/-- A dispatch leaves its machine where it is when it comes back, unless its refresh goes on with
another state, or would if the machine were not cancelled. -/
theorem current_settle (h : t.actor.service = some service) (result : Except Failure Unit) :
    (t.step (.settle result)).actor.service ≠ none ∨ (t.step (.settle result)).cancelled = true ∨
      (t.step (.settle result)).actor.core.current = t.actor.core.current := by
  simp only [step, h, settle, cancelled_follow, actor_follow, Actor.settle]
  cases result with
  | error failure => exact .inr (.inr rfl)
  | ok value =>
    cases hcompleted : t.actor.core.completed with
    | true =>
      rw [Chain.settle_completed _ _ hcompleted]
      exact .inr (.inr rfl)
    | false =>
      cases hwork : t.actor.core.pending ++ service.chain.work with
      | nil =>
        rw [Chain.settle_last _ hcompleted hwork]
        exact .inr (.inr rfl)
      | cons state work =>
        rw [Chain.settle_next _ hcompleted hwork]
        cases hcancelled : t.cancelled with
        | true => exact .inr (.inl (by simp [record, hcancelled]))
        | false => exact .inl (Option.some_ne_none _)

/-- A run that takes no request: a dispatch runs, or the last one left the machine where it is, or
the machine takes no request any more. -/
theorem left_run (hbegun : t.actor.service ≠ none ∨ t.cancelled = true) (moves : List Move)
    (h : (t.run moves).takings = t.takings) :
    (t.run moves).actor.service ≠ none ∨ (t.run moves).cancelled = true ∨
      (t.run moves).actor.ended = true ∨ t.LeftByLast moves := by
  -- By induction on the moves, from the last one on: a dispatch that comes back is the last one
  -- until another starts, and none starts without a request.
  induction moves using List.reverseRecOn with
  | nil => exact hbegun.imp_right .inl
  | append_singleton moves move ih =>
    have hrun : t.run (moves ++ [move]) = (t.run moves).step move := List.foldl_concat ..
    have hchange := change_step (t.run moves) move
    rw [hrun] at h ⊢
    have hsame := takings_between h (takings_run t moves) hchange
    cases hservice : (t.run moves).actor.service with
    | some service =>
      -- The running dispatch goes on, comes back or panics.
      by_cases hmove : move.returns = false
      · exact .inl (by rw [(step_running hservice hmove).1]; exact nofun)
      · cases move with
        | settle result =>
          rcases current_settle hservice result with hnext | hcancelled | hcurrent
          · exact .inl hnext
          · exact .inr (.inl hcancelled)
          · refine .inr (.inr (.inr ⟨moves, result, [], service, rfl, hservice, ?_, ?_⟩))
            · rw [hrun]
            · rw [hrun, hcurrent]
        | panic => exact .inr (.inr (.inl (by simp only [step, hservice]; rfl)))
        | _ => exact absurd rfl hmove
    | none =>
      rcases ih hsame with hbusy | hcancelled | hended | hleft
      · exact absurd hservice hbusy
      · exact .inr (.inl (cancelled_change hchange hcancelled))
      · exact .inr (.inr (.inl (ended_change hchange hended)))
      · obtain ⟨during, result, after, service, hmoves, hrunning, hrounds, hcurrent⟩ := hleft
        refine .inr (.inr (.inr ⟨during, result, after ++ [move], service, ?_, hrunning, ?_, ?_⟩))
        · rw [hmoves, List.append_assoc, List.cons_append]
        · rw [hrun, ← hrounds]
          rcases seen_change hchange with ⟨hkept, -⟩ | ⟨hbusy, -⟩
          · exact hkept
          · exact absurd hservice hbusy
        · rw [hrun, ← hcurrent]
          exact (resting_change hchange hservice).1

/-! ## 6. A cancelled machine takes no request -/

theorem takings_follow (acted : Actor × List Effect × Doing) :
    (t.follow acted).takings = t.takings := by
  unfold follow noteDispatch
  split
  · split <;> exact takings_conduct _ _
  · exact takings_conduct _ _

theorem takings_send (c : Nat) (source : String) : (t.send c source).takings = t.takings := by
  unfold send
  obtain ⟨actor, effects, posting⟩ := t.actor.request c { source, reply := some c }
  cases posting <;> exact takings_conduct _ _

theorem takings_poll (c : Nat) : (t.poll c).takings = t.takings := by
  unfold poll
  split
  · exact takings_send _ _
  all_goals rfl

theorem takings_drop (c : Nat) : (t.drop c).takings = t.takings := by
  unfold drop
  split
  · exact takings_conduct _ _
  all_goals rfl

theorem takings_cancelled (h : t.cancelled = true) (move : Move) :
    (t.step move).takings = t.takings := by
  cases move with
  | notify notice => exact takings_conduct _ _
  | call c source =>
    simp only [step]
    split
    · exact takings_send _ _
    · rfl
  | poll c => exact takings_poll c
  | drop c => exact takings_drop c
  | cancel => rfl
  | turn orphaned =>
    -- It leaves, with whatever the mailbox still holds.
    simp only [step, turn, Actor.turn, h, if_true]
    split
    · exact takings_follow _
    · rfl
  | overtake =>
    simp only [step, h, Bool.not_true, Bool.and_false, Bool.false_eq_true, if_false]
  | deed deed =>
    simp only [step]
    split <;> rfl
  | settle result =>
    simp only [step]
    split
    · rfl
    · exact takings_follow _
  | panic =>
    simp only [step]
    split
    · rfl
    · exact takings_conduct _ _

end Traffic

/-- Whatever is asked of a machine, and whatever its logic does, a request that is taken finds the
machine in some state, and that state is the previous one until the next request is taken: for the
logic in every dispatch, in the event of every dispatch that starts, and in what others see of the
machine once a dispatch came back.  Before the first request there is no previous state, and the
first one finds the initial state; every other one finds the state in which the last dispatch of the
request before it left the machine. -/
theorem previous_state_of_refresh (config : Config) (name initial : String) (hosted : Bool)
    (moves : List Traffic.Move) :
    let t := (Traffic.start config name initial hosted).run moves
    (t.takings = [] → t.actor.core.previous = none ∧ t.actor.seen.previous = none ∧
      t.actor.core.current = initial) ∧
    ∀ move request, (t.step move).takings = request :: t.takings → ∀ later,
      let u := (t.step move).run later
      u.takings = request :: t.takings →
      u.actor.core.previous = some t.actor.core.current ∧
      (∃ started, u.dispatches = started ++ t.dispatches ∧
        u.ticksTold = (if hosted then
          started.map (Tick.event name (some t.actor.core.current)) else []) ++ t.ticksTold) ∧
      (u.rounds ≠ t.rounds → u.actor.seen.previous = some t.actor.core.current) ∧
      ∀ next other, (u.step next).takings = other :: u.takings →
        ∃ during result after service, later = during ++ .settle result :: after ∧
          ((t.step move).run during).actor.service = some service ∧
          u.rounds = (((t.step move).run during).step (.settle result)).rounds ∧
          u.actor.core.current = ((t.step move).run during).actor.core.current := by
  intro t
  have untouched : t.Untouched initial :=
    Traffic.run_induction (fun _ _ => Traffic.untouched_change)
      (fun _ => ⟨rfl, rfl, rfl, rfl⟩) moves
  have hhosted : t.hosted = hosted := Traffic.hosted_run _ moves
  have hname : t.actor.core.name = name := Traffic.name_run _ moves
  refine ⟨fun hnone => ?_, fun move request htaken later => ?_⟩
  · obtain ⟨hprevious, hseen, hcurrent, -⟩ := untouched hnone
    exact ⟨hprevious, hseen, hcurrent⟩
  · intro u hlater
    have hchange := Traffic.change_step t move
    have serves : t.Serves u :=
      (Traffic.serves_taken hchange htaken).run later (hlater.trans htaken.symm)
    have told := serves.told
    rw [hhosted, hname] at told
    refine ⟨serves.previous, told, serves.seen, fun next other hother => ?_⟩
    have hbegun : (t.step move).actor.service ≠ none ∨ (t.step move).cancelled = true := by
      rcases Traffic.previous_change hchange with ⟨hsame, -⟩ | ⟨other, -, -, -, hbegun⟩
      · exact absurd (htaken.symm.trans hsame) (List.cons_ne_self _ _)
      · exact hbegun
    -- The machine is idle and not cancelled, as it takes another request.
    have hidle : u.idle = true := by
      rcases Traffic.previous_change (Traffic.change_step u next) with ⟨hsame, -⟩ |
        ⟨_, -, -, hidle, -⟩
      · exact absurd (hother.symm.trans hsame) (List.cons_ne_self _ _)
      · exact hidle
    obtain ⟨hgoes, hrests⟩ := Traffic.idle_iff.mp hidle
    rcases Traffic.left_run hbegun later (hlater.trans htaken.symm) with
      hbusy | hcancelled | hended | hleft
    · exact absurd hrests hbusy
    · exact absurd (hother.symm.trans (Traffic.takings_cancelled hcancelled next))
        (List.cons_ne_self _ _)
    · cases hgoes.symm.trans hended
    · exact hleft

/-- A refresh that moves the machine twice and fails in its second dispatch, and the refresh that
follows it. -/
theorem previous_state_of_refresh_chain :
    let t := (Traffic.start {} "m" "A" true).run
      [.call 0 "first", .turn false, .deed (.become "B"), .deed .closeTransition, .settle (.ok ()),
        .deed (.become "C"), .settle (.error (.failed "stuck")), .call 1 "second"]
    let u := (t.step (.turn false)).run
      [.deed (.become "D"), .deed .closeTransition, .settle (.ok ())]
    u.actor.core.current = "D" ∧ u.actor.core.previous = some "C" ∧
      u.actor.seen.previous = some "C" := by
  intro t u
  obtain ⟨hprevious, -, hseen, -⟩ := (previous_state_of_refresh {} "m" "A" true
    [.call 0 "first", .turn false, .deed (.become "B"), .deed .closeTransition, .settle (.ok ()),
      .deed (.become "C"), .settle (.error (.failed "stuck")), .call 1 "second"]).2
    (.turn false) { source := "second", reply := some 1 } rfl
    [.deed (.become "D"), .deed .closeTransition, .settle (.ok ())] rfl
  exact ⟨rfl, hprevious, hseen (List.cons_ne_self _ _)⟩

end Sequencer
