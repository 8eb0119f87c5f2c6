import Sequencer.Proofs.Machine.Serving

/-!
# Closing — a machine that was cancelled, or that its logic completed

A dispatch starts where the actor looks at the cancellation of its machine for the last time before
it.  From the moment at which the machine is cancelled no dispatch starts any more: the running one
goes on to its return, and whatever was queued behind it or lies in the mailbox is never dispatched.
A dispatch that completes the machine cancels it by its return, so that it is the last one, and its
completion is told if it did not fail.
-/

namespace Sequencer

/-! ## 1. What the log counts -/

namespace Occurrence

def tick? : Occurrence → Option Tick
  | dispatched tick => some tick
  | _ => none

def round? : Occurrence → Option Round
  | returned round => some round
  | _ => none

def completion? : Occurrence → Option Event
  | published event => if event.kind = .machineCompleted then some event else none
  | _ => none

end Occurrence

/-- Whether the dispatch completed the machine and did not fail. -/
def Round.completes (round : Round) : Bool := round.completed && round.result.isOk

theorem Round.completes_iff (round : Round) :
    round.completes = true ↔ round.completed = true ∧ round.result = .ok () := by
  unfold Round.completes
  cases round.result <;> simp [Except.isOk, Except.toBool]

/-- Whether it ends the running dispatch. -/
def Traffic.Move.returns : Move → Bool
  | settle _ => true
  | panic => true
  | _ => false

namespace Traffic

variable {t t' : Traffic} {actor : Actor} {effects : List Effect} {service : Service}

/-- The dispatches that started, the latest first. -/
def dispatches (t : Traffic) : List Tick := t.log.filterMap Occurrence.tick?

/-- The dispatches that came back, the latest first. -/
def rounds (t : Traffic) : List Round := t.log.filterMap Occurrence.round?

/-- The completions that were told, the latest first. -/
def completions (t : Traffic) : List Event := t.log.filterMap Occurrence.completion?

theorem filterMap_conduct {α : Type} {f : Occurrence → Option α}
    (h : ∀ effect ∈ effects, ∀ o, effect.entry t.hosted actor.mailbox.queue = some o →
      f o = none) :
    (t.conduct actor effects).log.filterMap f = t.log.filterMap f := by
  have hnone : ((effects.filterMap (Effect.entry t.hosted actor.mailbox.queue)).reverse).filterMap
      f = [] := by
    apply List.filterMap_eq_nil_iff.mpr
    intro o ho
    have hsome := List.mem_filterMap.mp (List.mem_reverse.mp ho)
    exact hsome.elim fun effect heffect => h effect heffect.1 o heffect.2
  show (_ ++ t.log).filterMap f = t.log.filterMap f
  rw [List.filterMap_append, hnone, List.nil_append]

@[simp] theorem dispatches_conduct (actor : Actor) (effects : List Effect) :
    (t.conduct actor effects).dispatches = t.dispatches := by
  apply filterMap_conduct
  intro effect _ o ho
  rcases entry_cases ho with ⟨event, rfl⟩ | ⟨-, request, rfl⟩ <;> rfl

@[simp] theorem dispatches_dispatched (tick : Tick) :
    (t.record (.dispatched tick)).dispatches = tick :: t.dispatches := rfl

@[simp] theorem rounds_conduct (actor : Actor) (effects : List Effect) :
    (t.conduct actor effects).rounds = t.rounds := by
  apply filterMap_conduct
  intro effect _ o ho
  rcases entry_cases ho with ⟨event, rfl⟩ | ⟨-, request, rfl⟩ <;> rfl

/-- What the log keeps of events does not change if none of the effects tells one of those. -/
theorem filterMap_untold {α : Type} {f : Occurrence → Option α} (actor : Actor)
    (hentered : ∀ request, f (.entered request) = none)
    (h : ∀ event, Effect.publish event ∈ effects → f (.published event) = none) :
    (t.conduct actor effects).log.filterMap f = t.log.filterMap f := by
  apply filterMap_conduct
  intro effect hmem o ho
  cases effect with
  | publish event =>
    simp only [Effect.entry] at ho
    split at ho
    · cases ho
      exact h event hmem
    · cases ho
  | deliver =>
    have hsome := Option.map_eq_some_iff.mp ho
    exact hsome.elim fun request hrequest => hrequest.2 ▸ hentered request
  | answer reply result => cases ho
  | forget reply => cases ho
  | cancel => cases ho
  | reserve sender => cases ho
  | refuse sender => cases ho

theorem completions_conduct (actor : Actor)
    (h : ∀ event, Effect.publish event ∈ effects → event.kind ≠ .machineCompleted) :
    (t.conduct actor effects).completions = t.completions :=
  filterMap_untold actor (fun _ => rfl) fun event hmem => if_neg (h event hmem)

/-! ## 2. A dispatch that comes back -/

/-- A dispatch that neither fails nor completes the machine tells nothing by its return. -/
theorem told_uncompleted (service : Service) (h : t.actor.core.completed = false) :
    (t.aftermath service (.ok ())).told = [] := by
  unfold aftermath
  cases hwork : t.actor.core.pending ++ service.chain.work with
  | nil =>
    rw [Chain.settle_last service.state h hwork]
    rfl
  | cons state work =>
    rw [Chain.settle_next service.state h hwork]
    rfl

theorem told_completed (service : Service) (h : t.actor.core.completed = true) :
    (t.aftermath service (.ok ())).told = [.publish t.actor.core.completedEvent, .cancel] := by
  unfold aftermath
  rw [Chain.settle_completed service.chain service.state h]
  rfl

theorem told_failed (service : Service) (failure : Failure) :
    (t.aftermath service (.error failure)).told =
      .publish (t.actor.core.failedEvent service.state failure) ::
        if t.actor.core.completed then [.cancel] else [] := rfl

theorem cancels_told (service : Service) (result : Except Failure Unit) :
    (t.aftermath service result).told.any Effect.cancels = t.actor.core.completed := by
  cases result with
  | error failure =>
    rw [told_failed]
    cases t.actor.core.completed <;> rfl
  | ok value =>
    cases h : t.actor.core.completed with
    | true => rw [told_completed service h]; rfl
    | false => rw [told_uncompleted service h]; rfl

theorem cancels_finish (service : Service) (result final : Except Failure Unit) :
    ((t.aftermath service result).told ++
      (service.reply.map (Effect.answer · final)).toList).any Effect.cancels =
        t.actor.core.completed := by
  rw [List.any_append, cancels_told]
  cases service.reply <;> simp [Effect.cancels]

theorem ticks_aftermath (service : Service) (result : Except Failure Unit) :
    (t.aftermath service result).core.ticks = t.actor.core.ticks := by
  obtain ⟨pending, current, h⟩ :=
    Chain.core_settle t.actor.core service.chain service.state result
  rw [aftermath, h]

theorem completed_aftermath (service : Service) (result : Except Failure Unit) :
    (t.aftermath service result).core.completed = t.actor.core.completed := by
  obtain ⟨pending, current, h⟩ :=
    Chain.core_settle t.actor.core service.chain service.state result
  rw [aftermath, h]

theorem core_aftermath {result : Except Failure Unit}
    (h : (t.round service result).completes = true) :
    (t.aftermath service result).core = t.actor.core := by
  have hcompleted := (t.round service result).completes_iff.mp h
  have hresult : result = .ok () := hcompleted.2
  rw [aftermath, hresult, Chain.settle_completed _ _ hcompleted.1]

/-- The completion of a machine is told by a dispatch that comes back without a failure. -/
theorem completions_finish (actor : Actor) (service : Service)
    (result final : Except Failure Unit) :
    (t.conduct actor ((t.aftermath service result).told ++
      (service.reply.map (Effect.answer · final)).toList)).completions =
      (if t.hosted && (t.round service result).completes then [t.actor.core.completedEvent]
        else []) ++ t.completions := by
  by_cases hcompletes : t.actor.core.completed = true ∧ result = .ok ()
  · have hround := (t.round service result).completes_iff.mpr hcompletes
    rw [hround, Bool.and_true, hcompletes.2, told_completed service hcompletes.1]
    simp only [completions, conduct]
    cases t.hosted <;> cases service.reply <;>
      simp [Effect.entry, Occurrence.completion?, Core.completedEvent]
  · have hround : (t.round service result).completes = false :=
      Bool.eq_false_iff.mpr fun h => hcompletes ((t.round service result).completes_iff.mp h)
    rw [hround, Bool.and_false, if_neg Bool.false_ne_true, List.nil_append]
    apply completions_conduct
    intro event hmem
    replace hmem := (List.mem_append.mp hmem).resolve_right (by simp)
    cases result with
    | error failure =>
      rw [told_failed] at hmem
      cases List.mem_cons.mp hmem with
      | inl h => cases h; exact fun h => by cases h
      | inr h => split at h <;> simp at h
    | ok value =>
      have huncompleted : t.actor.core.completed = false := by
        cases h : t.actor.core.completed with
        | true => exact absurd ⟨h, rfl⟩ hcompletes
        | false => rfl
      rw [told_uncompleted service huncompleted] at hmem
      cases hmem

/-! ## 3. What a run keeps -/

/-- The log agrees with what the core counts.  A dispatch that completed the machine was the last
one. -/
structure Tally (t : Traffic) : Prop where
  ticks : t.actor.core.ticks = t.dispatches.length
  seen : t.actor.seen.ticks ≤ t.actor.core.ticks
  fresh : t.idle = true → t.cancelled = false → t.actor.core.completed = false
  last : ∀ round ∈ t.rounds, round.completed = true →
    t.cancelled = true ∧ t.actor.service = none
  once : (t.rounds.filter Round.completes).length ≤ 1
  told : t.completions = if t.hosted then
    (t.rounds.filter Round.completes).map fun _ => t.actor.core.completedEvent else []

theorem tally_start (config : Config) (name initial : String) (hosted : Bool) :
    (start config name initial hosted).Tally where
  ticks := rfl
  seen := Nat.le_refl _
  fresh _ _ := rfl
  last _ h := by cases h
  once := Nat.zero_le _
  told := by cases hosted <;> rfl

theorem completes_eq_nil {rounds : List Round} (h : ∀ round ∈ rounds, round.completed = false) :
    rounds.filter Round.completes = [] := by
  apply List.filter_eq_nil_iff.mpr
  intro round hmem
  simp [Round.completes, h round hmem]

/-- As long as a dispatch runs, and as long as the machine is not cancelled, none completed it. -/
theorem Tally.uncompleted (tally : t.Tally)
    (h : t.cancelled = false ∨ t.actor.service ≠ none) :
    ∀ round ∈ t.rounds, round.completed = false := by
  intro round hmem
  cases hcompleted : round.completed with
  | false => rfl
  | true =>
    have hover := tally.last round hmem hcompleted
    cases h with
    | inl h => cases hover.1.symm.trans h
    | inr h => exact absurd hover.2 h

theorem Tally.untold (tally : t.Tally) (h : ∀ round ∈ t.rounds, round.completed = false) :
    t.completions = [] := by
  rw [tally.told, completes_eq_nil h]
  split <;> rfl

theorem cancelled_change (hchange : t.Change t') (h : t.cancelled = true) :
    t'.cancelled = true := by
  cases hchange <;> simp [conduct, place, hear, record, h]

/-- A step beside the dispatches keeps the tally. -/
theorem Tally.keep (tally : t.Tally) (hchange : t.Change t')
    (hdispatches : t'.dispatches = t.dispatches) (hrounds : t'.rounds = t.rounds)
    (hcompletions : t'.completions = t.completions)
    (hticks : t'.actor.core.ticks = t.actor.core.ticks) (hseen : t'.actor.seen = t.actor.seen)
    (hevent : t.actor.service = none →
      t'.actor.core.completedEvent = t.actor.core.completedEvent)
    (hservice : t.actor.service = none → t'.actor.service = none)
    (hfresh : t'.idle = true → t'.cancelled = false → t'.actor.core.completed = false) :
    t'.Tally where
  ticks := by rw [hticks, hdispatches, tally.ticks]
  seen := by rw [hseen, hticks]; exact tally.seen
  fresh := hfresh
  last := by
    rw [hrounds]
    intro round hmem hcompleted
    have hover := tally.last round hmem hcompleted
    exact ⟨cancelled_change hchange hover.1, hservice hover.2⟩
  once := by rw [hrounds]; exact tally.once
  told := by
    rw [hrounds, hosted_change hchange, hcompletions]
    cases hsome : t.actor.service with
    | none => rw [hevent hsome]; exact tally.told
    | some service =>
      have hnone := tally.uncompleted (.inr (by rw [hsome]; exact Option.some_ne_none _))
      rw [tally.untold hnone, completes_eq_nil hnone]
      split <;> rfl

/-- So does one that does not touch the core. -/
theorem Tally.aside (tally : t.Tally) (hchange : t.Change t')
    (hdispatches : t'.dispatches = t.dispatches) (hrounds : t'.rounds = t.rounds)
    (hcompletions : t'.completions = t.completions) (hcore : t'.actor.core = t.actor.core)
    (hseen : t'.actor.seen = t.actor.seen)
    (hservice : t.actor.service = none → t'.actor.service = none)
    (hidle : t'.idle = true → t.idle = true) : t'.Tally := by
  apply tally.keep hchange hdispatches hrounds hcompletions (by rw [hcore]) hseen
    (fun _ => by rw [hcore]) hservice
  intro h hgoes
  rw [hcore]
  apply tally.fresh (hidle h)
  cases hcancelled : t.cancelled with
  | false => rfl
  | true => cases hgoes.symm.trans (cancelled_change hchange hcancelled)

/-- A dispatch starts, and no dispatch completed the machine before it. -/
theorem Tally.dispatch (tally : t.Tally) (latest : List Round) {tick : Tick}
    (hbefore : ∀ round ∈ t.rounds, round.completed = false)
    (hlatest : ∀ round ∈ latest, round.completed = false)
    (hdispatches : t'.dispatches = tick :: t.dispatches)
    (hrounds : t'.rounds = latest ++ t.rounds) (hcompletions : t'.completions = t.completions)
    (hticks : t'.actor.core.ticks = t.actor.core.ticks + 1)
    (hseen : t'.actor.seen.ticks ≤ t.actor.core.ticks)
    (hservice : t'.actor.service = some service) : t'.Tally := by
  have hnone : ∀ round ∈ t'.rounds, round.completed = false := by
    intro round hmem
    rw [hrounds] at hmem
    exact (List.mem_append.mp hmem).elim (hlatest round) (hbefore round)
  constructor
  · rw [hticks, hdispatches, List.length_cons, tally.ticks]
  · omega
  · intro hidle
    simp [idle, hservice] at hidle
  · intro round hmem hcompleted
    cases hcompleted.symm.trans (hnone round hmem)
  · rw [completes_eq_nil hnone]
    exact Nat.zero_le _
  · rw [completes_eq_nil hnone, hcompletions, tally.untold hbefore]
    split <;> rfl

theorem tally_finish (tally : t.Tally) {result final : Except Failure Unit}
    (hservice : t.actor.service = some service) :
    ((t.record (.returned (t.round service result))).conduct
      { t.actor with
        core := (t.aftermath service result).core, service := none
        seen := t.actor.core.snapshot, version := t.actor.version + 1 }
      ((t.aftermath service result).told ++
        (service.reply.map (Effect.answer · final)).toList)).Tally := by
  have hnone := tally.uncompleted (.inr (by rw [hservice]; exact Option.some_ne_none _))
  have hrounds : ∀ actor effects, ((t.record (.returned (t.round service result))).conduct actor
      effects).rounds = t.round service result :: t.rounds := fun _ _ => rounds_conduct _ _
  have hcancels := cancels_finish (t := t) service result final
  constructor
  · rw [dispatches_conduct]
    exact (ticks_aftermath service result).trans tally.ticks
  · exact Nat.le_of_eq (ticks_aftermath service result).symm
  · -- It would have cancelled the machine if it had completed it.
    intro _ hgoes
    have hfalse : (t.cancelled || t.actor.core.completed) = false := hcancels ▸ hgoes
    exact (completed_aftermath service result).trans (Bool.or_eq_false_iff.mp hfalse).2
  · intro round hmem hcompleted
    rw [hrounds] at hmem
    cases hmem with
    | head =>
      have htrue : t.actor.core.completed = true := hcompleted
      refine ⟨?_, rfl⟩
      show (t.cancelled || _) = true
      rw [hcancels, htrue, Bool.or_true]
    | tail _ hmem => cases hcompleted.symm.trans (hnone round hmem)
  · rw [hrounds, List.filter_cons, completes_eq_nil hnone]
    split <;> simp
  · have htold := completions_finish (t := t.record (.returned (t.round service result)))
      { t.actor with
        core := (t.aftermath service result).core, service := none
        seen := t.actor.core.snapshot, version := t.actor.version + 1 } service result final
    have hbefore : (t.record (.returned (t.round service result))).completions = [] :=
      tally.untold hnone
    rw [hbefore, List.append_nil] at htold
    rw [hrounds, List.filter_cons, completes_eq_nil hnone]
    apply htold.trans
    show (if t.hosted && (t.round service result).completes then _ else _) =
      if t.hosted then _ else _
    cases t.hosted with
    | false => rfl
    | true =>
      by_cases hcompletes : (t.round service result).completes = true
      · simp only [hcompletes]
        show _ = [(t.aftermath service result).core.completedEvent]
        rw [core_aftermath hcompletes]
        rfl
      · simp only [hcompletes]
        rfl

theorem tally_change (tally : t.Tally) (hchange : t.Change t') : t'.Tally := by
  have keep := tally.keep hchange
  have aside := tally.aside hchange
  -- Only `serve`, `finish` and `next` start or end a dispatch; the others happen beside it.
  cases hchange with
  | nothing => exact tally
  | cancel => exact aside rfl rfl rfl rfl rfl id id
  | overflow source hopen hfull =>
    exact aside (dispatches_conduct _ _) (rounds_conduct _ _)
      (completions_conduct _ (by simp [Core.overflowEvent])) rfl rfl id id
  | post source hopen hroom =>
    exact aside (dispatches_conduct _ _) (rounds_conduct _ _) (completions_conduct _ (by simp))
      rfl rfl id id
  | enter c source mailbox hphase hsend =>
    exact aside (dispatches_conduct _ _) (rounds_conduct _ _) (completions_conduct _ (by simp))
      rfl rfl id id
  | wait c source mailbox hphase hsend =>
    exact aside (dispatches_conduct _ _) (rounds_conduct _ _) (completions_conduct _ (by simp))
      rfl rfl id id
  | refuse c source mailbox hphase hsend =>
    exact aside (dispatches_conduct _ _) (rounds_conduct _ _) (completions_conduct _ (by simp))
      rfl rfl id id
  | look c hphase hreply => exact aside rfl rfl rfl rfl rfl id id
  | hear c result hphase hreply => exact aside rfl rfl rfl rfl rfl id id
  | giveUp c source hphase =>
    exact aside (dispatches_conduct _ _) (rounds_conduct _ _) (completions_conduct _ (by simp))
      rfl rfl id id
  | forgo c hphase => exact aside rfl rfl rfl rfl rfl id id
  | serve request queue hidle hcancelled hqueue =>
    exact tally.dispatch [] (tally.uncompleted (.inl hcancelled))
      (fun _ hmem => absurd hmem List.not_mem_nil)
      (congrArg (List.cons _) (dispatches_conduct _ _)) (rounds_conduct _ _)
      (completions_conduct _ (by simp [Core.tickEvent])) rfl tally.seen rfl
  | cut request queue hidle hqueue =>
    exact keep (dispatches_conduct _ _) (rounds_conduct _ _)
      (completions_conduct _ (by simp)) rfl rfl (fun _ => rfl) (fun _ => rfl)
      fun _ h => absurd h.symm Bool.false_ne_true
  | deed service hservice deed =>
    have hsome : t.actor.service ≠ none := by rw [hservice]; exact Option.some_ne_none _
    exact keep rfl rfl rfl (by cases deed <;> rfl) rfl (fun h => absurd h hsome)
      (fun h => absurd h hsome) fun h => by simp [idle, hservice] at h
  | finish service result final hservice hfinal => exact tally_finish tally hservice
  | next service state work hservice hcompleted hwork hcancelled =>
    exact tally.dispatch [t.round service (.ok ())] (tally.uncompleted (.inl hcancelled))
      (fun round hmem => List.mem_singleton.mp hmem ▸ hcompleted)
      (congrArg (List.cons _) (dispatches_conduct _ _)) (rounds_conduct _ _)
      (completions_conduct _ (by simp [Core.tickEvent])) rfl (Nat.le_refl _) rfl
  | leave hidle =>
    exact aside (dispatches_conduct _ _) (rounds_conduct _ _)
      (completions_conduct _ (by simp [Actor.leave, Core.stoppedEvent])) rfl rfl id
      fun h => by cases h
  | collapse service hservice =>
    exact aside (dispatches_conduct _ _) (rounds_conduct _ _)
      (completions_conduct _ (by simp [Actor.collapse, hservice])) rfl rfl
      (fun _ => rfl) fun h => by cases h

theorem tally_run (tally : t.Tally) (moves : List Move) : (t.run moves).Tally :=
  run_induction (P := Tally) (fun _ _ => tally_change) tally moves

/-! ## 4. The running dispatch -/

theorem dispatches_grow (hchange : t.Change t') :
    ∃ started, t'.dispatches = started ++ t.dispatches := by
  cases hchange with
  | serve request queue hidle hcancelled hqueue =>
    exact ⟨[_], congrArg (List.cons _) (dispatches_conduct _ _)⟩
  | next service state work hservice hcompleted hwork hcancelled =>
    exact ⟨[_], congrArg (List.cons _) (dispatches_conduct _ _)⟩
  | _ => first | exact ⟨[], rfl⟩ | exact ⟨[], dispatches_conduct _ _⟩

/-- A dispatch starts on a machine that is not completed. -/
theorem started_change (tally : t.Tally) (hchange : t.Change t')
    (h : t'.dispatches ≠ t.dispatches) :
    ∃ service, t'.actor.service = some service ∧ t'.actor.core.completed = false := by
  cases hchange with
  | serve request queue hidle hcancelled hqueue => exact ⟨_, rfl, tally.fresh hidle hcancelled⟩
  | next service state work hservice hcompleted hwork hcancelled => exact ⟨_, rfl, hcompleted⟩
  | _ => first | exact absurd rfl h | exact absurd (dispatches_conduct _ _) h

theorem actor_notify (source : String) :
    ∃ mailbox, (t.notify source).1.actor = { t.actor with mailbox } := by
  unfold notify Actor.notify
  cases t.actor.mailbox.post { source } with
  | mk mailbox posting => cases posting <;> exact ⟨_, rfl⟩

theorem actor_send (c : Nat) (source : String) :
    ∃ mailbox, (t.send c source).actor = { t.actor with mailbox } := by
  unfold send Actor.request
  cases t.actor.mailbox.send c { source, reply := some c } with
  | mk mailbox posting => cases posting <;> exact ⟨_, rfl⟩

/-- Whoever asks something of a machine reaches its mailbox only. -/
theorem actor_poll (c : Nat) : ∃ mailbox, (t.poll c).actor = { t.actor with mailbox } := by
  unfold poll
  split
  · exact actor_send _ _
  all_goals exact ⟨_, rfl⟩

theorem actor_drop (c : Nat) : ∃ mailbox, (t.drop c).actor = { t.actor with mailbox } := by
  unfold drop
  split
  all_goals exact ⟨_, rfl⟩

def Move.perform (core : Core) : Move → Core
  | .deed done => done.perform core
  | _ => core

/-- As long as it does not come back, only its deeds reach the core. -/
theorem step_running {move : Move} (hservice : t.actor.service = some service)
    (hmove : move.returns = false) :
    (t.step move).actor.service = some service ∧
      (t.step move).actor.core = move.perform t.actor.core := by
  have hreach : ∀ {t' : Traffic}, (∃ mailbox, t'.actor = { t.actor with mailbox }) →
      t'.actor.service = some service ∧ t'.actor.core = t.actor.core := by
    intro t' h
    exact h.elim fun mailbox h => by rw [h]; exact ⟨hservice, rfl⟩
  have hbusy : t.idle = false := by simp [idle, hservice]
  cases move with
  | notify notice => exact hreach (actor_notify _)
  | call c source =>
    simp only [step]
    split
    · exact hreach (actor_send _ _)
    · exact ⟨hservice, rfl⟩
  | poll c => exact hreach (actor_poll c)
  | drop c => exact hreach (actor_drop c)
  | cancel => exact ⟨hservice, rfl⟩
  | turn orphaned =>
    simp only [step, hbusy, Bool.false_eq_true, if_false]
    exact ⟨hservice, rfl⟩
  | overtake =>
    simp only [step, hbusy, Bool.false_and, Bool.false_eq_true, if_false]
    exact ⟨hservice, rfl⟩
  | deed deed =>
    simp only [step, hservice]
    exact ⟨trivial, rfl⟩
  | settle result => cases hmove
  | panic => cases hmove

theorem completed_perform (core : Core) (move : Move) :
    (move.perform core).completed = true ↔ core.completed = true ∨ move = .deed .complete := by
  cases move with
  | deed deed => cases deed <;> simp [Move.perform, Deed.perform, Core.become,
      Core.closeTransition, Core.complete]
  | _ => simp [Move.perform]

/-- Whatever happens around it, it goes on, and its machine is completed only by its deeds. -/
theorem run_running {during : List Move} (hservice : t.actor.service = some service)
    (hduring : ∀ move ∈ during, move.returns = false) :
    (t.run during).actor.service = some service ∧
      ((t.run during).actor.core.completed = true ↔
        t.actor.core.completed = true ∨ .deed .complete ∈ during) := by
  induction during generalizing t with
  | nil => exact ⟨hservice, by simp [run]⟩
  | cons move during ih =>
    have hstep := step_running hservice (hduring move List.mem_cons_self)
    have hrest := ih hstep.1 fun m hm => hduring m (List.mem_cons_of_mem _ hm)
    refine ⟨hrest.1, hrest.2.trans ?_⟩
    rw [hstep.2, completed_perform, List.mem_cons, or_assoc, eq_comm (a := move)]

theorem actor_follow (acted : Actor × List Effect × Doing) : (t.follow acted).actor = acted.1 := by
  unfold follow noteDispatch
  split
  · split <;> rfl
  · rfl

theorem rounds_follow (acted : Actor × List Effect × Doing) :
    (t.follow acted).rounds = t.rounds := by
  unfold follow noteDispatch
  split
  · split <;> exact rounds_conduct _ _
  · exact rounds_conduct _ _

/-- It comes back. -/
theorem rounds_settle (hservice : t.actor.service = some service)
    (result : Except Failure Unit) :
    (t.step (.settle result)).rounds = t.round service result :: t.rounds := by
  simp only [step, hservice]
  exact rounds_follow _

theorem cancelled_follow (acted : Actor × List Effect × Doing) :
    (t.follow acted).cancelled = (t.cancelled || acted.2.1.any Effect.cancels) := by
  unfold follow noteDispatch
  split
  · split <;> rfl
  · rfl

/-- It cancels its machine if it completed it, failed or not. -/
theorem cancelled_settle (hservice : t.actor.service = some service)
    (hcompleted : t.actor.core.completed = true) (result : Except Failure Unit) :
    (t.step (.settle result)).cancelled = true := by
  simp only [step, hservice, settle, cancelled_follow, Actor.settle]
  cases result with
  | error failure => simp [Chain.settle, hcompleted, Effect.cancels]
  | ok value =>
    simp [Chain.settle_completed _ _ hcompleted, Effect.cancels]

/-! ## 5. After the cancellation -/

theorem dispatches_change (hcancelled : t.cancelled = true) (hchange : t.Change t') :
    t'.dispatches = t.dispatches := by
  cases hchange with
  | serve request queue hidle hgoes => cases hgoes.symm.trans hcancelled
  | next service state work hservice hcompleted hwork hgoes => cases hgoes.symm.trans hcancelled
  | _ => first | rfl | exact dispatches_conduct _ _

/-- The machine stays cancelled, and no dispatch starts. -/
theorem run_cancelled (hcancelled : t.cancelled = true) (more : List Move) :
    (t.run more).cancelled = true ∧ (t.run more).dispatches = t.dispatches := by
  apply run_induction (P := fun t' => t'.cancelled = true ∧ t'.dispatches = t.dispatches)
  · intro before after h hchange
    exact ⟨cancelled_change hchange h.1, (dispatches_change h.1 hchange).trans h.2⟩
  · exact ⟨hcancelled, rfl⟩

/-- The refresh of the running dispatch ends with it. -/
theorem service_settle (hcancelled : t.cancelled = true) (result : Except Failure Unit) :
    (t.step (.settle result)).actor.service = none := by
  cases hservice : t.actor.service with
  | none => simp only [step, hservice]
  | some service =>
    simp only [step, hservice, settle]
    rw [actor_follow]
    simp only [Actor.settle, hservice, hcancelled, Actor.startDispatch, Chain.start, if_true]
    split <;> rfl

/-- An idle actor leaves, with whatever the mailbox still holds. -/
theorem leave_turn (hcancelled : t.cancelled = true) (hidle : t.idle = true) (orphaned : Bool) :
    (t.step (.turn orphaned)).actor.ended = true ∧
      (t.step (.turn orphaned)).actor.mailbox.queue = [] := by
  simp only [step, hidle, turn, Actor.turn, hcancelled, if_true]
  exact ⟨rfl, rfl⟩

end Traffic

/-- Whatever is asked of a machine in whatever order, it is cancelled by whoever stops it and by the
return of a dispatch that completed it, whether that dispatch failed or not.  Once it is cancelled
no dispatch starts any more, in the refresh that runs or in any other one: the running dispatch goes
on, may come back at any time, and its refresh ends with it; a delay of the logic does not hold it
up; and an idle actor leaves, with whatever the mailbox still holds.  The completion of a machine is
told exactly if a dispatch completed it and did not fail, and told once. -/
theorem no_dispatch_once_cancelled (config : Config) (name initial : String) (hosted : Bool)
    (moves : List Traffic.Move) :
    let t := (Traffic.start config name initial hosted).run moves
    (t.step .cancel).cancelled = true ∧
    (∀ service result, t.actor.service = some service →
      (t.step (.settle result)).rounds = t.round service result :: t.rounds ∧
      (t.actor.core.completed = true → (t.step (.settle result)).cancelled = true)) ∧
    (∀ move during, (t.step move).dispatches ≠ t.dispatches →
      (∀ other ∈ during, other.returns = false) →
      (((t.step move).run during).actor.core.completed = true ↔ .deed .complete ∈ during)) ∧
    (t.cancelled = true →
      (∀ more, (t.run more).cancelled = true ∧ (t.run more).dispatches = t.dispatches ∧
        (t.run more).actor.core.ticks = t.actor.core.ticks ∧
        (t.run more).actor.seen.ticks ≤ t.actor.core.ticks) ∧
      (∀ service during, t.actor.service = some service →
        (∀ move ∈ during, move.returns = false) →
        (t.run during).actor.service = some service ∧
        ∀ result, ((t.run during).step (.settle result)).actor.service = none) ∧
      (∀ elapsed first, Core.delayed t.cancelled elapsed first ≠ .waiting) ∧
      ∀ orphaned, t.idle = true → (t.step (.turn orphaned)).actor.ended = true ∧
        (t.step (.turn orphaned)).actor.mailbox.queue = []) ∧
    t.actor.core.ticks = t.dispatches.length ∧
    t.completions.length ≤ 1 ∧
    (t.completions ≠ [] ↔
      hosted = true ∧ ∃ round ∈ t.rounds, round.completed = true ∧ round.result = .ok ()) ∧
    ∀ event ∈ t.completions, event =
      { kind := .machineCompleted, name := some name, state := some t.actor.core.current } := by
  intro t
  have tally : t.Tally := Traffic.tally_run (Traffic.tally_start config name initial hosted) moves
  have hhosted : t.hosted = hosted := Traffic.hosted_run _ moves
  have hname : t.actor.core.name = name := Traffic.name_run _ moves
  have htold := tally.told
  rw [hhosted] at htold
  refine ⟨rfl, ?_, ?_, ?_, tally.ticks, ?_, ?_, ?_⟩
  · intro service result hservice
    exact ⟨Traffic.rounds_settle hservice result, fun hcompleted =>
      Traffic.cancelled_settle hservice hcompleted result⟩
  · intro move during hstarts hduring
    have hchange : t.Change (t.step move) := Traffic.change_step t move
    obtain ⟨service, hservice, hfresh⟩ := Traffic.started_change tally hchange hstarts
    have hrun := (Traffic.run_running hservice hduring).2
    rw [hrun, hfresh]
    simp
  · intro hcancelled
    refine ⟨fun more => ?_, fun service during hservice hduring => ?_, fun elapsed first => ?_,
      fun orphaned hidle => Traffic.leave_turn hcancelled hidle orphaned⟩
    · have hmore := Traffic.run_cancelled hcancelled more
      have later : (t.run more).Tally := Traffic.tally_run tally more
      have hticks : (t.run more).actor.core.ticks = t.actor.core.ticks := by
        rw [later.ticks, hmore.2, tally.ticks]
      exact ⟨hmore.1, hmore.2, hticks, hticks ▸ later.seen⟩
    · exact ⟨(Traffic.run_running hservice hduring).1, fun result =>
        Traffic.service_settle (Traffic.run_cancelled hcancelled during).1 result⟩
    · rw [hcancelled]
      cases elapsed <;> cases first <;> decide
  · rw [htold]
    split
    · rw [List.length_map]
      exact tally.once
    · exact Nat.zero_le _
  · rw [htold]
    cases hosted with
    | false => simp
    | true => simp [Round.completes_iff]
  · intro event hmem
    rw [htold] at hmem
    split at hmem
    · obtain ⟨round, -, rfl⟩ := List.mem_map.mp hmem
      rw [Core.completedEvent, hname]
    · cases hmem

/-- A machine that is stopped in a dispatch that queued a state, with a request in its mailbox. -/
theorem no_dispatch_once_cancelled_stop :
    let t := (Traffic.start {} "m" "A" true).run
      [.call 0 "first", .turn false, .deed .closeTransition, .call 1 "second", .cancel]
    t.actor.core.pending = ["A"] ∧ t.actor.mailbox.queue.length = 1 ∧
      ∀ more, (t.run more).actor.core.ticks = 1 := by
  intro t
  obtain ⟨-, -, -, hrests, -⟩ := no_dispatch_once_cancelled {} "m" "A" true
    [.call 0 "first", .turn false, .deed .closeTransition, .call 1 "second", .cancel]
  have hmore := (hrests rfl).1
  refine ⟨rfl, rfl, fun more => ?_⟩
  rw [(hmore more).2.2.1]
  rfl

end Sequencer
