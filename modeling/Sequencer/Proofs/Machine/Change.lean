import Sequencer.Proofs.Machine.Logic
import Sequencer.Proofs.Machine.Traffic

/-!
# Changes — what a step can do to a machine among its callers

A step does one of a few things, each under its own conditions.  What is kept by each of them is
kept by every run.
-/

namespace Sequencer

/-! ## 1. What a step can do -/

namespace Round

/-- How a refresh of the machine `name` ends with a dispatch, with the states `work` still to come
before it; none if it goes on. -/
def outcome (round : Round) (name : String) (work : List String) (cancelled : Bool) :
    Option (Except Failure Unit) :=
  match round.result with
  | .error failure => some (.error failure)
  | .ok () =>
    if round.completed then some (.ok ())
    else if round.queued ++ work = [] then some (.ok ())
    else if cancelled then some (.error (.machineStopped name))
    else none

end Round

/-- Whether an effect only tells an event or cancels the machine. -/
def Effect.isTold : Effect → Bool
  | .publish _ => true
  | .cancel => true
  | _ => false

/-- The effects of a dispatch that comes back. -/
def Chain.Aftermath.told (after : Chain.Aftermath) : List Effect :=
  (after.event.map Effect.publish).toList ++ if after.cancels then [.cancel] else []

theorem isTold_told (after : Chain.Aftermath) :
    ∀ effect ∈ after.told, effect.isTold = true := by
  intro effect h
  unfold Chain.Aftermath.told at h
  rcases List.mem_append.mp h with h | h
  · rw [Option.mem_toList, Option.map_eq_some_iff] at h
    obtain ⟨event, -, rfl⟩ := h
    rfl
  · split at h
    · rw [List.mem_singleton.mp h]
      rfl
    · exact absurd h List.not_mem_nil

namespace Traffic

/-- The dispatch of `service` as it comes back with `result`. -/
def round (t : Traffic) (service : Service) (result : Except Failure Unit) : Round :=
  { state := service.state, source := service.chain.source, result
    queued := t.actor.core.pending, completed := t.actor.core.completed }

def taken (t : Traffic) (queue : List Request) : Mailbox Request × Option Nat :=
  { t.actor.mailbox with queue }.grant

def moved (t : Traffic) (state : String) : Core :=
  { t.actor.core with pending := [], current := state }

/-- What the dispatch of `service` leads to, as it comes back with `result`. -/
def aftermath (t : Traffic) (service : Service) (result : Except Failure Unit) : Chain.Aftermath :=
  Chain.settle t.actor.core service.chain service.state result

/-- What a step can do. -/
inductive Change (t : Traffic) : Traffic → Prop where
  | nothing : Change t t
  | cancel : Change t { t with cancelled := true }
  | overflow (source : String) (hopen : t.actor.mailbox.closed = false)
      (hfull : t.actor.mailbox.hasRoom = false) :
      Change t (t.conduct t.actor [.publish (t.actor.core.overflowEvent source)])
  | post (source : String) (hopen : t.actor.mailbox.closed = false)
      (hroom : t.actor.mailbox.hasRoom = true) :
      Change t (t.conduct { t.actor with mailbox := t.actor.mailbox.enter { source } } [.deliver])
  | enter (c : Nat) (source : String) (mailbox : Mailbox Request)
      (hphase : (t.calls c).phase = .unmade ∨ (t.calls c).phase = .sending source)
      (hsend : t.actor.mailbox.send c { source, reply := some c } = (mailbox, .entered)) :
      Change t ((t.conduct { t.actor with mailbox } [.deliver]).place c .expecting)
  | wait (c : Nat) (source : String) (mailbox : Mailbox Request)
      (hphase : (t.calls c).phase = .unmade ∨ (t.calls c).phase = .sending source)
      (hsend : t.actor.mailbox.send c { source, reply := some c } = (mailbox, .full)) :
      Change t ((t.conduct { t.actor with mailbox } []).place c (.sending source))
  | refuse (c : Nat) (source : String) (mailbox : Mailbox Request)
      (hphase : (t.calls c).phase = .unmade ∨ (t.calls c).phase = .sending source)
      (hsend : t.actor.mailbox.send c { source, reply := some c } = (mailbox, .closed)) :
      Change t ((t.conduct { t.actor with mailbox } []).hear c (.error t.actor.core.stopped))
  | look (c : Nat) (hphase : (t.calls c).phase = .expecting)
      (hreply : (t.calls c).reply = .awaited) : Change t (t.place c .expecting)
  | hear (c : Nat) (result : Except Failure Unit) (hphase : (t.calls c).phase = .expecting)
      (hreply : (t.calls c).reply = .answered result ∨
        (t.calls c).reply = .forgotten ∧ result = .error t.actor.core.stopped) :
      Change t (t.hear c result)
  | giveUp (c : Nat) (source : String) (hphase : (t.calls c).phase = .sending source) :
      Change t ((t.conduct { t.actor with mailbox := (t.actor.mailbox.abandon c).1 }
        ((t.actor.mailbox.abandon c).2.map Effect.reserve).toList).place c .dropped)
  | forgo (c : Nat) (hphase : (t.calls c).phase = .expecting) : Change t (t.place c .dropped)
  | serve (request : Request) (queue : List Request) (hidle : t.idle = true)
      (hcancelled : t.cancelled = false) (hqueue : t.actor.mailbox.queue = request :: queue) :
      Change t (((t.record (.taken request)).conduct
        { t.actor with
          core := t.actor.core.beginRefresh.beginTick
          mailbox := (t.taken queue).1
          service := some { reply := request.reply, chain := { source := request.source }
                            state := t.actor.core.current } }
        (((t.taken queue).2.map Effect.reserve).toList ++
          [.publish (t.actor.core.beginRefresh.beginTick.tickEvent request.source)])).record
        (.dispatched { state := t.actor.core.current, source := request.source }))
  | cut (request : Request) (queue : List Request) (hidle : t.idle = true)
      (hqueue : t.actor.mailbox.queue = request :: queue) :
      Change t (({ t with cancelled := true }.record (.taken request)).conduct
        { t.actor with
          core := t.actor.core.beginRefresh, mailbox := (t.taken queue).1, service := none }
        (((t.taken queue).2.map Effect.reserve).toList ++
          (request.reply.map (Effect.answer · (.error t.actor.core.stopped))).toList))
  | deed (service : Service) (hservice : t.actor.service = some service) (deed : Deed) :
      Change t { t with actor := { t.actor with core := deed.perform t.actor.core } }
  | finish (service : Service) (result final : Except Failure Unit)
      (hservice : t.actor.service = some service)
      (hfinal : (t.round service result).outcome t.actor.core.name service.chain.work t.cancelled =
        some final) :
      Change t ((t.record (.returned (t.round service result))).conduct
        { t.actor with
          core := (t.aftermath service result).core, service := none
          seen := t.actor.core.snapshot, version := t.actor.version + 1 }
        ((t.aftermath service result).told ++ (service.reply.map (Effect.answer · final)).toList))
  | next (service : Service) (state : String) (work : List String)
      (hservice : t.actor.service = some service) (hcompleted : t.actor.core.completed = false)
      (hwork : t.actor.core.pending ++ service.chain.work = state :: work)
      (hcancelled : t.cancelled = false) :
      Change t (((t.record (.returned (t.round service (.ok ())))).conduct
        { t.actor with
          core := (t.moved state).beginTick
          seen := t.actor.core.snapshot, version := t.actor.version + 1
          service := some { reply := service.reply, chain := { source := chainedSource, work }
                            state } }
        [.publish ((t.moved state).beginTick.tickEvent chainedSource)]).record
        (.dispatched { state, source := chainedSource }))
  | leave (hidle : t.idle = true) :
      Change t (t.conduct t.actor.leave.1 t.actor.leave.2)
  | collapse (service : Service) (hservice : t.actor.service = some service) :
      Change t (t.conduct t.actor.collapse.1 t.actor.collapse.2)

variable {t : Traffic}

theorem conduct_nothing (t : Traffic) : t.conduct t.actor [] = t := by
  simp only [conduct, List.any_nil, Bool.or_false, List.foldl_nil, List.filterMap_nil,
    List.reverse_nil, List.nil_append]

theorem change_notify (source : String) : t.Change (t.notify source).1 := by
  unfold notify Actor.notify Mailbox.post
  -- A mailbox that is closed is looked at first, so that a full one is told only if it is open.
  cases hclosed : t.actor.mailbox.closed with
  | true =>
    show t.Change (t.conduct t.actor [])
    rw [conduct_nothing]
    exact .nothing
  | false =>
    cases hroom : t.actor.mailbox.hasRoom with
    | true => exact .post source hclosed hroom
    | false => exact .overflow source hclosed hroom

theorem change_send {c : Nat} {source : String}
    (h : (t.calls c).phase = .unmade ∨ (t.calls c).phase = .sending source) :
    t.Change (t.send c source) := by
  unfold send Actor.request
  cases hsend : t.actor.mailbox.send c { source, reply := some c } with
  | mk mailbox posting =>
    cases posting with
    | entered => exact .enter c source mailbox h hsend
    | full => exact .wait c source mailbox h hsend
    | closed => exact .refuse c source mailbox h hsend

theorem change_poll (c : Nat) : t.Change (t.poll c) := by
  unfold poll
  cases hphase : (t.calls c).phase with
  | sending source => exact change_send (.inr hphase)
  | expecting =>
    cases hreply : (t.calls c).reply with
    | awaited => exact .look c hphase hreply
    | answered result => exact .hear c result hphase (.inl hreply)
    | forgotten => exact .hear c _ hphase (.inr ⟨hreply, rfl⟩)
  | unmade => exact .nothing
  | heard result => exact .nothing
  | dropped => exact .nothing

theorem change_drop (c : Nat) : t.Change (t.drop c) := by
  unfold drop
  cases hphase : (t.calls c).phase with
  | sending source => exact .giveUp c source hphase
  | expecting => exact .forgo c hphase
  | unmade => exact .nothing
  | heard result => exact .nothing
  | dropped => exact .nothing

theorem change_turn (orphaned : Bool) (h : t.idle = true) : t.Change (t.turn orphaned) := by
  unfold turn Actor.turn
  cases hcancelled : t.cancelled with
  | true => exact .leave h
  | false =>
    cases hqueue : t.actor.mailbox.queue with
    | nil =>
      simp only [Actor.serve, Mailbox.take, hqueue, Bool.false_eq_true, if_false]
      cases orphaned with
      | true => exact .leave h
      | false =>
        show t.Change (t.conduct t.actor [])
        rw [conduct_nothing]
        exact .nothing
    | cons request queue =>
      simp only [Actor.serve, Mailbox.take, hqueue, Bool.false_eq_true, if_false,
        Actor.startDispatch, Chain.start, Chain.begin, follow, noteTaken, noteDispatch]
      exact .serve request queue h hcancelled hqueue

theorem change_overtake (h : t.idle = true) : t.Change t.overtake := by
  unfold overtake
  cases hqueue : t.actor.mailbox.queue with
  | nil =>
    simp only [Actor.serve, Mailbox.take, hqueue]
    exact .nothing
  | cons request queue =>
    simp only [Actor.serve, Mailbox.take, hqueue, if_true, Actor.startDispatch, Chain.start,
      Chain.begin, follow, noteTaken]
    exact .cut request queue h hqueue

/-- A refresh ends with a dispatch as its outcome says, unless it is the cancellation that ends
it. -/
theorem outcome_of_settle {service : Service} {result final : Except Failure Unit}
    (h : (Chain.settle t.actor.core service.chain service.state result).next = .error final) :
    (t.round service result).outcome t.actor.core.name service.chain.work t.cancelled =
      some final := by
  cases result with
  | error failure =>
    cases h
    rfl
  | ok value =>
    cases hcompleted : t.actor.core.completed with
    | true =>
      rw [Chain.settle_completed _ _ hcompleted] at h
      cases h
      simp only [Round.outcome, round, hcompleted, if_true]
    | false =>
      cases hwork : t.actor.core.pending ++ service.chain.work with
      | nil =>
        rw [Chain.settle_last _ hcompleted hwork] at h
        cases h
        simp only [Round.outcome, round, hcompleted, hwork, Bool.false_eq_true, if_false, if_true]
      | cons state work =>
        rw [Chain.settle_next _ hcompleted hwork] at h
        cases h

theorem left_of_settle {service : Service} {result : Except Failure Unit} {chain : Chain}
    (h : (Chain.settle t.actor.core service.chain service.state result).next = .ok chain) :
    ∃ state work, result = .ok () ∧ t.actor.core.completed = false ∧
      t.actor.core.pending ++ service.chain.work = state :: work := by
  cases result with
  | error failure => cases h
  | ok value =>
    cases hcompleted : t.actor.core.completed with
    | true =>
      rw [Chain.settle_completed _ _ hcompleted] at h
      cases h
    | false =>
      cases hwork : t.actor.core.pending ++ service.chain.work with
      | nil =>
        rw [Chain.settle_last _ hcompleted hwork] at h
        cases h
      | cons state work => exact ⟨state, work, rfl, rfl, rfl⟩

theorem change_settle {service : Service} (result : Except Failure Unit)
    (h : t.actor.service = some service) : t.Change (t.settle service result) := by
  cases hnext : (Chain.settle t.actor.core service.chain service.state result).next with
  | error final =>
    have hover := Change.finish service result final h (outcome_of_settle hnext)
    unfold settle Actor.settle
    simp only [h, hnext]
    exact hover
  | ok chain =>
    obtain ⟨state, work, rfl, hcompleted, hwork⟩ := left_of_settle hnext
    -- The refresh would go on, and a cancellation is noticed before its next dispatch.
    cases hcancelled : t.cancelled with
    | true =>
      have hfinal : (t.round service (.ok ())).outcome t.actor.core.name service.chain.work
          t.cancelled = some (.error (t.moved state).stopped) := by
        simp [Round.outcome, round, hcompleted, hwork, hcancelled, Core.stopped, moved]
      have hover := Change.finish service (.ok ()) _ h hfinal
      rw [aftermath, Chain.settle_next service.state hcompleted hwork] at hover
      unfold settle Actor.settle
      simp only [h, Chain.settle_next service.state hcompleted hwork, Actor.startDispatch,
        Chain.start, hcancelled, if_true]
      exact hover
    | false =>
      have hgoes := Change.next service state work h hcompleted hwork hcancelled
      unfold settle Actor.settle
      simp only [h, Chain.settle_next service.state hcompleted hwork, Actor.startDispatch,
        Chain.start, hcancelled, Bool.false_eq_true, if_false]
      exact hgoes

theorem change_step (t : Traffic) (move : Move) : t.Change (t.step move) := by
  cases move with
  | notify notice => exact change_notify notice.source
  | call c source =>
    simp only [step]
    split
    · next h => exact change_send (.inl h)
    · exact .nothing
  | poll c => exact change_poll c
  | drop c => exact change_drop c
  | cancel => exact .cancel
  | turn orphaned =>
    simp only [step]
    split
    · next h => exact change_turn orphaned h
    · exact .nothing
  | overtake =>
    simp only [step]
    split
    · next h => exact change_overtake (Bool.and_eq_true_iff.mp h).1
    · exact .nothing
  | deed deed =>
    simp only [step]
    split
    · exact .nothing
    · next service h => exact .deed service h deed
  | settle result =>
    simp only [step]
    split
    · exact .nothing
    · next service h => exact change_settle result h
  | panic =>
    simp only [step]
    split
    · exact .nothing
    · next service h => exact .collapse service h

/-- What every change keeps, every run keeps. -/
theorem run_induction {P : Traffic → Prop} (hchange : ∀ t t', P t → t.Change t' → P t') (h : P t)
    (moves : List Move) : P (t.run moves) := by
  induction moves generalizing t with
  | nil => exact h
  | cons move moves ih => exact ih (hchange t _ h (change_step t move))

end Traffic

end Sequencer
