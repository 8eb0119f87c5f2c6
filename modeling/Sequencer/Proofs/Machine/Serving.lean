import Sequencer.Proofs.Machine.Seats

/-!
# Serving — one chain of dispatches for every request, in the order in which they entered

The log of a machine falls into services: an actor takes a request, runs the dispatches of its
refresh one after another, and only then takes the next.  The requests that were taken and those
that are still in the mailbox are together those that entered it, in their order.
-/

namespace Sequencer

/-! ## 1. Services -/

/-- What the log tells of the service of a request. -/
structure Served where
  request : Request
  rounds : List Round := []
  running : Option Tick := none

namespace Served

def sources (served : Served) : List String :=
  served.rounds.map (·.source) ++ served.running.toList.map (·.source)

/-- What the log keeps of it, in order. -/
def trace (served : Served) : List Occurrence :=
  .taken served.request ::
    (served.rounds.flatMap fun round => [.dispatched round.toTick, .returned round]) ++
    served.running.toList.map .dispatched

/-- The source of the request asks for the first dispatch, and transitions ask for the others. -/
def IsChain (served : Served) : Prop :=
  match served.sources with
  | [] => True
  | first :: others =>
    first = served.request.source ∧ ∀ source ∈ others, source = chainedSource

/-- The states that dispatches leave to be dispatched: each one takes the first off, and puts what
it queued before the others. -/
def left (rounds : List Round) : List String :=
  rounds.foldl (fun work round => round.queued ++ work.tail) []

/-- It is the service of the refresh `service`, which goes on. -/
structure Under (served : Served) (service : Service) : Prop where
  reply : served.request.reply = service.reply
  running : served.running = some { state := service.state, source := service.chain.source }
  unfailed : ∀ round ∈ served.rounds, round.result = .ok () ∧ round.completed = false
  work : service.chain.work = (left served.rounds).tail

variable {served : Served}

def dispatch (served : Served) (tick : Tick) : Served := { served with running := some tick }

def settle (served : Served) (round : Round) : Served :=
  { served with rounds := served.rounds ++ [round], running := none }

theorem trace_dispatch (tick : Tick) (h : served.running = none) :
    (served.dispatch tick).trace = served.trace ++ [.dispatched tick] := by
  simp [trace, dispatch, h]

theorem trace_settle {round : Round} (h : served.running = some round.toTick) :
    (served.settle round).trace = served.trace ++ [.returned round] := by
  simp [trace, settle, h]

theorem sources_dispatch (tick : Tick) (h : served.running = none) :
    (served.dispatch tick).sources = served.sources ++ [tick.source] := by
  simp [sources, dispatch, h]

theorem sources_settle {round : Round} (h : served.running = some round.toTick) :
    (served.settle round).sources = served.sources := by
  simp [sources, settle, h]

theorem left_settle (round : Round) :
    left (served.settle round).rounds = round.queued ++ (left served.rounds).tail := by
  simp [left, settle]

theorem isChain_dispatch {tick : Tick} (h : served.running = none) (hbegun : served.sources ≠ [])
    (hchain : served.IsChain) (hsource : tick.source = chainedSource) :
    (served.dispatch tick).IsChain := by
  have hrequest : (served.dispatch tick).request = served.request := rfl
  unfold IsChain at hchain ⊢
  rw [sources_dispatch tick h, hrequest]
  cases hsources : served.sources with
  | nil => exact absurd hsources hbegun
  | cons first others =>
    rw [hsources] at hchain
    refine ⟨hchain.1, fun source hmem => ?_⟩
    rcases List.mem_append.mp hmem with hmem | hmem
    · exact hchain.2 source hmem
    · rw [List.mem_singleton.mp hmem, hsource]

theorem isChain_settle {round : Round} (h : served.running = some round.toTick)
    (hchain : served.IsChain) : (served.settle round).IsChain := by
  have hrequest : (served.settle round).request = served.request := rfl
  unfold IsChain at hchain ⊢
  rw [sources_settle h, hrequest]
  exact hchain

theorem sources_ne_nil {tick : Tick} (h : served.running = some tick) : served.sources ≠ [] := by
  simp [sources, h]

end Served

/-- The services that a log tells of, the latest first. -/
def servedIn : List Occurrence → List Served
  | [] => []
  | .taken request :: log => { request } :: servedIn log
  | .dispatched tick :: log => (servedIn log).modifyHead (·.dispatch tick)
  | .returned round :: log => (servedIn log).modifyHead (·.settle round)
  | _ :: log => servedIn log

namespace Occurrence

def isService : Occurrence → Bool
  | taken _ => true
  | dispatched _ => true
  | returned _ => true
  | _ => false

def entry? : Occurrence → Option Request
  | entered request => some request
  | _ => none

end Occurrence

namespace Traffic

variable {t : Traffic}

/-- The services of the requests that were taken, the latest first. -/
def served (t : Traffic) : List Served := servedIn t.log

def trace (t : Traffic) : List Occurrence := t.log.filter Occurrence.isService

def entered (t : Traffic) : List Request := t.log.filterMap Occurrence.entry?

/-! ## 2. What the log keeps of a step -/

@[simp] theorem served_taken (request : Request) :
    (t.record (.taken request)).served = { request } :: t.served := rfl

@[simp] theorem served_dispatched (tick : Tick) :
    (t.record (.dispatched tick)).served = t.served.modifyHead (·.dispatch tick) := rfl

@[simp] theorem served_returned (round : Round) :
    (t.record (.returned round)).served = t.served.modifyHead (·.settle round) := rfl

theorem trace_record {o : Occurrence} (h : o.isService = true) :
    (t.record o).trace = o :: t.trace := List.filter_cons_of_pos h

theorem entered_record {o : Occurrence} (h : o.isService = true) :
    (t.record o).entered = t.entered := by
  cases o <;> first | rfl | cases h

/-- Effects tell of events, and of a request that entered. -/
theorem entry_cases {hosted : Bool} {queue : List Request} {effect : Effect} {o : Occurrence}
    (h : effect.entry hosted queue = some o) :
    (∃ event, o = .published event) ∨ effect = .deliver ∧ ∃ request, o = .entered request := by
  cases effect with
  | publish event =>
    simp only [Effect.entry] at h
    split at h
    · cases h
      exact .inl ⟨event, rfl⟩
    · cases h
  | deliver =>
    obtain ⟨request, -, rfl⟩ := Option.map_eq_some_iff.mp h
    exact .inr ⟨rfl, request, rfl⟩
  | answer reply result => cases h
  | forget reply => cases h
  | cancel => cases h
  | reserve sender => cases h
  | refuse sender => cases h

theorem servedIn_append {log' log : List Occurrence}
    (h : ∀ o ∈ log', o.isService = false) : servedIn (log' ++ log) = servedIn log := by
  induction log' with
  | nil => rfl
  | cons o log' ih =>
    have ho := h o List.mem_cons_self
    have hrest := ih fun o ho => h o (List.mem_cons_of_mem _ ho)
    cases o with
    | entered request => exact hrest
    | published event => exact hrest
    | heard call result => exact hrest
    | taken request => cases ho
    | dispatched tick => cases ho
    | returned round => cases ho

theorem isService_entries (hosted : Bool) (queue : List Request) (effects : List Effect) :
    ∀ o ∈ (effects.filterMap (Effect.entry hosted queue)).reverse, o.isService = false := by
  intro o ho
  obtain ⟨effect, -, heffect⟩ := List.mem_filterMap.mp (List.mem_reverse.mp ho)
  rcases entry_cases heffect with ⟨event, rfl⟩ | ⟨-, request, rfl⟩
  · rfl
  · rfl

@[simp] theorem served_conduct (actor : Actor) (effects : List Effect) :
    (t.conduct actor effects).served = t.served :=
  servedIn_append (isService_entries _ _ _)

@[simp] theorem trace_conduct (actor : Actor) (effects : List Effect) :
    (t.conduct actor effects).trace = t.trace := by
  simp only [trace, conduct, List.filter_append]
  rw [List.filter_eq_nil_iff.mpr fun o ho => by simp [isService_entries _ _ _ o ho]]
  rfl

theorem entered_conduct (actor : Actor) {effects : List Effect}
    (h : Effect.deliver ∉ effects) :
    (t.conduct actor effects).entered = t.entered := by
  simp only [entered, conduct, List.filterMap_append, List.filterMap_reverse]
  rw [List.filterMap_eq_nil_iff.mpr]
  · rfl
  · intro o ho
    obtain ⟨effect, hmem, heffect⟩ := List.mem_filterMap.mp ho
    rcases entry_cases heffect with ⟨event, rfl⟩ | ⟨rfl, -⟩
    · rfl
    · exact absurd hmem h

/-! ## 3. Logs that fall into services -/

/-- The log falls into the services of the requests that entered, as far as they are not `unserved`.
Only the latest service may have a dispatch that did not come back. -/
structure Booked (t : Traffic) (unserved : List Request) : Prop where
  trace : t.trace = t.served.flatMap fun served => served.trace.reverse
  entered : t.entered = unserved.reverse ++ t.served.map (·.request)
  chains : ∀ served ∈ t.served, served.IsChain
  earlier : ∀ served ∈ t.served.tail, served.running = none

variable {unserved : List Request}

theorem Booked.conduct (booked : t.Booked unserved) (actor : Actor) {effects : List Effect}
    (h : Effect.deliver ∉ effects) : (t.conduct actor effects).Booked unserved := by
  refine ⟨?_, ?_, ?_, ?_⟩
  · rw [trace_conduct, served_conduct, booked.trace]
  · rw [entered_conduct actor h, served_conduct, booked.entered]
  · rw [served_conduct]
    exact booked.chains
  · rw [served_conduct]
    exact booked.earlier

/-- The oldest request is taken after the service of the others. -/
theorem Booked.taken {request : Request} (booked : t.Booked (request :: unserved))
    (h : ∀ served ∈ t.served, served.running = none) :
    (t.record (.taken request)).Booked unserved := by
  refine ⟨?_, ?_, List.forall_mem_cons.mpr ⟨trivial, booked.chains⟩, h⟩
  · rw [trace_record rfl, booked.trace]
    rfl
  · rw [entered_record rfl, booked.entered]
    simp

/-- The log keeps one more thing of the latest service. -/
theorem Booked.latest (booked : t.Booked unserved) {latest next : Served} {earlier : List Served}
    {o : Occurrence} (h : t.served = latest :: earlier) (ho : o.isService = true)
    (hserved : (t.record o).served = next :: earlier) (hrequest : next.request = latest.request)
    (htrace : next.trace = latest.trace ++ [o]) (hchain : latest.IsChain → next.IsChain) :
    (t.record o).Booked unserved := by
  have hchains := List.forall_mem_cons.mp (h ▸ booked.chains)
  refine ⟨?_, ?_, ?_, ?_⟩
  · rw [hserved, trace_record ho, booked.trace, h, List.flatMap_cons, List.flatMap_cons, htrace,
      List.reverse_append]
    rfl
  · rw [hserved, entered_record ho, booked.entered, h, List.map_cons, List.map_cons, hrequest]
  · rw [hserved]
    exact List.forall_mem_cons.mpr ⟨hchain hchains.1, hchains.2⟩
  · rw [hserved]
    have hearlier := booked.earlier
    rw [h] at hearlier
    exact hearlier

theorem Booked.dispatched (booked : t.Booked unserved) {latest : Served} {earlier : List Served}
    {tick : Tick} (h : t.served = latest :: earlier) (hrunning : latest.running = none)
    (hchain : (latest.dispatch tick).IsChain) :
    (t.record (.dispatched tick)).Booked unserved := by
  have hserved : (t.record (.dispatched tick)).served = latest.dispatch tick :: earlier := by
    rw [served_dispatched, h, List.modifyHead_cons]
  exact booked.latest h rfl hserved rfl (Served.trace_dispatch tick hrunning) fun _ => hchain

theorem Booked.returned (booked : t.Booked unserved) {latest : Served} {earlier : List Served}
    {round : Round} (h : t.served = latest :: earlier)
    (hrunning : latest.running = some round.toTick) :
    (t.record (.returned round)).Booked unserved := by
  have hserved : (t.record (.returned round)).served = latest.settle round :: earlier := by
    rw [served_returned, h, List.modifyHead_cons]
  exact booked.latest h rfl hserved rfl (Served.trace_settle hrunning)
    (Served.isChain_settle hrunning)

/-! ## 4. Machines that serve in order -/

/-- The log falls into services, as the machine stands. -/
structure Ledger (t : Traffic) : Prop where
  booked : ∃ unserved, t.Booked unserved ∧
    (t.actor.ended = false → unserved = t.actor.mailbox.queue)
  /-- A service without a dispatch was cut off by the cancellation of the machine. -/
  begun : ∀ served ∈ t.served, served.sources = [] → t.cancelled = true
  between : t.actor.service = none → t.actor.ended = false →
    ∀ served ∈ t.served, served.running = none
  current : ∀ service, t.actor.service = some service →
    ∃ served earlier, t.served = served :: earlier ∧ served.Under service
  ended : t.actor.ended = true → t.actor.service = none

variable {t' : Traffic}

theorem ledger_start (config : Config) (name initial : String) (hosted : Bool) :
    (start config name initial hosted).Ledger :=
  { booked := ⟨[], ⟨rfl, rfl, (fun _ h => by cases h), fun _ h => by cases h⟩, fun _ => rfl⟩
    begun := fun _ h => by cases h
    between := fun _ _ => fun _ h => by cases h
    current := fun _ h => by cases h
    ended := fun h => by cases h }

theorem idle_iff : t.idle = true ↔ t.actor.ended = false ∧ t.actor.service = none := by
  simp [idle]

theorem Ledger.running (ledger : t.Ledger) {service : Service}
    (h : t.actor.service = some service) : t.actor.ended = false := by
  by_contra hover
  have hnone := ledger.ended (Bool.not_eq_false _ ▸ hover)
  rw [h] at hnone
  cases hnone

/-- A step that takes no part in a service and lets nobody enter keeps the ledger. -/
theorem Ledger.keep (ledger : t.Ledger) (hserved : t'.served = t.served)
    (htrace : t'.trace = t.trace) (hentered : t'.entered = t.entered)
    (hservice : t'.actor.service = t.actor.service) (hended : t'.actor.ended = t.actor.ended)
    (hqueue : t'.actor.mailbox.queue = t.actor.mailbox.queue)
    (hcancelled : t.cancelled = true → t'.cancelled = true) : t'.Ledger where
  booked := by
    obtain ⟨unserved, ⟨htraced, hall, hchains, hearlier⟩, hunserved⟩ := ledger.booked
    rw [hended, hqueue]
    refine ⟨unserved, ⟨?_, ?_, hserved ▸ hchains, hserved ▸ hearlier⟩, hunserved⟩
    · rw [htrace, hserved, htraced]
    · rw [hentered, hserved, hall]
  begun served hmem hnone := hcancelled (ledger.begun served (hserved ▸ hmem) hnone)
  between := by
    rw [hservice, hended, hserved]
    exact ledger.between
  current := by
    rw [hservice, hserved]
    exact ledger.current
  ended := by
    rw [hended, hservice]
    exact ledger.ended

/-- A request enters behind those that are in the mailbox. -/
theorem Ledger.enter (ledger : t.Ledger) {request : Request} (hserved : t'.served = t.served)
    (htrace : t'.trace = t.trace) (hentered : t'.entered = request :: t.entered)
    (hservice : t'.actor.service = t.actor.service) (hended : t'.actor.ended = t.actor.ended)
    (hqueue : t'.actor.mailbox.queue = t.actor.mailbox.queue ++ [request])
    (hrunning : t.actor.ended = false) (hcancelled : t'.cancelled = t.cancelled) : t'.Ledger where
  booked := by
    -- A new request is the last one that is not served.
    obtain ⟨unserved, ⟨htraced, hall, hchains, hearlier⟩, hunserved⟩ := ledger.booked
    refine ⟨unserved ++ [request], ⟨?_, ?_, hserved ▸ hchains, hserved ▸ hearlier⟩, fun _ => ?_⟩
    · rw [htrace, hserved, htraced]
    · rw [hentered, hserved, hall]
      simp
    · rw [hqueue, hunserved hrunning]
  begun := by
    rw [hserved, hcancelled]
    exact ledger.begun
  between := by
    rw [hservice, hended, hserved]
    exact ledger.between
  current := by
    rw [hservice, hserved]
    exact ledger.current
  ended := by
    rw [hended, hrunning]
    intro h
    cases h

theorem ledger_serve (ledger : t.Ledger) {request : Request} {queue : List Request}
    (hidle : t.idle = true) (hqueue : t.actor.mailbox.queue = request :: queue) {actor : Actor}
    {effects : List Effect} {state : String}
    (hservice : actor.service =
      some { reply := request.reply, chain := { source := request.source }, state })
    (hleft : actor.mailbox.queue = queue) (hended : actor.ended = t.actor.ended)
    (heffects : Effect.deliver ∉ effects) :
    (((t.record (.taken request)).conduct actor effects).record
      (.dispatched { state, source := request.source })).Ledger := by
  obtain ⟨hrunning, hnone⟩ := idle_iff.mp hidle
  obtain ⟨unserved, booked, hunserved⟩ := ledger.booked
  -- The oldest request of the mailbox is the first one that was not served.
  rw [hunserved hrunning, hqueue] at booked
  have htaken := (booked.taken (ledger.between hnone hrunning)).conduct actor heffects
  have hserved : ((t.record (.taken request)).conduct actor effects).served =
      { request } :: t.served := served_conduct _ _
  have hserved' : (((t.record (.taken request)).conduct actor effects).record
      (.dispatched { state, source := request.source })).served =
      { request, running := some { state, source := request.source } } :: t.served := by
    rw [served_dispatched, hserved]
    rfl
  -- The service is new, and its first dispatch runs.
  refine ⟨⟨queue, htaken.dispatched hserved rfl ⟨rfl, fun _ h => by cases h⟩,
    fun _ => hleft.symm⟩, ?_, ?_, ?_, ?_⟩
  · rw [hserved']
    refine List.forall_mem_cons.mpr ⟨(fun h => by cases h), fun served hmem hnone => ?_⟩
    simp [record, conduct, ledger.begun served hmem hnone]
  · intro hnobody
    cases hnobody.symm.trans hservice
  · intro service hsome
    cases hsome.symm.trans hservice
    exact ⟨_, _, hserved', rfl, rfl, (fun _ h => by cases h), rfl⟩
  · intro hover
    cases hover.symm.trans (hended.trans hrunning)

theorem ledger_cut (ledger : t.Ledger) {request : Request} {queue : List Request}
    (hidle : t.idle = true) (hqueue : t.actor.mailbox.queue = request :: queue) {actor : Actor}
    {effects : List Effect} (hservice : actor.service = none) (hleft : actor.mailbox.queue = queue)
    (hended : actor.ended = t.actor.ended) (heffects : Effect.deliver ∉ effects) :
    (({ t with cancelled := true }.record (.taken request)).conduct actor effects).Ledger := by
  obtain ⟨hrunning, hnone⟩ := idle_iff.mp hidle
  have hidle := ledger.between hnone hrunning
  obtain ⟨unserved, ⟨htrace, hentered, hchains, hearlier⟩, hunserved⟩ := ledger.booked
  rw [hunserved hrunning, hqueue] at hentered
  have booked : Booked { t with cancelled := true } (request :: queue) :=
    ⟨htrace, hentered, hchains, hearlier⟩
  have hserved : (({ t with cancelled := true }.record (.taken request)).conduct actor
      effects).served = { request } :: t.served := served_conduct _ _
  -- The service stays without a dispatch, which only a cancellation excuses.
  refine ⟨⟨queue, (booked.taken hidle).conduct actor heffects, fun _ => hleft.symm⟩,
    fun _ _ _ => rfl, ?_, ?_, ?_⟩
  · rw [hserved]
    exact fun _ _ => List.forall_mem_cons.mpr ⟨rfl, hidle⟩
  · intro service hsome
    cases hsome.symm.trans hservice
  · intro hover
    cases hover.symm.trans (hended.trans hrunning)

theorem ledger_over (ledger : t.Ledger) {service : Service} (result : Except Failure Unit)
    (hsome : t.actor.service = some service) {actor : Actor} {effects : List Effect}
    (hservice : actor.service = none) (hmailbox : actor.mailbox = t.actor.mailbox)
    (hended : actor.ended = t.actor.ended) (heffects : Effect.deliver ∉ effects) :
    ((t.record (.returned (t.round service result))).conduct actor effects).Ledger := by
  have hrunning := ledger.running hsome
  obtain ⟨latest, earlier, hlatest, under⟩ := ledger.current service hsome
  obtain ⟨unserved, booked, hunserved⟩ := ledger.booked
  have hround : latest.running = some (t.round service result).toTick := under.running
  have hserved : ((t.record (.returned (t.round service result))).conduct actor effects).served =
      latest.settle (t.round service result) :: earlier := by
    rw [served_conduct, served_returned, hlatest, List.modifyHead_cons]
  -- No other service has a dispatch that did not come back, so that now none has.
  have hidle := booked.earlier
  have hbegun := ledger.begun
  rw [hlatest] at hidle hbegun
  refine ⟨⟨unserved, (booked.returned hlatest hround).conduct actor heffects, fun _ => ?_⟩,
    ?_, ?_, ?_, ?_⟩
  · exact (hunserved hrunning).trans (congrArg Mailbox.queue hmailbox.symm)
  · rw [hserved]
    refine List.forall_mem_cons.mpr ⟨fun hnone => ?_, fun served hmem hnone => ?_⟩
    · rw [Served.sources_settle hround] at hnone
      exact absurd hnone (Served.sources_ne_nil hround)
    · simp [record, conduct, hbegun served (List.mem_cons_of_mem _ hmem) hnone]
  · rw [hserved]
    exact fun _ _ => List.forall_mem_cons.mpr ⟨rfl, hidle⟩
  · intro service hagain
    cases hagain.symm.trans hservice
  · intro hover
    cases hover.symm.trans (hended.trans hrunning)

theorem ledger_next (ledger : t.Ledger) {service : Service} {state : String} {work : List String}
    (hsome : t.actor.service = some service) (hcompleted : t.actor.core.completed = false)
    (hwork : t.actor.core.pending ++ service.chain.work = state :: work)
    {actor : Actor} {effects : List Effect}
    (hservice : actor.service =
      some { reply := service.reply, chain := { source := chainedSource, work }, state })
    (hmailbox : actor.mailbox = t.actor.mailbox) (hended : actor.ended = t.actor.ended)
    (heffects : Effect.deliver ∉ effects) :
    (((t.record (.returned (t.round service (.ok ())))).conduct actor effects).record
      (.dispatched { state, source := chainedSource })).Ledger := by
  have hrunning := ledger.running hsome
  obtain ⟨latest, earlier, hlatest, under⟩ := ledger.current service hsome
  obtain ⟨unserved, booked, hunserved⟩ := ledger.booked
  have hround : latest.running = some (t.round service (.ok ())).toTick := under.running
  have hback : ((t.record (.returned (t.round service (.ok ())))).conduct actor effects).served =
      latest.settle (t.round service (.ok ())) :: earlier := by
    rw [served_conduct, served_returned, hlatest, List.modifyHead_cons]
  have hserved : (((t.record (.returned (t.round service (.ok ())))).conduct actor
      effects).record (.dispatched { state, source := chainedSource })).served =
      (latest.settle (t.round service (.ok ()))).dispatch { state, source := chainedSource } ::
        earlier := by
    rw [served_dispatched, hback, List.modifyHead_cons]
  have hchain : (latest.settle (t.round service (.ok ()))).IsChain :=
    Served.isChain_settle hround (booked.chains latest (hlatest ▸ List.mem_cons_self))
  have hsources : (latest.settle (t.round service (.ok ()))).sources ≠ [] := by
    rw [Served.sources_settle hround]
    exact Served.sources_ne_nil hround
  have hchain' : ((latest.settle (t.round service (.ok ()))).dispatch
      { state, source := chainedSource }).IsChain :=
    Served.isChain_dispatch rfl hsources hchain rfl
  have hbooked :=
    ((booked.returned hlatest hround).conduct actor heffects).dispatched hback rfl hchain'
  have hbegun := ledger.begun
  rw [hlatest] at hbegun
  refine ⟨⟨unserved, hbooked, fun _ => ?_⟩, ?_, ?_, ?_, ?_⟩
  · exact (hunserved hrunning).trans (congrArg Mailbox.queue hmailbox.symm)
  · rw [hserved]
    refine List.forall_mem_cons.mpr ⟨fun hnone => ?_, fun served hmem hnone => ?_⟩
    · exact absurd hnone (Served.sources_ne_nil rfl)
    · simp [record, conduct, hbegun served (List.mem_cons_of_mem _ hmem) hnone]
  · intro hnobody
    cases hnobody.symm.trans hservice
  · intro other hother
    cases hother.symm.trans hservice
    -- The log leaves the same states to be dispatched as the work stack.
    refine ⟨_, earlier, hserved, under.reply, rfl, fun round hmem => ?_, ?_⟩
    · rcases List.mem_append.mp hmem with hmem | hmem
      · exact under.unfailed round hmem
      · rw [List.mem_singleton.mp hmem]
        exact ⟨rfl, hcompleted⟩
    · show work = (Served.left (latest.settle _).rounds).tail
      rw [Served.left_settle, ← under.work]
      exact congrArg List.tail hwork.symm
  · intro hover
    cases hover.symm.trans (hended.trans hrunning)

theorem ledger_end (ledger : t.Ledger) {actor : Actor} {effects : List Effect}
    (hservice : actor.service = none)
    (hended : actor.ended = true) (heffects : Effect.deliver ∉ effects) :
    (t.conduct actor effects).Ledger where
  booked := by
    obtain ⟨unserved, booked, -⟩ := ledger.booked
    -- From now on the mailbox no longer says who was not served.
    exact ⟨unserved, booked.conduct actor heffects, fun h => by cases h.symm.trans hended⟩
  begun served hmem hnone := by
    rw [served_conduct] at hmem
    simp [conduct, ledger.begun served hmem hnone]
  between _ h := by cases h.symm.trans hended
  current service hsome := by cases hsome.symm.trans hservice
  ended _ := hservice

theorem deliver_notMem_told {told : List Effect} (h : ∀ effect ∈ told, effect.isTold = true)
    (reply : Option Nat) (result : Except Failure Unit) :
    Effect.deliver ∉ told ++ (reply.map (Effect.answer · result)).toList := by
  intro hmem
  rcases List.mem_append.mp hmem with hmem | hmem
  · cases h _ hmem
  · simp at hmem

theorem entered_deliver {actor : Actor} {queue : List Request} {request : Request}
    (h : actor.mailbox.queue = queue ++ [request]) :
    (t.conduct actor [.deliver]).entered = request :: t.entered := by
  simp [entered, conduct, Effect.entry, Occurrence.entry?, h]

theorem ledger_change {slots : Nat} (seats : t.Seats slots) (ledger : t.Ledger)
    (h : t.Change t') : t'.Ledger := by
  -- Only `post` and `enter` let a request in, and only the last six cases touch a service.
  cases h with
  | nothing => exact ledger
  | cancel => exact ledger.keep rfl rfl rfl rfl rfl rfl fun _ => rfl
  | overflow source hopen hfull =>
    exact ledger.keep (served_conduct _ _) (trace_conduct _ _) (entered_conduct _ (by simp)) rfl rfl
      rfl fun h => by simp [conduct, h]
  | post source hopen hroom =>
    exact ledger.enter (served_conduct _ _) (trace_conduct _ _) (entered_deliver rfl) rfl rfl rfl
      (seats.closed.symm.trans hopen) (by simp [conduct, Effect.cancels])
  | enter c source mailbox hphase hsend =>
    obtain ⟨-, -, hposting, hqueue⟩ := Mailbox.send_cases hsend
    have hopen : t.actor.mailbox.closed = false := by simpa using hposting
    exact ledger.enter (served_conduct _ _) (trace_conduct _ _) (entered_deliver hqueue) rfl rfl
      hqueue (seats.closed.symm.trans hopen) (by simp [place, conduct, Effect.cancels])
  | wait c source mailbox hphase hsend =>
    obtain ⟨-, -, -, hqueue⟩ := Mailbox.send_cases hsend
    exact ledger.keep (served_conduct _ _) (trace_conduct _ _) (entered_conduct _ (by simp)) rfl rfl
      hqueue fun h => by simp [place, conduct, h]
  | refuse c source mailbox hphase hsend =>
    obtain ⟨-, -, -, hqueue⟩ := Mailbox.send_cases hsend
    exact ledger.keep (served_conduct _ _) (trace_conduct _ _) (entered_conduct _ (by simp)) rfl rfl
      hqueue fun h => by simp [hear, record, place, conduct, h]
  | look c hphase hreply => exact ledger.keep rfl rfl rfl rfl rfl rfl id
  | hear c result hphase hreply => exact ledger.keep rfl rfl rfl rfl rfl rfl id
  | giveUp c source hphase =>
    exact ledger.keep (served_conduct _ _) (trace_conduct _ _) (entered_conduct _ (by simp)) rfl rfl
      (Mailbox.queue_abandon _ _) fun h => by simp [place, conduct, h]
  | forgo c hphase => exact ledger.keep rfl rfl rfl rfl rfl rfl id
  | serve request queue hidle hcancelled hqueue =>
    exact ledger_serve ledger hidle hqueue rfl (Mailbox.queue_grant _) rfl (by simp)
  | cut request queue hidle hqueue =>
    exact ledger_cut ledger hidle hqueue rfl (Mailbox.queue_grant _) rfl (by simp)
  | deed service hservice deed => exact ledger.keep rfl rfl rfl rfl rfl rfl id
  | finish service result final hservice hfinal =>
    exact ledger_over ledger result hservice rfl rfl rfl (deliver_notMem_told (isTold_told _) _ _)
  | next service state work hservice hcompleted hwork hcancelled =>
    exact ledger_next ledger hservice hcompleted hwork rfl rfl rfl (by simp)
  | leave hidle => exact ledger_end ledger (idle_iff.mp hidle).2 rfl (by simp [Actor.leave])
  | collapse service hservice =>
    exact ledger_end ledger rfl rfl (by simp [Actor.collapse, hservice])

theorem ledger_run {slots : Nat} (seats : t.Seats slots) (ledger : t.Ledger)
    (moves : List Move) : (t.run moves).Seats slots ∧ (t.run moves).Ledger :=
  run_induction (P := fun t => t.Seats slots ∧ t.Ledger)
    (fun _ _ h hchange => ⟨seats_change h.1 hchange, ledger_change h.1 h.2 hchange⟩)
    ⟨seats, ledger⟩ moves

/-! ## 5. Requests that do not wait -/

theorem name_change (h : t.Change t') : t'.actor.core.name = t.actor.core.name := by
  cases h with
  | deed service hservice deed => cases deed <;> rfl
  | finish service result final hservice hfinal => exact Chain.name_settle _ _ _ _
  | _ => rfl

theorem hosted_change (h : t.Change t') : t'.hosted = t.hosted := by
  cases h <;> rfl

theorem hosted_run (t : Traffic) (moves : List Move) : (t.run moves).hosted = t.hosted :=
  run_induction (P := fun t' => t'.hosted = t.hosted)
    (fun _ _ h hchange => (hosted_change hchange).trans h) rfl moves

theorem name_run (t : Traffic) (moves : List Move) :
    (t.run moves).actor.core.name = t.actor.core.name :=
  run_induction (P := fun t' => t'.actor.core.name = t.actor.core.name)
    (fun _ _ h hchange => (name_change hchange).trans h) rfl moves

/-- What a request that does not wait meets: it enters, it is dropped and told because no slot is
free, or it is refused because the mailbox is closed. -/
theorem notify_cases {slots : Nat} (seats : t.Seats slots) (source : String) :
    (t.actor.mailbox.taken < slots ∧ (t.notify source).2 = .ok () ∧
      (t.notify source).1.actor.mailbox.queue = t.actor.mailbox.queue ++ [{ source := source }] ∧
      (t.notify source).1.log = .entered { source } :: t.log) ∨
    (t.actor.mailbox.taken = slots ∧ (t.notify source).2 = .ok () ∧
      (t.notify source).1.actor = t.actor ∧
      (t.notify source).1.log =
        (if t.hosted then [.published (t.actor.core.overflowEvent source)] else []) ++ t.log) ∨
    (t.actor.mailbox.closed = true ∧
      t.notify source = (t, .error (.machineStopped t.actor.core.name))) := by
  -- A mailbox never takes more than its slots, so that one without room has all of them taken.
  have hroom := seats.orderly.room
  rw [seats.capacity] at hroom
  cases hclosed : t.actor.mailbox.closed with
  | true =>
    refine .inr (.inr ⟨rfl, ?_⟩)
    simp only [notify, Actor.notify, Mailbox.post, hclosed, if_true, conduct_nothing, Core.stopped]
  | false =>
    cases hfree : t.actor.mailbox.hasRoom with
    | true =>
      have hless : t.actor.mailbox.taken < slots := seats.capacity ▸ of_decide_eq_true hfree
      have hnotify : t.notify source =
          (t.conduct { t.actor with mailbox := t.actor.mailbox.enter { source } } [.deliver],
            .ok ()) := by
        simp only [notify, Actor.notify, Mailbox.post, hclosed, hfree, Bool.false_eq_true, if_false,
          if_true]
      rw [hnotify]
      exact .inl ⟨hless, rfl, rfl, by simp [conduct, Effect.entry, Mailbox.enter]⟩
    | false =>
      have hnone : ¬ t.actor.mailbox.taken < slots := seats.capacity ▸ of_decide_eq_false hfree
      have hnotify : t.notify source =
          (t.conduct t.actor [.publish (t.actor.core.overflowEvent source)], .ok ()) := by
        simp only [notify, Actor.notify, Mailbox.post, hclosed, hfree, Bool.false_eq_true, if_false]
      rw [hnotify]
      refine .inr (.inl ⟨by omega, rfl, rfl, ?_⟩)
      cases hosted : t.hosted <;> simp [conduct, Effect.entry, hosted]

end Traffic

/-- Whatever is asked of a machine in whatever order, its log is one service after another, one for
each request that was taken, in the order in which the requests entered the mailbox; those that were
not taken are still in the mailbox, as long as the machine runs.  A service is the chain of the
dispatches of one refresh, and only the latest one may still have a dispatch that runs.  The
mailbox never holds more requests than it has slots, and a request that does not wait stays out of
it only if every slot is used, or reserved for a refresh that waits for it, or if the mailbox is
closed. -/
theorem requests_served_in_order (config : Config) (name initial : String) (hosted : Bool)
    (moves : List Traffic.Move) :
    let t := (Traffic.start config name initial hosted).run moves
    (∃ (served : List Served) (unserved : List Request),
      t.log.reverse.filter Occurrence.isService = served.flatMap Served.trace ∧
      t.log.reverse.filterMap Occurrence.entry? = served.map (·.request) ++ unserved ∧
      (t.actor.ended = false → unserved = t.actor.mailbox.queue) ∧
      (∀ s ∈ served, s.IsChain ∧ (s.sources = [] → t.cancelled = true)) ∧
      ∀ s ∈ served.dropLast, s.running = none) ∧
    t.actor.mailbox.queue.length ≤ config.mailboxSlots ∧
    (∀ c ∈ t.actor.mailbox.granted, ∃ source, (t.calls c).phase = .sending source) ∧
    ∀ notice : Notice,
      (t.actor.mailbox.taken < config.mailboxSlots ∧ (t.notify notice.source).2 = .ok () ∧
        (t.notify notice.source).1.actor.mailbox.queue =
          t.actor.mailbox.queue ++ [{ source := notice.source }] ∧
        (t.notify notice.source).1.log = .entered { source := notice.source } :: t.log) ∨
      (t.actor.mailbox.taken = config.mailboxSlots ∧ (t.notify notice.source).2 = .ok () ∧
        (t.notify notice.source).1.actor = t.actor ∧
        (t.notify notice.source).1.log =
          (if hosted then
            [.published { kind := .mailboxOverflow, name := some name
                          source := some notice.source }]
          else []) ++ t.log) ∨
      (t.actor.mailbox.closed = true ∧
        t.notify notice.source = (t, .error (.machineStopped name))) := by
  intro t
  obtain ⟨seats, ledger⟩ : t.Seats config.mailboxSlots ∧ t.Ledger :=
    Traffic.ledger_run (Traffic.seats_start config name initial hosted)
      (Traffic.ledger_start config name initial hosted) moves
  have hname : t.actor.core.name = name := Traffic.name_run _ moves
  have hhosted : t.hosted = hosted := Traffic.hosted_run _ moves
  refine ⟨?_, ?_, fun c hc => seats.sending c (.inl hc), fun notice => ?_⟩
  · obtain ⟨unserved, booked, hunserved⟩ := ledger.booked
    refine ⟨t.served.reverse, unserved, ?_, ?_, hunserved, fun s hs => ?_, fun s hs => ?_⟩
    -- The log is kept latest first, and the statement reads it in order.
    · rw [List.filter_reverse, List.flatMap_reverse]
      exact congrArg List.reverse booked.trace
    · rw [List.filterMap_reverse, List.map_reverse]
      exact (congrArg List.reverse booked.entered).trans (by simp)
    · exact ⟨booked.chains s (List.mem_reverse.mp hs), ledger.begun s (List.mem_reverse.mp hs)⟩
    · rw [List.dropLast_reverse] at hs
      exact booked.earlier s (List.mem_reverse.mp hs)
  · have hroom := seats.orderly.room
    rw [seats.capacity] at hroom
    exact Nat.le_trans (Nat.le_add_right _ _) hroom
  · have hcases := Traffic.notify_cases seats notice.source
    rw [hhosted, hname, Core.overflowEvent, hname] at hcases
    exact hcases

end Sequencer
