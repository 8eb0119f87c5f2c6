import Sequencer.Proofs.Machine.Previous

/-!
# Snapshots — what others see of a machine that rests

Others see a machine as the latest dispatch that came back left it.  Where its refresh ends with
that dispatch, the machine stays so.  Where the machine is cancelled before the refresh is over, it
has already been moved on to the state of the next dispatch; and where it is cancelled before a
refresh begins, the refresh has already been noted.  These two make all the difference between what
others see and what the machine is.
-/

namespace Sequencer

/-! ## 1. What a cancellation leaves undone -/

/-- The states that are left to be dispatched after dispatches of which none failed or completed the
machine. -/
def Served.undone (served : Served) : List String :=
  if served.rounds.all fun round => round.result.isOk && !round.completed then
    Served.left served.rounds
  else []

def Occurrence.stop? : Occurrence → Option Event
  | published event => if event.kind = .machineStopped then some event else none
  | _ => none

namespace Traffic

variable {t t' : Traffic} {service : Service}

/-- The state with which the latest refresh would have gone on. -/
def stranded (t : Traffic) : Option String := t.served.head?.bind (·.undone.head?)

/-- Whether the latest request that was taken has no dispatch. -/
def unbegun (t : Traffic) : Bool := t.served.head?.any (·.sources.isEmpty)

/-- Whether every dispatch that started came back. -/
def AllBack (t : Traffic) : Prop := ∀ served ∈ t.served, served.running = none

def stops (t : Traffic) : List Event := t.log.filterMap Occurrence.stop?

variable {latest : Served} {earlier : List Served}

theorem stranded_of_served (h : t.served = latest :: earlier) :
    t.stranded = latest.undone.head? := by
  rw [stranded, h]
  rfl

theorem unbegun_of_served (h : t.served = latest :: earlier) :
    t.unbegun = latest.sources.isEmpty := by
  rw [unbegun, h]
  rfl

theorem Ledger.rests (ledger : t.Ledger) (h : t.AllBack) : t.actor.service = none := by
  by_contra hsome
  obtain ⟨service, hservice⟩ := Option.ne_none_iff_exists'.mp hsome
  obtain ⟨latest, earlier, hlatest, under⟩ := ledger.current service hservice
  cases under.running.symm.trans (h latest (hlatest ▸ List.mem_cons_self))

theorem undone_of_failed {served : Served} {round : Round}
    (h : round.result.isOk = false ∨ round.completed = true) :
    (served.settle round).undone = [] := by
  refine if_neg fun hall => ?_
  have hround := List.all_eq_true.mp hall round (List.mem_append_right _ List.mem_cons_self)
  rw [Bool.and_eq_true, Bool.not_eq_true'] at hround
  rcases h with h | h
  · cases h.symm.trans hround.1
  · cases h.symm.trans hround.2

theorem undone_of_unfailed {served : Served} {round : Round} (under : served.Under service)
    (hresult : round.result = .ok ()) (hcompleted : round.completed = false) :
    (served.settle round).undone = round.queued ++ service.chain.work := by
  have hall : (served.settle round).rounds.all
      (fun round => round.result.isOk && !round.completed) = true := by
    refine List.all_eq_true.mpr fun other hmem => ?_
    rcases List.mem_append.mp hmem with hmem | hmem
    · have hother := under.unfailed other hmem
      simp [hother.1, hother.2, Except.isOk, Except.toBool]
    · rw [List.mem_singleton.mp hmem]
      simp [hresult, hcompleted, Except.isOk, Except.toBool]
  rw [Served.undone, if_pos hall, Served.left_settle, under.work]

/-! ## 2. What others see -/

/-- What others see of a machine that rests is the machine, but for what a cancellation left
undone. -/
structure Shown (t : Traffic) : Prop where
  snapshot : t.AllBack → t.actor.core.snapshot =
    { t.actor.seen with
      current := t.stranded.getD t.actor.seen.current
      previous := if t.unbegun then some t.actor.seen.current else t.actor.seen.previous }
  cancelled : t.AllBack → t.stranded.isSome = true ∨ t.unbegun = true → t.cancelled = true

theorem shown_start (config : Config) (name initial : String) (hosted : Bool) :
    (start config name initial hosted).Shown where
  snapshot _ := rfl
  cancelled _ h := h.elim nofun nofun

theorem shown_of_service (ledger : t.Ledger) (h : t.actor.service = some service) : t.Shown where
  snapshot hback := by cases h.symm.trans (ledger.rests hback)
  cancelled hback := by cases h.symm.trans (ledger.rests hback)

theorem Shown.keep (shown : t.Shown) (hchange : t.Change t') (hserved : t'.served = t.served)
    (hcore : t'.actor.core = t.actor.core) (hseen : t'.actor.seen = t.actor.seen) : t'.Shown where
  snapshot hback := by
    unfold AllBack stranded unbegun at *
    rw [hserved] at hback ⊢
    rw [hcore, hseen]
    exact shown.snapshot hback
  cancelled hback h := by
    unfold AllBack stranded unbegun at *
    rw [hserved] at hback h
    exact cancelled_change hchange (shown.cancelled hback h)

/-- What others see of a machine that is not cancelled is the machine. -/
theorem Shown.seen (shown : t.Shown) (hback : t.AllBack) (h : t.cancelled = false) :
    t.actor.seen = t.actor.core.snapshot := by
  have hkept : ¬ (t.stranded.isSome = true ∨ t.unbegun = true) := fun hcut => by
    cases h.symm.trans (shown.cancelled hback hcut)
  have hstranded : t.stranded = none := by simpa using (not_or.mp hkept).1
  have hbegun : t.unbegun = false := by simpa using (not_or.mp hkept).2
  rw [shown.snapshot hback, hstranded, hbegun]
  rfl

theorem shown_cut (shown : t.Shown) (ledger : t.Ledger) {request : Request} {actor : Actor}
    {effects : List Effect} (hidle : t.idle = true) (hcancelled : t.cancelled = false)
    (hcore : actor.core = t.actor.core.beginRefresh) (hseen : actor.seen = t.actor.seen) :
    (({ t with cancelled := true }.record (.taken request)).conduct actor effects).Shown := by
  obtain ⟨hlive, hnone⟩ := idle_iff.mp hidle
  have hsame := shown.seen (ledger.between hnone hlive) hcancelled
  have hserved : (({ t with cancelled := true }.record (.taken request)).conduct actor
      effects).served = { request } :: t.served := served_conduct _ _
  refine ⟨fun _ => ?_, fun _ _ => rfl⟩
  rw [stranded_of_served hserved, unbegun_of_served hserved]
  show actor.core.snapshot = { actor.seen with previous := some actor.seen.current }
  rw [hcore, hseen, hsame]
  rfl

/-- A dispatch that came back, with the states `undone` still to come: the first one is where the
machine is. -/
theorem shown_back {undone : List String} {round : Round} {actor : Actor} {effects : List Effect}
    (hlatest : t.served = latest :: earlier) (hround : latest.running = some round.toTick)
    (hundone : (latest.settle round).undone = undone)
    (hcore : actor.core.snapshot =
      { actor.seen with current := undone.head?.getD actor.seen.current })
    (hcut : undone ≠ [] → t.cancelled = true) :
    ((t.record (.returned round)).conduct actor effects).Shown := by
  have hserved : ((t.record (.returned round)).conduct actor effects).served =
      latest.settle round :: earlier := by
    rw [served_conduct, served_returned, hlatest, List.modifyHead_cons]
  have hbegun : (latest.settle round).sources.isEmpty = false := by
    rw [Served.sources_settle hround]
    simpa using Served.sources_ne_nil hround
  refine ⟨fun _ => ?_, fun _ h => ?_⟩
  · rw [stranded_of_served hserved, unbegun_of_served hserved, hundone, hbegun]
    exact hcore
  · rw [stranded_of_served hserved, unbegun_of_served hserved, hundone, hbegun] at h
    have hne : undone ≠ [] := by simpa using h
    show (t.cancelled || _) = true
    rw [hcut hne, Bool.true_or]

theorem shown_finish (ledger : t.Ledger) {result final : Except Failure Unit}
    (hservice : t.actor.service = some service)
    (hfinal : (t.round service result).outcome t.actor.core.name service.chain.work t.cancelled =
      some final) {actor : Actor} {effects : List Effect}
    (hcore : actor.core = (t.aftermath service result).core)
    (hseen : actor.seen = t.actor.core.snapshot) :
    ((t.record (.returned (t.round service result))).conduct actor effects).Shown := by
  obtain ⟨latest, earlier, hlatest, under⟩ := ledger.current service hservice
  cases result with
  | error failure =>
    refine shown_back hlatest under.running (undone_of_failed (.inl rfl)) ?_ (absurd rfl)
    rw [hcore, hseen]
    rfl
  | ok value =>
    cases hcompleted : t.actor.core.completed with
    | true =>
      refine shown_back hlatest under.running (undone_of_failed (.inr hcompleted)) ?_ (absurd rfl)
      rw [hcore, hseen, aftermath, Chain.settle_completed _ _ hcompleted]
      rfl
    | false =>
      have hresult : (t.round service (.ok ())).result = .ok () := rfl
      have hundone := undone_of_unfailed under hresult hcompleted
      refine shown_back hlatest under.running hundone ?_ fun hne => ?_
      · show _ = { actor.seen with
          current := (t.actor.core.pending ++ service.chain.work).head?.getD actor.seen.current }
        rw [hcore, hseen, aftermath]
        cases hwork : t.actor.core.pending ++ service.chain.work with
        | nil =>
          rw [Chain.settle_last _ hcompleted hwork]
          rfl
        | cons state work =>
          rw [Chain.settle_next _ hcompleted hwork]
          rfl
      · -- Only a cancellation ends a refresh that has states left.
        by_contra hcancelled
        have hwork : ¬ t.actor.core.pending ++ service.chain.work = [] := hne
        simp only [Round.outcome, round, hcompleted, hwork, hcancelled, Bool.false_eq_true,
          if_false] at hfinal
        cases hfinal

theorem shown_step {slots : Nat} (seats : t.Seats slots) (ledger : t.Ledger) (shown : t.Shown)
    (move : Move) : (t.step move).Shown := by
  have hchange := change_step t move
  have hledger := ledger_change seats ledger hchange
  have htaken : t.cancelled = true → (t.step move).takings = t.takings :=
    fun h => takings_cancelled h move
  have keep := shown.keep hchange
  generalize t.step move = t' at hchange hledger htaken keep
  cases hchange with
  | nothing => exact shown
  | cancel => exact keep rfl rfl rfl
  | look c hphase hreply => exact keep rfl rfl rfl
  | hear c result hphase hreply => exact keep rfl rfl rfl
  | forgo c hphase => exact keep rfl rfl rfl
  | serve request queue hidle hcancelled hqueue => exact shown_of_service hledger rfl
  | next service state work hservice hcompleted hwork hcancelled =>
    exact shown_of_service hledger rfl
  | deed service hservice deed => exact shown_of_service hledger hservice
  | cut request queue hidle hqueue =>
    refine shown_cut shown ledger hidle ?_ rfl rfl
    -- A machine that was cancelled before would not have taken the request.
    by_contra hcancelled
    have hmore := htaken (Bool.not_eq_false _ ▸ hcancelled)
    rw [takings_conduct] at hmore
    exact List.cons_ne_self _ _ hmore
  | finish service result final hservice hfinal =>
    exact shown_finish ledger hservice hfinal rfl rfl
  | collapse service hservice =>
    -- The dispatch that panicked never comes back.
    obtain ⟨latest, earlier, hlatest, under⟩ := ledger.current service hservice
    have hstuck : ¬ (t.conduct t.actor.collapse.1 t.actor.collapse.2).AllBack := fun hback => by
      rw [AllBack, served_conduct, hlatest] at hback
      cases under.running.symm.trans (hback latest List.mem_cons_self)
    exact ⟨fun hback => absurd hback hstuck, fun hback => absurd hback hstuck⟩
  | _ => exact keep (served_conduct _ _) rfl rfl

/-! ## 3. The event of a stop -/

theorem core_ended (ledger : t.Ledger) (hchange : t.Change t') (h : t.actor.ended = true) :
    t'.actor.core = t.actor.core := by
  have hbusy : ∀ {service : Service}, t.actor.service ≠ some service := by
    rw [ledger.ended h]
    exact nofun
  have hidle : ¬ t.idle = true := fun hidle => by cases h.symm.trans (idle_iff.mp hidle).1
  cases hchange with
  | serve request queue hrests hcancelled hqueue => exact absurd hrests hidle
  | cut request queue hrests hqueue => exact absurd hrests hidle
  | deed service hservice deed => exact absurd hservice hbusy
  | finish service result final hservice hfinal => exact absurd hservice hbusy
  | next service state work hservice hcompleted hwork hcancelled => exact absurd hservice hbusy
  | _ => rfl

theorem stops_conduct {effects : List Effect} (actor : Actor)
    (h : ∀ event, Effect.publish event ∈ effects → event.kind ≠ .machineStopped) :
    (t.conduct actor effects).stops = t.stops :=
  filterMap_untold actor (fun _ => rfl) fun event hmem => if_neg (h event hmem)

theorem stops_leave : (t.conduct t.actor.leave.1 t.actor.leave.2).stops =
    (if t.hosted then [t.actor.core.stoppedEvent] else []) ++ t.stops := by
  unfold stops conduct Actor.leave
  cases t.hosted <;>
    simp [List.filterMap_append, Effect.entry, Occurrence.stop?, Core.stoppedEvent,
      Function.comp_def]

theorem stops_change (hchange : t.Change t') : t'.stops = t.stops ∨
    t.idle = true ∧ t' = t.conduct t.actor.leave.1 t.actor.leave.2 := by
  cases hchange with
  | leave hidle => exact .inr ⟨hidle, rfl⟩
  | overflow source hopen hfull =>
    exact .inl (stops_conduct _ (by simp [Core.overflowEvent]))
  | serve request queue hidle hcancelled hqueue =>
    exact .inl (stops_conduct _ (by simp [Core.tickEvent]))
  | next service state work hservice hcompleted hwork hcancelled =>
    exact .inl (stops_conduct _ (by simp [Core.tickEvent]))
  | finish service result final hservice hfinal =>
    refine .inl (stops_conduct _ fun event hmem => ?_)
    have hkind := kind_of_told ((List.mem_append.mp hmem).resolve_right (by simp))
    rcases hkind with h | h <;> simp [h]
  | collapse service hservice =>
    exact .inl (stops_conduct _ (by simp [Actor.collapse, hservice]))
  | _ => exact .inl (by first | rfl | exact stops_conduct _ (by simp))

/-- The stop that was told, if any, names the state in which the machine is. -/
def StopsHere (t : Traffic) : Prop :=
  ∀ event ∈ t.stops, t.actor.ended = true ∧ event = t.actor.core.stoppedEvent

theorem stopsHere_change (ledger : t.Ledger) (here : t.StopsHere) (hchange : t.Change t') :
    t'.StopsHere := by
  intro event hmem
  rcases stops_change hchange with hsame | ⟨hidle, rfl⟩
  · obtain ⟨hended, hevent⟩ := here event (hsame ▸ hmem)
    exact ⟨ended_change hchange hended, core_ended ledger hchange hended ▸ hevent⟩
  · refine ⟨rfl, ?_⟩
    rw [stops_leave] at hmem
    rcases List.mem_append.mp hmem with hmem | hmem
    · split at hmem
      · exact List.mem_singleton.mp hmem
      · cases hmem
    · cases (here event hmem).1.symm.trans (idle_iff.mp hidle).1

theorem shown_run {slots : Nat} (seats : t.Seats slots) (ledger : t.Ledger) (shown : t.Shown)
    (here : t.StopsHere) (moves : List Move) :
    (t.run moves).Shown ∧ (t.run moves).StopsHere := by
  induction moves generalizing t with
  | nil => exact ⟨shown, here⟩
  | cons move moves ih =>
    have hchange := change_step t move
    exact ih (seats_change seats hchange) (ledger_change seats ledger hchange)
      (shown_step seats ledger shown move) (stopsHere_change ledger here hchange)

end Traffic

/-- Whatever is asked of a machine, and whenever it is cancelled: when all its dispatches came back
and none is to follow, others see it as it is, as long as it is not cancelled.  A cancelled machine
that had states left to be dispatched is in the first one of them, although its dispatch never
comes; and one that was cancelled as it took a request has noted the state that others see as the
previous one of a refresh that never begins.  The event of its stop names the state in which the
machine is, so that it is not always the one that others see. -/
theorem snapshot_of_resting_machine (config : Config) (name initial : String) (hosted : Bool)
    (moves : List Traffic.Move)
    (hback : ((Traffic.start config name initial hosted).run moves).AllBack) :
    let t := (Traffic.start config name initial hosted).run moves
    let seen := t.actor.seen
    t.actor.service = none ∧
    t.actor.core.snapshot =
      { seen with
        current := t.stranded.getD seen.current
        previous := if t.unbegun then some seen.current else seen.previous } ∧
    (t.cancelled = false → t.stranded = none ∧ t.unbegun = false) ∧
    ∀ event ∈ t.stops, event =
      { kind := .machineStopped, name := some name
        state := some (t.stranded.getD seen.current) } := by
  intro t seen
  have seats := Traffic.seats_start config name initial hosted
  have ledger := Traffic.ledger_start config name initial hosted
  obtain ⟨shown, here⟩ : t.Shown ∧ t.StopsHere :=
    Traffic.shown_run seats ledger (Traffic.shown_start config name initial hosted)
      (fun _ h => by cases h) moves
  have hname : t.actor.core.name = name := Traffic.name_run _ moves
  have hcurrent : t.actor.core.current = t.stranded.getD seen.current :=
    congrArg Snapshot.current (shown.snapshot hback)
  refine ⟨(Traffic.ledger_run seats ledger moves).2.rests hback, shown.snapshot hback,
    fun hgoes => ?_, fun event hmem => ?_⟩
  · have hkept := mt (shown.cancelled hback) (Bool.eq_false_iff.mp hgoes)
    simpa using hkept
  · rw [(here event hmem).2, Core.stoppedEvent, hname, hcurrent]

/-- A machine that is cancelled in a dispatch which queued a state: it stops in a state that was
never dispatched, and in which nobody sees it. -/
theorem snapshot_of_resting_machine_stranded :
    let moves : List Traffic.Move :=
      [.call 0 "go", .turn false, .deed (.become "B"), .deed .closeTransition,
        .deed (.become "C"), .deed .closeTransition, .cancel, .settle (.ok ()), .turn false]
    let t := (Traffic.start {} "m" "A" true).run moves
    t.AllBack ∧ t.dispatches = [{ state := "A", source := "go" }] ∧
      t.actor.seen.current = "C" ∧ t.actor.core.current = "B" ∧
      t.stops = [{ kind := .machineStopped, name := some "m", state := some "B" }] := by
  intro moves t
  have hback : t.AllBack := by
    intro served hmem
    cases List.mem_singleton.mp hmem
    rfl
  have hmoved := (snapshot_of_resting_machine {} "m" "A" true moves hback).2.1
  exact ⟨hback, rfl, rfl, congrArg Snapshot.current hmoved, rfl⟩

end Sequencer
