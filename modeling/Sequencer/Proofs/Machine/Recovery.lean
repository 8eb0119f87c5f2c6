import Sequencer.Proofs.Machine.Likeness
import Sequencer.Proofs.Machine.Recursion

/-!
# Recovery — what a failed refresh leaves behind

A dispatch that fails ends its refresh, with states still queued: those that it queued itself and
those that were left on the work stack.  None of them is dispatched any more.  The machine stays
where the dispatch left it, serves the requests that follow, and has the same dispatches as a
machine that came there without a failure.
-/

namespace Sequencer

/-! ## 1. Where the dispatches of a service come from -/

namespace Served

variable {served : Served}

def ticks (served : Served) : List Tick :=
  served.rounds.map (·.toTick) ++ served.running.toList

/-- Every dispatch after the first one is of the state which those before it, in the same service,
left to be dispatched next. -/
def Fed (served : Served) : Prop :=
  ∀ count tick, 0 < count → served.ticks[count]? = some tick →
    (left (served.rounds.take count)).head? = some tick.state

theorem fed_of_no_rounds (h : served.rounds = []) : served.Fed := by
  intro count tick hpos htick
  have hlength := (List.getElem?_eq_some_iff.mp htick).1
  have hrunning : served.running.toList.length ≤ 1 := by cases served.running <;> simp
  rw [ticks, h, List.map_nil, List.nil_append] at hlength
  omega

theorem fed_settle {round : Round} (h : served.running = some round.toTick) (fed : served.Fed) :
    (served.settle round).Fed := by
  intro count tick hpos htick
  have hticks : (served.settle round).ticks = served.ticks := by simp [ticks, settle, h]
  rw [hticks] at htick
  have hcount : count ≤ served.rounds.length := by
    have hlt := (List.getElem?_eq_some_iff.mp htick).1
    simp [ticks, h] at hlt
    omega
  show (left ((served.rounds ++ [round]).take count)).head? = _
  rw [List.take_append_of_le_length hcount]
  exact fed count tick hpos htick

theorem fed_dispatch {tick : Tick} (h : served.running = none)
    (hnext : served.rounds ≠ [] → (left served.rounds).head? = some tick.state)
    (fed : served.Fed) : (served.dispatch tick).Fed := by
  intro count other hpos hother
  have hticks : (served.dispatch tick).ticks = served.ticks ++ [tick] := by
    simp [ticks, dispatch, h]
  have hlength : served.ticks.length = served.rounds.length := by simp [ticks, h]
  rw [hticks] at hother
  by_cases hlt : count < served.ticks.length
  · rw [List.getElem?_append_left hlt] at hother
    exact fed count other hpos hother
  · -- The dispatch that starts comes after all the others.
    have hcount : count = served.rounds.length := by
      have hbound := (List.getElem?_eq_some_iff.mp hother).1
      simp at hbound
      omega
    subst hcount
    rw [← hlength, List.getElem?_concat_length] at hother
    cases hother
    show (left (served.rounds.take served.rounds.length)).head? = _
    rw [List.take_length]
    exact hnext (List.ne_nil_of_length_pos hpos)

end Served

namespace Traffic

variable {t t' : Traffic} {service : Service} {earlier : List Served}

/-! ## 2. Services after a failure -/

/-- Since the services `earlier` were over, others came, and each of them was fed by itself. -/
def Since (earlier : List Served) (t : Traffic) : Prop :=
  ∃ later, t.served = later ++ earlier ∧ (∀ served ∈ later, served.Fed) ∧
    (t.actor.service ≠ none → later ≠ [])

theorem Since.keep (since : t.Since earlier) (hserved : t'.served = t.served)
    (hservice : t'.actor.service = t.actor.service ∨ t'.actor.service = none) :
    t'.Since earlier := by
  obtain ⟨later, hlater, hfed, hbusy⟩ := since
  refine ⟨later, hserved.trans hlater, hfed, fun hsome => hbusy ?_⟩
  rcases hservice with hsame | hnone
  · rwa [← hsame]
  · exact absurd hnone hsome

theorem Since.begin (since : t.Since earlier) {served : Served}
    (hserved : t'.served = served :: t.served) (hfed : served.Fed) : t'.Since earlier := by
  obtain ⟨later, hlater, hall, -⟩ := since
  exact ⟨served :: later, by rw [hserved, hlater]; rfl,
    List.forall_mem_cons.mpr ⟨hfed, hall⟩, fun _ => List.cons_ne_nil _ _⟩

theorem Since.latest (since : t.Since earlier) {latest next : Served} {others : List Served}
    (hservice : t.actor.service = some service) (hlatest : t.served = latest :: others)
    (hserved : t'.served = next :: others) (hfed : latest.Fed → next.Fed) : t'.Since earlier := by
  obtain ⟨later, hlater, hall, hbusy⟩ := since
  -- The service that goes on is one of the later ones: nothing goes on that was over.
  cases later with
  | nil => exact absurd rfl (hbusy (hservice ▸ Option.some_ne_none service))
  | cons first later =>
    rw [hlatest] at hlater
    cases hlater
    have hfirst := List.forall_mem_cons.mp hall
    exact ⟨next :: later, hserved, List.forall_mem_cons.mpr ⟨hfed hfirst.1, hfirst.2⟩,
      fun _ => List.cons_ne_nil _ _⟩

theorem since_change (since : t.Since earlier) (ledger : t.Ledger) (hchange : t.Change t') :
    t'.Since earlier := by
  cases hchange with
  | serve request queue hidle hcancelled hqueue =>
    have hfresh : (Served.dispatch { request }
        { state := t.actor.core.current, source := request.source }).Fed :=
      Served.fed_of_no_rounds rfl
    refine since.begin ?_ hfresh
    rw [served_dispatched, served_conduct, served_taken, List.modifyHead_cons]
  | cut request queue hidle hqueue =>
    have hfresh : Served.Fed { request } := Served.fed_of_no_rounds rfl
    exact since.begin (served_conduct _ _) hfresh
  | finish service result final hservice hfinal =>
    obtain ⟨latest, others, hlatest, under⟩ := ledger.current service hservice
    have hround : latest.running = some (t.round service result).toTick := under.running
    refine since.latest hservice hlatest ?_ (Served.fed_settle hround)
    rw [served_conduct, served_returned, hlatest, List.modifyHead_cons]
  | next service state work hservice hcompleted hwork hcancelled =>
    obtain ⟨latest, others, hlatest, under⟩ := ledger.current service hservice
    have hround : latest.running = some (t.round service (.ok ())).toTick := under.running
    have hfed : latest.Fed → ((latest.settle (t.round service (.ok ()))).dispatch
        { state, source := chainedSource }).Fed := fun hfed => by
      refine Served.fed_dispatch rfl (fun _ => ?_) (Served.fed_settle hround hfed)
      rw [Served.left_settle, ← under.work]
      exact congrArg List.head? hwork
    refine since.latest hservice hlatest ?_ hfed
    rw [served_dispatched, served_conduct, served_returned, hlatest, List.modifyHead_cons,
      List.modifyHead_cons]
  | deed service hservice deed => exact since.keep rfl (.inl rfl)
  | collapse service hservice => exact since.keep (served_conduct _ _) (.inr rfl)
  | nothing => exact since
  | cancel => exact since.keep rfl (.inl rfl)
  | look c hphase hreply => exact since.keep rfl (.inl rfl)
  | hear c result hphase hreply => exact since.keep rfl (.inl rfl)
  | forgo c hphase => exact since.keep rfl (.inl rfl)
  | _ => exact since.keep (served_conduct _ _) (.inl rfl)

theorem since_run {slots : Nat} (seats : t.Seats slots) (ledger : t.Ledger)
    (h : t.actor.service = none) (moves : List Move) : (t.run moves).Since t.served := by
  have hsince : t.Since t.served :=
    ⟨[], rfl, (fun _ hmem => by cases hmem), fun hbusy => absurd h hbusy⟩
  have hkept := run_induction (P := fun u => u.Seats slots ∧ u.Ledger ∧ u.Since t.served)
    (fun u u' ⟨seats, ledger, since⟩ hchange => ⟨seats_change seats hchange,
      ledger_change seats ledger hchange, since_change since ledger hchange⟩)
    ⟨seats, ledger, hsince⟩ moves
  exact hkept.2.2

/-! ## 3. The machine after a failure -/

theorem dispatches_turn {request : Request} {queue : List Request} (hidle : t.idle = true)
    (hcancelled : t.cancelled = false) (hqueue : t.actor.mailbox.queue = request :: queue)
    (orphaned : Bool) :
    (t.step (.turn orphaned)).dispatches =
      { state := t.actor.core.current, source := request.source } :: t.dispatches := by
  simp only [step, hidle, if_true, turn, Actor.turn, hcancelled, Bool.false_eq_true, if_false,
    Actor.serve, Mailbox.take, hqueue, Actor.startDispatch, Chain.start, Chain.begin, follow,
    noteTaken, noteDispatch]
  exact congrArg (List.cons _) (dispatches_conduct _ _)

theorem step_failed (h : t.actor.service = some service) (hlive : t.actor.ended = false)
    (hcompleted : t.actor.core.completed = false) (failure : Failure) :
    let u := t.step (.settle (.error failure))
    u.idle = true ∧ u.cancelled = t.cancelled ∧ u.actor.mailbox = t.actor.mailbox ∧
      u.actor.core = t.actor.core := by
  intro u
  have hactor : u.actor = { t.actor with
      service := none, seen := t.actor.core.snapshot, version := t.actor.version + 1 } := by
    show (t.step (.settle (.error failure))).actor = _
    simp only [step, h, settle, actor_follow, Actor.settle]
    rfl
  have hcancelled : u.cancelled = t.cancelled := by
    show (t.step (.settle (.error failure))).cancelled = _
    simp only [step, h, settle, cancelled_follow, Actor.settle]
    exact (congrArg (t.cancelled || ·) (cancels_finish service (.error failure)
      (.error failure))).trans (by rw [hcompleted, Bool.or_false])
  refine ⟨?_, hcancelled, by rw [hactor], by rw [hactor]⟩
  simp [idle, hactor, hlive]

end Traffic

/-! ## 4. Refreshes of a logic -/

/-- The dispatches of a refresh depend on where the machine is and what it dispatched last, and on
nothing else that it went through. -/
theorem Chain.dispatches_refresh_alike {σ : Type} {core other : Core} (alike : core.Alike other)
    (hcompleted : core.completed = false) (logic : Logic σ) (count : Nat) (source : String)
    (memory : σ) :
    (Chain.refresh logic count core source memory).1.dispatches =
      (Chain.refresh logic count other source memory).1.dispatches := by
  have hother : other.completed = false := alike.completed.symm.trans hcompleted
  -- The recursion that a refresh stands for does not look at anything else.
  rw [Chain.dispatches_refresh logic source memory hcompleted,
    Chain.dispatches_refresh logic source memory hother]
  simp only [Walk.refresh, alike.name, alike.current, alike.last]

/-- When a dispatch fails that did not complete the machine, wherever in its refresh and whatever is
queued by then, the machine rests as its logic left it, and requests are served as before.  Every
dispatch from then on belongs to a later service: the first one of a service is of the state in
which the machine is, and each other one is of a state that the service queued itself.  Every run
from then on has the same dispatches, and the logic sees the same in them, as in any machine that
agrees on where it is, what it dispatched last and who still asks it, and perhaps never failed; and
a refresh of any logic, with the same memory, has the same dispatches in the cores of both. -/
theorem failed_refresh_leaves_no_work (config : Config) (name initial : String) (hosted : Bool)
    (moves : List Traffic.Move) (service : Service) (failure : Failure)
    (hservice : ((Traffic.start config name initial hosted).run moves).actor.service = some service)
    (hcompleted :
      ((Traffic.start config name initial hosted).run moves).actor.core.completed = false) :
    let t := (Traffic.start config name initial hosted).run moves
    let u := t.step (.settle (.error failure))
    (u.idle = true ∧ u.cancelled = t.cancelled ∧ u.actor.mailbox = t.actor.mailbox ∧
      u.actor.core = t.actor.core) ∧
    (∀ more, ∃ later, (u.run more).served = later ++ u.served ∧ ∀ served ∈ later, served.Fed) ∧
    (∀ more request queue orphaned, (u.run more).idle = true → (u.run more).cancelled = false →
      (u.run more).actor.mailbox.queue = request :: queue →
      ((u.run more).step (.turn orphaned)).dispatches =
        { state := (u.run more).actor.core.current, source := request.source } ::
          (u.run more).dispatches) ∧
    (∀ w : Traffic, u.Alike w → ∀ more,
      (∃ started, (u.run more).dispatches = started ++ u.dispatches ∧
        (w.run more).dispatches = started ++ w.dispatches) ∧
      u.views more = w.views more) ∧
    ∀ (σ : Type) (logic : Logic σ) (count : Nat) (core : Core) (source : String) (memory : σ),
      u.actor.core.Alike core →
      (Chain.refresh logic count u.actor.core source memory).1.dispatches =
        (Chain.refresh logic count core source memory).1.dispatches := by
  intro t u
  obtain ⟨seats, ledger⟩ : t.Seats config.mailboxSlots ∧ t.Ledger :=
    Traffic.ledger_run (Traffic.seats_start config name initial hosted)
      (Traffic.ledger_start config name initial hosted) moves
  have hchange : t.Change u := Traffic.change_step t _
  have hfailed := Traffic.step_failed hservice (ledger.running hservice) hcompleted failure
  refine ⟨hfailed, fun more => ?_, fun more request queue orphaned hidle hcancelled hqueue => ?_,
    fun w alike more => ?_, fun σ logic count core source memory alike => ?_⟩
  · obtain ⟨later, hlater, hfed, -⟩ := Traffic.since_run (Traffic.seats_change seats hchange)
      (Traffic.ledger_change seats ledger hchange) (Traffic.idle_iff.mp hfailed.1).2 more
    exact ⟨later, hlater, hfed⟩
  · exact Traffic.dispatches_turn hidle hcancelled hqueue orphaned
  · obtain ⟨abreast, hviews⟩ := alike.run more
    exact ⟨abreast.dispatches, hviews⟩
  · have huncompleted : u.actor.core.completed = false := hfailed.2.2.2 ▸ hcompleted
    exact Chain.dispatches_refresh_alike alike huncompleted logic count source memory

/-- A failure in the second dispatch of a refresh, with a state queued by it and another one left on
the work stack, and a machine that came to the same state after the same dispatch without a
failure. -/
theorem failed_refresh_leaves_no_work_siblings :
    let moves : List Traffic.Move :=
      [.call 0 "go", .turn false, .deed (.become "B"), .deed .closeTransition,
        .deed (.become "C"), .deed .closeTransition, .settle (.ok ()), .deed (.become "D"),
        .deed .closeTransition]
    let service : Service :=
      { reply := some 0, chain := { source := "when", work := ["C"] }, state := "B" }
    let t := (Traffic.start {} "m" "A" true).run moves
    let u := t.step (.settle (.error (.failed "stuck")))
    let w := (Traffic.start {} "m" "B" true).run
      [.call 0 "go", .turn false, .deed (.become "D"), .settle (.ok ())]
    let more : List Traffic.Move := [.notify (.trigger "next"), .turn false]
    t.actor.service = some service ∧ t.actor.core.completed = false ∧
      u.actor.core.pending = ["D"] ∧ u.Alike w ∧
      w.views more = [{ machine := "m", state := "D", previous := some "D", entry := true }] ∧
      u.views more = w.views more := by
  intro moves service t u w more
  have alike : u.Alike w := by
    refine ⟨⟨⟨rfl, rfl, rfl, rfl⟩, rfl, rfl, rfl, (absurd rfl ·)⟩, rfl, fun c => ?_⟩
    cases c <;> rfl
  obtain ⟨-, -, -, hsame, -⟩ :=
    failed_refresh_leaves_no_work {} "m" "A" true moves service (.failed "stuck") rfl rfl
  exact ⟨rfl, rfl, rfl, alike, rfl, (hsame w alike more).2⟩

end Sequencer
