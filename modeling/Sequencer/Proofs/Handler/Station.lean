import Mathlib.Data.List.Basic
import Sequencer.Proofs.Handler.Standing

/-!
# Stations — a handler and the executions that share it

A handler is configured and executed in any order, and any number of its executions go on at the
same time, each at its own pace.  An execution that is abandoned gets no more replies.  What the
handler remembers is where one of them stands: the one that was the last to start an attempt or to
end.  That need not be the one that was started last.
-/

namespace Sequencer

variable {η ι α : Type}

/-! ## 1. A handler in use -/

/-- A handler, its executions by number, and what they did so far. -/
structure Station (η ι α : Type) where
  handler : Handler η
  courses : List (Course ι α) := []
  log : List (Nat × Course.Happening ι α) := []

namespace Station

inductive Move (η ι α : Type) where
  | configure (setting : Setting η)
  | start (input : ι)
  | reply (number : Nat) (reply : Course.Reply α)

def Move.isStart : Move η ι α → Bool
  | start _ => true
  | _ => false

def opened (handler : Handler η) : Station η ι α := { handler }

def configure (x : Station η ι α) (setting : Setting η) : Station η ι α :=
  match x.handler.configure setting with
  | .ok handler => { x with handler }
  | .error _ => x

def start (x : Station η ι α) (input : ι) : Station η ι α :=
  let (handler, course) := Course.start x.handler input
  { handler, courses := x.courses ++ [course],
    log := x.log ++ course.log.map (Prod.mk x.courses.length) }

def note (x : Station η ι α) (number : Nat) (handler : Handler η) (next : Course ι α)
    (happenings : List (Course.Happening ι α)) : Station η ι α :=
  { handler, courses := x.courses.set number next,
    log := x.log ++ happenings.map (Prod.mk number) }

def reply (x : Station η ι α) (number : Nat) (reply : Course.Reply α) : Station η ι α :=
  match x.courses[number]? with
  | none => x
  | some course =>
    match course.advance x.handler reply with
    | none => x
    | some (handler, next) => x.note number handler next (next.log.drop course.log.length)

/-- A step; one that cannot be taken changes nothing. -/
def step (x : Station η ι α) : Move η ι α → Station η ι α
  | .configure setting => x.configure setting
  | .start input => x.start input
  | .reply number back => x.reply number back

def run (x : Station η ι α) (moves : List (Move η ι α)) : Station η ι α := moves.foldl step x

end Station

/-- An attempt starts, or the execution ends. -/
def Event.isMilestone (event : Event) : Bool :=
  event.kind = .handlerStarting || event.kind = .handlerSucceeded ||
    event.kind = .handlerExhausted

def Course.Happening.isMilestone (happening : Course.Happening ι α) : Bool :=
  happening.event?.any Event.isMilestone

namespace Station

/-- The executions that started an attempt or ended, in order. -/
def movers (x : Station η ι α) : List Nat :=
  x.log.filterMap fun entry => if entry.2.isMilestone then some entry.1 else none

variable {x y : Station η ι α} {move : Move η ι α} {number : Nat} {course : Course ι α}

/-! ## 2. What a step can do -/

inductive Change (x : Station η ι α) : Move η ι α → Station η ι α → Prop where
  | nothing (move : Move η ι α) (other : move.isStart = false) : Change x move x
  | configures (setting : Setting η) (idle : x.handler.started = false) :
      Change x (.configure setting) { x with handler := x.handler.apply setting }
  | starts (input : ι) : Change x (.start input) (x.start input)
  | goesOn (number : Nat) (course : Course ι α) (back : Course.Reply α) (turn : Handler.Turn η)
      (here : x.courses[number]? = some course) (turns : course.Turns x.handler back turn) :
      Change x (.reply number back)
        (x.note number turn.handler (course.goOn x.handler back turn)
          (course.news x.handler back turn))

theorem change_step (x : Station η ι α) (move : Move η ι α) : x.Change move (x.step move) := by
  cases move with
  | configure setting =>
    show x.Change _ (x.configure setting)
    unfold configure Handler.configure
    cases hstarted : x.handler.started with
    | true => exact .nothing _ rfl
    | false => exact .configures setting hstarted
  | start input => exact .starts input
  | reply number back =>
    show x.Change _ (x.reply number back)
    unfold reply
    split
    · exact .nothing _ rfl
    · next course hhere =>
      split
      · exact .nothing _ rfl
      · next handler next hadvance =>
        obtain ⟨turn, turns, rfl, rfl⟩ := Course.advance_cases hadvance
        rw [show (course.goOn x.handler back turn).log.drop course.log.length =
          course.news x.handler back turn from List.drop_left]
        exact .goesOn number course back turn hhere turns

/-- A handler with an execution has started, and refuses every setting. -/
def Frozen (x : Station η ι α) : Prop := x.courses ≠ [] → x.handler.started = true

theorem Frozen.change (frozen : x.Frozen) (change : x.Change move y) : y.Frozen := by
  cases change with
  | nothing => exact frozen
  | configures setting idle =>
    intro hne
    rw [frozen hne] at idle
    cases idle
  | starts input => exact fun _ => rfl
  | goesOn number course back turn here turns =>
    intro _
    have hne : x.courses ≠ [] := fun hnil => by
      rw [hnil] at here
      cases here
    refine Eq.trans ?_ (frozen hne)
    cases turns <;> rfl

/-- What is kept by every step is kept by a run. -/
theorem run_induction {P : Station η ι α → Prop}
    (change : ∀ x move y, P x → x.Change move y → P y) (h : P x) (moves : List (Move η ι α)) :
    P (x.run moves) := by
  induction moves generalizing x with
  | nil => exact h
  | cons move moves ih => exact ih (change _ _ _ h (change_step x move))

/-! ## 3. Who moved last -/

theorem movers_note (x : Station η ι α) (number : Nat) (handler : Handler η) (next : Course ι α)
    (happenings : List (Course.Happening ι α)) :
    (x.note number handler next happenings).movers = x.movers ++
      happenings.filterMap fun happening =>
        if happening.isMilestone then some number else none := by
  show (x.log ++ _).filterMap _ = _
  rw [List.filterMap_append, List.filterMap_map]
  rfl

theorem movers_start (x : Station η ι α) (input : ι) :
    (x.start input).movers = x.movers ++ [x.courses.length] := by
  show (x.log ++ _).filterMap _ = _
  rw [List.filterMap_append]
  rfl

/-- A turn tells that an attempt starts or the execution ends exactly if it leaves in the handler
where the execution stands. -/
theorem milestones_news {handler : Handler η} {back : Course.Reply α} {turn : Handler.Turn η}
    (turns : course.Turns handler back turn) (number : Nat) :
    ((course.news handler back turn).filterMap fun happening =>
        if happening.isMilestone then some number else none) =
      if turn.move.isRecorded then [number] else [] := by
  have hread : (fun happening : Course.Happening ι α =>
      if happening.isMilestone then some number else none) = fun happening =>
        happening.event?.bind fun event => if event.isMilestone then some number else none := by
    funext happening
    cases happening <;> rfl
  rw [hread, ← List.filterMap_filterMap, Course.news_events]
  cases turns <;> rfl

/-- The handler remembers where the execution stands that moved last. -/
def Remembers (x : Station η ι α) : Prop :=
  match x.movers.getLast? with
  | none => x.courses = [] ∧ x.handler.last = .idle
  | some number => ∃ course, x.courses[number]? = some course ∧ x.handler.last = course.state

structure Settled (x : Station η ι α) : Prop where
  frozen : x.Frozen
  counted : ∀ course ∈ x.courses, course.Counted x.handler.retries
  remembers : x.Remembers

theorem remembers_start (x : Station η ι α) (input : ι) : (x.start input).Remembers := by
  unfold Remembers
  rw [movers_start, List.getLast?_concat]
  exact ⟨_, List.getElem?_concat_length, rfl⟩

theorem Remembers.goOn (remembers : x.Remembers) {back : Course.Reply α} {turn : Handler.Turn η}
    (here : x.courses[number]? = some course) (turns : course.Turns x.handler back turn) :
    (x.note number turn.handler (course.goOn x.handler back turn)
      (course.news x.handler back turn)).Remembers := by
  have hlt := (List.getElem?_eq_some_iff.mp here).1
  unfold Remembers
  rw [movers_note, milestones_news turns]
  rcases turns.last with ⟨hrecorded, hlast⟩ | ⟨hrecorded, hhandler, hstate⟩
  · rw [hrecorded, if_pos rfl, List.getLast?_concat]
    exact ⟨_, List.getElem?_set_self hlt, hlast⟩
  · -- The handler is left alone, and so is where the execution stands.
    rw [hrecorded, if_neg Bool.false_ne_true, List.append_nil]
    unfold Remembers at remembers
    cases hmover : x.movers.getLast? with
    | none =>
      rw [hmover] at remembers
      rw [remembers.1] at here
      cases here
    | some mover =>
      rw [hmover] at remembers
      obtain ⟨other, hother, hremembered⟩ := remembers
      by_cases hsame : number = mover
      · subst hsame
        cases here.symm.trans hother
        refine ⟨_, List.getElem?_set_self hlt, ?_⟩
        show turn.handler.last = turn.state
        rw [hhandler, hstate, hremembered]
      · refine ⟨other, (List.getElem?_set_ne hsame).trans hother, ?_⟩
        show turn.handler.last = other.state
        rw [hhandler, hremembered]

theorem Settled.change (settled : x.Settled) (change : x.Change move y) : y.Settled := by
  refine ⟨settled.frozen.change change, ?_, ?_⟩
  · cases change with
    | nothing => exact settled.counted
    | configures setting idle =>
      intro course hmem
      rw [settled.frozen (List.ne_nil_of_mem hmem)] at idle
      cases idle
    | starts input =>
      intro course hmem
      rcases List.mem_append.mp hmem with hmem | hmem
      · exact settled.counted course hmem
      · rw [List.mem_singleton.mp hmem]
        exact Course.counted_start x.handler input
    | goesOn number course back turn here turns =>
      intro other hmem
      show other.Counted turn.handler.retries
      rw [Handler.retries_eq_of_fresh turns.fresh]
      rcases List.mem_or_eq_of_mem_set hmem with hmem | rfl
      · exact settled.counted other hmem
      · exact (settled.counted course (List.mem_of_getElem? here)).goOn turns
  · cases change with
    | nothing => exact settled.remembers
    | configures setting idle =>
      have hlast : (x.handler.apply setting).last = x.handler.last := by cases setting <;> rfl
      unfold Remembers
      rw [hlast]
      exact settled.remembers
    | starts input => exact remembers_start x input
    | goesOn number course back turn here turns => exact settled.remembers.goOn here turns

theorem settled_opened (handler : Handler η) :
    (opened handler.fresh : Station η ι α).Settled where
  frozen hne := absurd rfl hne
  counted _ hmem := absurd hmem List.not_mem_nil
  remembers := ⟨rfl, rfl⟩

theorem settled_run (handler : Handler η) (moves : List (Move η ι α)) :
    ((opened handler.fresh : Station η ι α).run moves).Settled :=
  run_induction (fun _ _ _ settled change => settled.change change) (settled_opened handler) moves

/-- An execution that was started does not stand where none was. -/
theorem Settled.idle_iff (settled : x.Settled) : x.handler.last = .idle ↔ x.courses = [] := by
  have remembers := settled.remembers
  unfold Remembers at remembers
  split at remembers
  · exact iff_of_true remembers.2 remembers.1
  · next number hmover =>
    obtain ⟨course, hhere, hlast⟩ := remembers
    have hmem := List.mem_of_getElem? hhere
    refine iff_of_false (fun hidle => ?_) (List.ne_nil_of_mem hmem)
    rw [hlast, (settled.counted course hmem).state] at hidle
    unfold Course.standing at hidle
    split at hidle <;> cases hidle

theorem Settled.mover (settled : x.Settled) (h : x.courses ≠ []) :
    ∃ number course, x.movers.getLast? = some number ∧ x.courses[number]? = some course ∧
      x.handler.last = course.state := by
  have remembers := settled.remembers
  unfold Remembers at remembers
  split at remembers
  · exact absurd remembers.1 h
  · next number hmover =>
    obtain ⟨course, hhere, hlast⟩ := remembers
    exact ⟨number, course, hmover, hhere, hlast⟩

/-! ## 4. One after the other -/

theorem getElem?_concat_cases {older : List (Course ι α)} {newest : Course ι α}
    (h : (older ++ [newest])[number]? = some course) :
    older[number]? = some course ∨ (number = older.length ∧ course = newest) := by
  rw [List.getElem?_append] at h
  split at h
  · exact .inl h
  · rw [List.getElem?_singleton] at h
    split at h
    · exact .inr ⟨by omega, (Option.some.inj h).symm⟩
    · cases h

/-- While only the newest execution goes on, the handler remembers where that stands. -/
theorem newest_run {older : List (Course ι α)} {later : List (Move η ι α)}
    (hnewest : ∃ newest, x.courses = older ++ [newest] ∧ x.handler.last = newest.state)
    (holder : ∀ number course, older[number]? = some course →
      course.ending.isSome ∨ ∀ back, .reply number back ∉ later)
    (hstart : ∀ move ∈ later, move.isStart = false) :
    ∃ newest, (x.run later).courses = older ++ [newest] ∧
      (x.run later).handler.last = newest.state := by
  induction later generalizing x with
  | nil => exact hnewest
  | cons move later ih =>
    refine ih ?_ (fun number course h => (holder number course h).imp_right fun hnone back hmem =>
      hnone back (List.mem_cons_of_mem _ hmem)) fun other hmem =>
        hstart other (List.mem_cons_of_mem _ hmem)
    obtain ⟨newest, hcourses, hlast⟩ := hnewest
    have hchange := change_step x move
    generalize x.step move = y at hchange
    cases hchange with
    | nothing => exact ⟨newest, hcourses, hlast⟩
    | configures setting idle =>
      exact ⟨newest, hcourses, Eq.trans (by cases setting <;> rfl) hlast⟩
    | starts input => cases hstart _ List.mem_cons_self
    | goesOn number course back turn here turns =>
      rw [hcourses] at here
      rcases getElem?_concat_cases here with hold | ⟨rfl, rfl⟩
      · -- An older execution is over, or gets no reply.
        rcases holder number course hold with hended | hnone
        · rw [turns.ending] at hended
          cases hended
        · exact absurd List.mem_cons_self (hnone back)
      · refine ⟨course.goOn x.handler back turn, ?_, ?_⟩
        · show x.courses.set _ _ = _
          rw [hcourses, List.set_append_right _ _ (Nat.le_refl _), Nat.sub_self]
          rfl
        · show turn.handler.last = turn.state
          rcases turns.last with ⟨-, hrecorded⟩ | ⟨-, hhandler, hstate⟩
          · exact hrecorded
          · rw [hhandler, hstate, hlast]

end Station

/-- A new handler after any settings and executions, which go on beside each other at any pace.  It
remembers nothing exactly if no execution was started, and otherwise where the execution stands that
was the last to start an attempt or to end.  That is the newest one as long as every older one is
over or gets no more replies. -/
theorem remembers_execution_that_moved_last (handler : Handler η)
    (moves : List (Station.Move η ι α)) :
    let x := (Station.opened handler.fresh).run moves
    (x.handler.last = .idle ↔ x.courses = []) ∧
    (x.courses ≠ [] → ∃ number course, x.movers.getLast? = some number ∧
      x.courses[number]? = some course ∧ x.handler.last = course.state) ∧
    ∀ input later,
      (∀ number course, x.courses[number]? = some course →
        course.ending.isSome ∨ ∀ back, .reply number back ∉ later) →
      (∀ move ∈ later, move.isStart = false) →
      let y := (x.step (.start input)).run later
      ∃ newest, y.courses = x.courses ++ [newest] ∧ y.handler.last = newest.state := by
  intro x
  have settled : x.Settled := Station.settled_run handler moves
  exact ⟨settled.idle_iff, settled.mover, fun input later holder hstart =>
    Station.newest_run ⟨_, rfl, rfl⟩ holder hstart⟩

/-- Two executions go on side by side.  The newer one is at its first attempt while the older one
starts its second, and it is the older one that the handler remembers. -/
theorem remembers_execution_that_moved_last_overlap :
    let x := (Station.opened ({ name := "shared", retries := 1 } : Handler Unit).fresh).run
      [.start 1, .start 2, .reply 0 (.answer (.error (.failed "no"))), .reply 0 (.seen 0),
        .reply 0 .rested]
    (x.courses.map Course.state = [.running 2, .running 1]) ∧
      ∃ course : Course Nat String, x.courses[0]? = some course ∧
        x.handler.last = course.state ∧ x.handler.last = .running 2 := by
  intro x
  have hstates : x.courses.map Course.state = [.running 2, .running 1] := by decide +kernel
  have hmovers : x.movers.getLast? = some 0 := by decide +kernel
  have hne : x.courses ≠ [] := fun hnil => by
    rw [hnil] at hstates
    cases hstates
  obtain ⟨number, course, hmover, hhere, hlast⟩ :=
    (remembers_execution_that_moved_last ({ name := "shared", retries := 1 } : Handler Unit)
      _).2.1 hne
  cases hmovers.symm.trans hmover
  have hstate : course.state = .running 2 := by
    have hfirst : (x.courses.map Course.state)[0]? = some course.state := by
      rw [List.getElem?_map, hhere]
      rfl
    rw [hstates] at hfirst
    exact (Option.some.inj hfirst).symm
  exact ⟨hstates, course, hhere, hlast, hlast.trans hstate⟩

end Sequencer
