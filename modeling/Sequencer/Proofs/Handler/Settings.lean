import Mathlib.Data.List.Induction
import Sequencer.Proofs.Handler.Isolation
import Sequencer.Proofs.Handler.Posts
import Sequencer.Rehearsal.Steps

/-!
# Settings — what all executions of a handler go by

The settings made before the first execution of a handler decide its retries, its backoff and its
observer, each by the last setting that names it.  All settings after that are refused, so every
execution, whenever it was started and however long it takes, goes by the same three.
-/

namespace Sequencer

variable {η ι α : Type}

/-! ## 1. What settings name -/

namespace Setting

def retries? : Setting η → Option Nat
  | retry count => some count
  | retryInterval count _ => some count
  | retryBackoff count _ => some count
  | onError _ => none

def backoff? : Setting η → Option Backoff
  | retryInterval _ interval => some (.constant interval)
  | retryBackoff _ backoff => some backoff
  | _ => none

def observer? : Setting η → Option η
  | onError observer => some observer
  | _ => none

end Setting

namespace Handler

/-- A new handler with settings: of each part, what the last setting that names it says. -/
def ofSettings (name : String) (inherited : Backoff) (settings : List (Setting η)) : Handler η where
  name := name
  retries := (settings.filterMap Setting.retries?).getLast?.getD 0
  backoff := (settings.filterMap Setting.backoff?).getLast?.getD inherited
  observer := (settings.filterMap Setting.observer?).getLast?

variable {handler : Handler η}

theorem ofSettings_concat (name : String) (inherited : Backoff) (settings : List (Setting η))
    (setting : Setting η) :
    ofSettings name inherited (settings ++ [setting]) =
      (ofSettings name inherited settings).apply setting := by
  cases setting <;> simp [ofSettings, apply, Setting.retries?, Setting.backoff?, Setting.observer?]

/-- Settings one after the other. -/
theorem foldl_apply (name : String) (inherited : Backoff) (settings : List (Setting η)) :
    settings.foldl apply { name, backoff := inherited } = ofSettings name inherited settings := by
  induction settings using List.reverseRecOn with
  | nil => rfl
  | append_singleton settings setting ih =>
    rw [List.foldl_append, ih, ofSettings_concat]
    rfl

theorem started_apply (handler : Handler η) (setting : Setting η) :
    (handler.apply setting).started = handler.started := by
  cases setting <;> rfl

theorem configure_idle (idle : handler.started = false) (setting : Setting η) :
    handler.configure setting = .ok (handler.apply setting) := by
  rw [configure, idle, if_neg Bool.false_ne_true]

/-- A handler that has not started refuses none of its settings. -/
theorem configureAll_idle (idle : handler.started = false) (settings : List (Setting η)) :
    handler.configureAll settings = (settings.foldl apply handler, .ok ()) := by
  induction settings generalizing handler with
  | nil => rfl
  | cons setting settings ih =>
    rw [configureAll, configure_idle idle]
    exact ih ((started_apply handler setting).trans idle)

theorem fresh_of_unused (idle : handler.started = false) (unused : handler.last = .idle) :
    handler.fresh = handler := by
  cases handler
  cases idle
  cases unused
  rfl

end Handler

/-! ## 2. Executions that go by settings -/

namespace Course

variable {course : Course ι α} {handler other : Handler η}

/-- An execution after a reply; one that it does not wait for changes nothing. -/
def hear (handler : Handler η) (course : Course ι α) (reply : Reply α) : Course ι α :=
  ((course.advance handler reply).map Prod.snd).getD course

/-- An execution of the handler after replies, in order. -/
def played (handler : Handler η) (input : ι) (replies : List (Reply α)) : Course ι α :=
  replies.foldl (hear handler) (start handler input).2

theorem hear_of_fresh (h : other.fresh = handler.fresh) (course : Course ι α) (reply : Reply α) :
    course.hear other reply = course.hear handler reply := by
  unfold hear
  cases hadvance : course.advance handler reply with
  | some pair =>
    obtain ⟨handler, next⟩ := pair
    obtain ⟨turn, turns, -, rfl⟩ := advance_cases hadvance
    obtain ⟨after, hother⟩ := advance_of_fresh turns h
    rw [hother]
    rfl
  | none =>
    cases hother : course.advance other reply with
    | none => rfl
    | some pair =>
      obtain ⟨other, next⟩ := pair
      obtain ⟨turn, turns, -⟩ := advance_cases hother
      obtain ⟨after, hhandler⟩ := advance_of_fresh turns h.symm
      cases hadvance.symm.trans hhandler

theorem hear_funext (h : other.fresh = handler.fresh) :
    (hear other : Course ι α → Reply α → Course ι α) = hear handler :=
  funext fun course => funext (hear_of_fresh h course)

theorem start_of_fresh (h : other.fresh = handler.fresh) (input : ι) :
    (start other input : _ × Course ι α).2 = (start handler input).2 := by
  rw [eq_of_fresh h]
  rfl

/-- Of its handler an execution depends on the settings only. -/
theorem played_of_fresh (h : other.fresh = handler.fresh) (input : ι) (replies : List (Reply α)) :
    played other input replies = played handler input replies := by
  unfold played
  rw [hear_funext h, start_of_fresh h]

end Course

/-! ## 3. Settings that hold -/

namespace Station

def Move.setting? : Move η ι α → Option (Setting η)
  | configure setting => some setting
  | _ => none

/-- The reply that is for the execution with a number. -/
def Move.replyTo? (number : Nat) : Move η ι α → Option (Course.Reply α)
  | reply other back => if other = number then some back else none
  | _ => none

/-- The settings before the first execution. -/
def settings (moves : List (Move η ι α)) : List (Setting η) :=
  (moves.takeWhile fun move => !move.isStart).filterMap Move.setting?

variable {x y : Station η ι α} {move : Move η ι α} {number : Nat} {course : Course ι α}

theorem run_append (x : Station η ι α) (before after : List (Move η ι α)) :
    x.run (before ++ after) = (x.run before).run after :=
  List.foldl_append

/-- What a handler that has started goes by is settled. -/
theorem settled_change (started : x.handler.started = true) (change : x.Change move y) :
    y.handler.started = true ∧ y.handler.fresh = x.handler.fresh := by
  cases change with
  | nothing => exact ⟨started, rfl⟩
  | configures setting idle => cases idle.symm.trans started
  | starts input => exact ⟨rfl, rfl⟩
  | goesOn number course back turn here turns =>
    refine ⟨Eq.trans ?_ started, turns.fresh⟩
    cases turns <;> rfl

theorem fresh_run (started : x.handler.started = true) (moves : List (Move η ι α)) :
    (x.run moves).handler.started = true ∧ (x.run moves).handler.fresh = x.handler.fresh :=
  run_induction (P := fun y => y.handler.started = true ∧ y.handler.fresh = x.handler.fresh)
    (fun _ _ _ settled change =>
      have after := settled_change settled.1 change
      ⟨after.1, after.2.trans settled.2⟩) ⟨started, rfl⟩ moves

/-! ## 4. Executions under settings -/

theorem getElem?_reply (here : x.courses[number]? = some course) (other : Nat)
    (back : Course.Reply α) :
    (x.reply other back).courses[number]? =
      some (if other = number then course.hear x.handler back else course) := by
  have hlt := (List.getElem?_eq_some_iff.mp here).1
  unfold reply
  by_cases hsame : other = number
  · subst hsame
    rw [if_pos rfl, here, Course.hear]
    simp only
    cases course.advance x.handler back with
    | none => exact here
    | some pair => exact List.getElem?_set_self hlt
  · rw [if_neg hsame]
    split
    · exact here
    · split
      · exact here
      · exact (List.getElem?_set_ne hsame).trans here

/-- A move concerns an execution that was started only if it is a reply to it. -/
theorem getElem?_step (here : x.courses[number]? = some course) (move : Move η ι α) :
    (x.step move).courses[number]? =
      some ((move.replyTo? number).elim course (course.hear x.handler)) := by
  cases move with
  | configure setting =>
    refine Eq.trans ?_ here
    show (x.configure setting).courses[number]? = _
    unfold configure
    split <;> rfl
  | start input =>
    exact (List.getElem?_append_left (List.getElem?_eq_some_iff.mp here).1).trans here
  | reply other back =>
    refine (getElem?_reply here other back).trans (congrArg some ?_)
    by_cases hsame : other = number <;> simp [Move.replyTo?, hsame]

theorem getElem?_run (started : x.handler.started = true)
    (here : x.courses[number]? = some course) (moves : List (Move η ι α)) :
    (x.run moves).courses[number]? =
      some ((moves.filterMap (Move.replyTo? number)).foldl (Course.hear x.handler) course) := by
  -- By induction on the moves: what the execution goes by stays the same meanwhile.
  induction moves generalizing x course with
  | nil => exact here
  | cons move moves ih =>
    obtain ⟨hstarted, hfresh⟩ := settled_change started (change_step x move)
    refine (ih hstarted (getElem?_step here move)).trans ?_
    rw [Course.hear_funext hfresh, List.filterMap_cons]
    cases move.replyTo? number <;> rfl

theorem length_run (x : Station η ι α) (moves : List (Move η ι α)) :
    (x.run moves).courses.length = x.courses.length + moves.countP Move.isStart := by
  induction moves generalizing x with
  | nil => rfl
  | cons move moves ih =>
    refine (ih (x.step move)).trans ?_
    rw [List.countP_cons]
    have hstep : (x.step move).courses.length =
        x.courses.length + if move.isStart then 1 else 0 := by
      have hchange := change_step x move
      generalize x.step move = y at hchange
      cases hchange with
      | nothing _ hother => rw [hother]; rfl
      | configures setting idle => rfl
      | starts input => exact List.length_append
      | goesOn number course back turn here turns => exact List.length_set
    omega

/-- A handler that was not executed takes all settings up to its first execution. -/
theorem handler_run (idle : x.handler.started = false) (unused : x.courses = [])
    (moves : List (Move η ι α)) :
    (x.run moves).handler.started = moves.any Move.isStart ∧
      (x.run moves).handler.fresh = ((settings moves).foldl Handler.apply x.handler).fresh := by
  induction moves generalizing x with
  | nil => exact ⟨idle, rfl⟩
  | cons move moves ih =>
    cases move with
    | configure setting =>
      have hstep : x.step (.configure setting) = { x with handler := x.handler.apply setting } := by
        show x.configure setting = _
        unfold configure
        rw [Handler.configure_idle idle]
      show ((x.step _).run moves).handler.started = _ ∧ ((x.step _).run moves).handler.fresh = _
      rw [hstep]
      exact ih ((Handler.started_apply x.handler setting).trans idle) unused
    | start input =>
      -- The first execution: none of the later moves changes a setting.
      exact fresh_run rfl moves
    | reply number back =>
      -- There is no execution yet that the reply could be for.
      have hstep : x.step (.reply number back) = x := by
        show x.reply number back = x
        unfold reply
        rw [unused]
        rfl
      show ((x.step _).run moves).handler.started = _ ∧ ((x.step _).run moves).handler.fresh = _
      rw [hstep]
      exact ih idle unused

/-- An execution that moves start, after the others, and the replies to it that come then. -/
theorem getElem?_run_start (x : Station η ι α) (before : List (Move η ι α)) (input : ι)
    (after : List (Move η ι α)) (empty : x.courses = []) :
    (x.run (before ++ .start input :: after)).courses[before.countP Move.isStart]? =
      some (Course.played (x.run (before ++ .start input :: after)).handler input
        (after.filterMap (Move.replyTo? (before.countP Move.isStart)))) := by
  have hnumber : (x.run before).courses.length = before.countP Move.isStart := by
    rw [length_run, empty]
    exact Nat.zero_add _
  have here : ((x.run before).start input).courses[before.countP Move.isStart]? =
      some (Course.start (x.run before).handler input).2 := by
    rw [← hnumber]
    exact List.getElem?_concat_length
  have hfresh : ((x.run before).start input).handler.fresh = (x.run before).handler.fresh := rfl
  rw [run_append]
  show (((x.run before).start input).run after).courses[_]? = some (Course.played
    (((x.run before).start input).run after).handler input _)
  rw [getElem?_run rfl here, Course.played_of_fresh (fresh_run rfl after).2]
  rw [Course.played_of_fresh hfresh, Course.hear_funext hfresh]
  rfl

end Station

/-- All executions of a handler go by the settings that were made before the first of them.  A new
handler, with the backoff that it inherits, is set, executed and replied to in any order.  Each of
its retries, backoff and observer is what the last setting before the first execution says that
names it, and until then every setting is taken.  From then on every setting is refused with the
name of the handler, and changes nothing.  An execution, counted by those started before it, is one
of a new handler with these settings, with its own input and the replies to it.  The handler of a
command in a registry is set and executed in this way too, and a handler of a scenario, made through
a host or on its own, takes the settings with which it is made. -/
theorem settings_hold_for_every_execution {ω : Type} (name : String) (inherited : Backoff)
    (moves : List (Station.Move η ι α)) :
    let x := (Station.opened { name, backoff := inherited }).run moves
    let settled := Handler.ofSettings name inherited (Station.settings moves)
    x.handler.fresh = settled ∧
    (∀ setting, x.handler.configure setting =
      if moves.any Station.Move.isStart then .error (.handlerStarted name)
      else .ok (Handler.ofSettings name inherited (Station.settings moves ++ [setting]))) ∧
    (moves.any Station.Move.isStart → ∀ setting, x.step (.configure setting) = x) ∧
    x.courses.length = moves.countP Station.Move.isStart ∧
    (∀ before input after, moves = before ++ .start input :: after →
      let number := before.countP Station.Move.isStart
      x.courses[number]? = some (Course.played settled input
        (after.filterMap (Station.Move.replyTo? number)))) ∧
    (∀ hosted (deeds : List (Desk.Move η ω ι)) post,
      let desk := (Desk.opened hosted inherited).run deeds
      desk.registry.get? name = some post →
      let used : Station η ι Unit := (Station.opened { name, backoff := inherited }).run
        ((Desk.opened hosted inherited).uses name deeds)
      post.handler = used.handler ∧ desk.courses name = used.courses) ∧
    ∀ (stage : Stage) (settings : List (Setting (List Act))),
      (stage.newHandler name).configureAll settings =
        (Handler.ofSettings name (if stage.hosted then stage.config.backoff else .immediate)
          settings, .ok ()) := by
  intro x settled
  obtain ⟨hstarted, hfresh⟩ : x.handler.started = moves.any Station.Move.isStart ∧
      x.handler.fresh = settled := by
    have hrun := Station.handler_run (x := Station.opened { name, backoff := inherited }) rfl rfl
      moves
    rw [show (Station.opened { name, backoff := inherited } : Station η ι α).handler =
      { name, backoff := inherited } from rfl, Handler.foldl_apply] at hrun
    exact hrun
  have hname : x.handler.name = name := congrArg (·.name) hfresh
  have hlength : x.courses.length = moves.countP Station.Move.isStart := by
    rw [Station.length_run]
    exact Nat.zero_add _
  have hrefuses : moves.any Station.Move.isStart → ∀ setting,
      x.handler.configure setting = .error (.handlerStarted name) := by
    intro hany setting
    rw [Handler.configure, hstarted, hany, hname]
    rfl
  refine ⟨hfresh, fun setting => ?_, fun hany setting => ?_, hlength,
    fun before input after hmoves => ?_, fun hosted deeds post hpost => ?_,
    fun stage settings => ?_⟩
  · by_cases hany : moves.any Station.Move.isStart
    · rw [if_pos hany]
      exact hrefuses hany setting
    · -- Up to the first execution the handler is the one that the settings make.
      have hcourses : x.courses = [] := by
        rw [← List.length_eq_zero_iff, hlength, List.countP_eq_zero]
        exact fun move hmem hstart => hany (List.any_eq_true.mpr ⟨move, hmem, hstart⟩)
      have hlast : x.handler.last = .idle :=
        (Station.settled_run { name, backoff := inherited } moves).idle_iff.mpr hcourses
      rw [Bool.not_eq_true] at hany
      rw [hany] at hstarted
      have hhandler : x.handler = settled :=
        (Handler.fresh_of_unused hstarted hlast).symm.trans hfresh
      rw [hany, if_neg Bool.false_ne_true, Handler.configure_idle hstarted, hhandler,
        Handler.ofSettings_concat]
  · show x.configure setting = x
    unfold Station.configure
    rw [hrefuses hany setting]
  · subst hmoves
    refine (Station.getElem?_run_start _ before input after rfl).trans (congrArg some ?_)
    exact Course.played_of_fresh hfresh input _
  · have shows := Desk.shows_run (Desk.shows_opened hosted inherited name) deeds
    exact ⟨shows.handler post hpost, shows.courses⟩
  · rw [Handler.configureAll_idle rfl, Stage.newHandler, Handler.foldl_apply]

/-- Three settings, an execution, a setting that comes too late and another execution; and a handler
in a registry that is set too late. -/
theorem settings_hold_for_every_execution_late :
    let moves : List (Station.Move String Nat String) :=
      [.configure (.retryInterval 1 (.ofMillis 5)), .configure (.onError "log"),
        .configure (.retry 2), .start 1, .configure (.retry 9),
        .reply 0 (.answer (.error (.failed "no"))), .start 2]
    let deeds : List (Desk.Move String String Nat) :=
      [.register "home" "axis", .configure "home" (.retry 2), .dispatch "c-1" "home" 1,
        .configure "home" (.retry 9)]
    let x := (Station.opened { name := "home" }).run moves
    let settled : Handler String :=
      { name := "home", retries := 2, backoff := .constant (.ofMillis 5), observer := some "log" }
    let used : Station String Nat Unit := (Station.opened { name := "home" }).run
      [.configure (.retry 2), .start 1, .configure (.retry 9)]
    x.handler.fresh = settled ∧
    (∀ setting, x.handler.configure setting = .error (.handlerStarted "home") ∧
      x.step (.configure setting) = x) ∧
    x.courses[0]? = some (Course.played settled 1 [.answer (.error (.failed "no"))]) ∧
    x.courses[1]? = some (Course.played settled 2 []) ∧
    ∃ post, ((Desk.opened true .immediate).run deeds).registry.get? "home" = some post ∧
      post.handler.retries = 2 ∧
      ((Desk.opened true .immediate).run deeds).courses "home" = used.courses := by
  intro moves deeds x settled used
  obtain ⟨hfresh, hrefuses, hkeeps, -, hcourses, hposts, -⟩ :=
    settings_hold_for_every_execution (ω := String) "home" .immediate moves
  have hpost : (((Desk.opened true .immediate).run deeds).registry.get? "home").isSome := by
    decide +kernel
  obtain ⟨post, hpost⟩ := Option.isSome_iff_exists.mp hpost
  obtain ⟨hhandler, hused⟩ := hposts true deeds post hpost
  refine ⟨hfresh, fun setting => ⟨hrefuses setting, hkeeps rfl setting⟩,
    hcourses [_, _, _] 1 _ rfl, hcourses [_, _, _, _, _, _] 2 _ rfl, post, hpost, ?_, hused⟩
  rw [hhandler]
  rfl

end Sequencer
