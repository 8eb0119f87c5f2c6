import Sequencer.Proofs.Handler.Desk
import Sequencer.Proofs.Handler.Station

/-!
# Posts — the handler of one command

A registry keeps many handlers, and its dispatches go on side by side.  Whoever looks at the handler
of one command only sees a handler in use: the settings for the command, the executions that its
dispatches start and the replies to them, in the order in which they come.
-/

namespace Sequencer

namespace Desk

variable {η ω ι : Type}

/-! ## 1. What concerns one command -/

def Phase.course? : Phase ι → Option (Course ι Unit)
  | .refused _ => none
  | .executing course => some course
  | .told course _ => some course
  | .reporting course _ => some course
  | .returned course _ => some course
  | .unwound course => some course

/-- The execution of a dispatch, if it is one of the command. -/
def Ticket.courseFor? (command : String) (ticket : Ticket ι) : Option (Course ι Unit) :=
  if ticket.command = command then ticket.phase.course? else none

/-- The executions of a command, in the order of their dispatches. -/
def courses (x : Desk η ω ι) (command : String) : List (Course ι Unit) :=
  x.tickets.filterMap (Ticket.courseFor? command)

/-- How many executions of the command come before a dispatch. -/
def rank (x : Desk η ω ι) (command : String) (number : Nat) : Nat :=
  ((x.tickets.take number).filterMap (Ticket.courseFor? command)).length

def Phase.isExecuting : Phase ι → Bool
  | .executing _ => true
  | _ => false

/-- The dispatch executes the handler of the command, and was not dropped. -/
def executes (x : Desk η ω ι) (command : String) (number : Nat) : Bool :=
  (x.active? number).any fun ticket => ticket.phase.isExecuting && decide (ticket.command = command)

/-- What a move means to the handler of a command; nothing as long as there is none. -/
def use? (x : Desk η ω ι) (command : String) (move : Move η ω ι) : Option (Station.Move η ι Unit) :=
  if x.registry.handlers.contains command then
    match move with
    | .configure other setting => if other = command then some (.configure setting) else none
    | .dispatch _ other input => if other = command then some (.start input) else none
    | .reply number back =>
      if x.executes command number then some (.reply (x.rank command number) back) else none
    | _ => none
  else none

/-- What moves mean to the handler of a command, in order. -/
def uses (x : Desk η ω ι) (command : String) : List (Move η ω ι) → List (Station.Move η ι Unit)
  | [] => []
  | move :: moves => (x.use? command move).toList ++ (x.step move).uses command moves

variable {x : Desk η ω ι} {y : Station η ι Unit} {command other : String} {number : Nat}
  {ticket next : Ticket ι} {post : Post η ω} {course : Course ι Unit}

/-! ## 2. The executions of a command -/

theorem courses_enter (x : Desk η ω ι) (ticket : Ticket ι) (entries : List (Entry ω ι)) :
    (x.enter ticket entries).courses command =
      x.courses command ++ (ticket.courseFor? command).toList := by
  show (x.tickets ++ [ticket]).filterMap _ = _
  rw [List.filterMap_append]
  rfl

/-- The dispatches before one with a number, and those after it. -/
theorem tickets_split (here : x.tickets[number]? = some ticket) (next : Ticket ι) :
    x.tickets = x.tickets.take number ++ ticket :: x.tickets.drop (number + 1) ∧
      x.tickets.set number next = x.tickets.take number ++ next :: x.tickets.drop (number + 1) := by
  obtain ⟨hlt, hget⟩ := List.getElem?_eq_some_iff.mp here
  constructor
  · rw [← hget, ← List.drop_eq_getElem_cons hlt, List.take_append_drop]
  · rw [List.set_eq_take_append_cons_drop, if_pos hlt]

theorem courses_of_split {earlier later : List (Ticket ι)}
    (h : x.tickets = earlier ++ ticket :: later) :
    x.courses command = earlier.filterMap (Ticket.courseFor? command) ++
      (ticket.courseFor? command).toList ++ later.filterMap (Ticket.courseFor? command) := by
  rw [courses, h, List.filterMap_append, List.append_assoc, List.filterMap_cons]
  cases ticket.courseFor? command <;> rfl

theorem courses_note (here : x.tickets[number]? = some ticket)
    (h : next.courseFor? command = ticket.courseFor? command) (entries : List (Entry ω ι)) :
    (x.note number next entries).courses command = x.courses command := by
  obtain ⟨hold, hnew⟩ := tickets_split here next
  rw [courses_of_split hold, courses_of_split (x := x.note number next entries) hnew, h]

theorem getElem?_rank (here : x.tickets[number]? = some ticket)
    (hcourse : ticket.courseFor? command = some course) :
    (x.courses command)[x.rank command number]? = some course := by
  rw [courses_of_split (tickets_split here ticket).1, hcourse, rank, List.append_assoc,
    List.getElem?_append_right (Nat.le_refl _), Nat.sub_self]
  rfl

/-- The execution of a dispatch of the command goes on. -/
theorem courses_note_next (here : x.tickets[number]? = some ticket)
    (hold : ticket.courseFor? command = some course) {after : Course ι Unit}
    (hnew : next.courseFor? command = some after) (entries : List (Entry ω ι)) :
    (x.note number next entries).courses command =
      (x.courses command).set (x.rank command number) after := by
  obtain ⟨hbefore, hafter⟩ := tickets_split here next
  rw [courses_of_split hbefore, courses_of_split (x := x.note number next entries) hafter, hold,
    hnew, rank, List.append_assoc, List.append_assoc, List.set_append_right _ _ (Nat.le_refl _),
    Nat.sub_self]
  rfl

theorem get?_setHandler (x : Desk η ω ι) (other : String) (post : Post η ω)
    (handler : Handler η) :
    (x.setHandler other post handler).registry.get? command =
      if other = command then some { post with handler } else x.registry.get? command :=
  Table.get?_set x.registry.handlers other command _

/-! ## 3. Other moves -/

/-- The registry and the executions of the command are left alone. -/
structure Spares (command : String) (x y : Desk η ω ι) : Prop where
  registry : y.registry.get? command = x.registry.get? command
  courses : y.courses command = x.courses command

theorem Spares.refl (command : String) (x : Desk η ω ι) : x.Spares command x := ⟨rfl, rfl⟩

theorem spares_note (here : x.tickets[number]? = some ticket)
    (h : next.courseFor? command = ticket.courseFor? command) (entries : List (Entry ω ι)) :
    x.Spares command (x.note number next entries) :=
  ⟨rfl, courses_note here h entries⟩

theorem spares_setHandler (h : other ≠ command) (post : Post η ω) (handler : Handler η) :
    x.Spares command (x.setHandler other post handler) :=
  ⟨by rw [get?_setHandler, if_neg h], rfl⟩

theorem spares_configure (h : other ≠ command) (setting : Setting η) :
    x.Spares command (x.configure other setting) := by
  unfold configure
  split
  · exact .refl command x
  · split
    · exact spares_setHandler h _ _
    · exact .refl command x

theorem spares_dispatch (h : other ≠ command) (id : String) (input : ι) :
    x.Spares command (x.dispatch id other input) := by
  -- The execution of another command is none of this one.
  have hcourse : ∀ phase : Phase ι, Ticket.courseFor? command
      { id, command := other, input, phase } = none := fun phase => if_neg h
  cases hget : x.registry.get? other with
  | none =>
    rw [dispatch_of_none hget]
    refine ⟨rfl, ?_⟩
    rw [courses_enter, hcourse]
    exact List.append_nil _
  | some post =>
    rw [dispatch_of_some hget]
    refine ⟨(spares_setHandler h post _).registry, ?_⟩
    rw [courses_enter, hcourse]
    exact List.append_nil _

theorem spares_proceed (x : Desk η ω ι) (command : String) (number : Nat) :
    x.Spares command (x.proceed number) := by
  unfold proceed
  split
  · exact .refl command x
  · next ticket hactive =>
    -- A dispatch goes on, but its execution is over.
    have hkeeps : ∀ {phase : Phase ι} {course : Course ι Unit} (entries : List (Entry ω ι)),
        ticket.phase.course? = some course → phase.course? = some course →
        x.Spares command (x.note number { ticket with phase } entries) :=
      fun entries hold hnew => spares_note (active?_eq_some hactive)
        (by simp only [Ticket.courseFor?, hold, hnew]) entries
    split
    · next course hphase =>
      have hcourse : ticket.phase.course? = some course := by rw [hphase]; rfl
      split
      · exact hkeeps _ hcourse rfl
      · exact hkeeps _ hcourse rfl
      · exact .refl command x
    · next course result hphase => exact hkeeps _ (by rw [hphase]; rfl) rfl
    · next course result hphase => exact hkeeps _ (by rw [hphase]; rfl) rfl
    · exact .refl command x

theorem spares_drop (x : Desk η ω ι) (command : String) (number : Nat) :
    x.Spares command (x.drop number) := by
  unfold drop
  split
  · exact .refl command x
  · next ticket hactive =>
    have hcourse : Ticket.courseFor? command { ticket with dropped := true } =
        ticket.courseFor? command := rfl
    exact spares_note (active?_eq_some hactive) hcourse []

theorem backoff_step (x : Desk η ω ι) (move : Move η ω ι) : (x.step move).backoff = x.backoff := by
  cases move with
  | register command operation =>
    cases hget : x.registry.get? command with
    | some post => simp only [step, onCommand_of_some hget]
    | none => simp only [step, onCommand_of_none hget]
  | configure command setting =>
    simp only [step, configure]
    repeat' split
    all_goals rfl
  | dispatch id command input =>
    simp only [step, dispatch]
    split <;> rfl
  | reply number back =>
    simp only [step, reply]
    repeat' split
    all_goals rfl
  | proceed number =>
    simp only [step, proceed]
    repeat' split
    all_goals rfl
  | drop number =>
    simp only [step, drop]
    split <;> rfl

/-! ## 4. One handler -/

/-- The handler that a command gets when it is registered. -/
def newcomer (x : Desk η ω ι) (command : String) : Handler η :=
  { name := command, backoff := x.backoff }

/-- The handler of a command and its executions are those of a handler in use; a command that was
not registered yet has no executions. -/
structure Shows (x : Desk η ω ι) (command : String) (y : Station η ι Unit) : Prop where
  courses : x.courses command = y.courses
  handler : ∀ post, x.registry.get? command = some post → post.handler = y.handler
  unused : x.registry.get? command = none → y = Station.opened (x.newcomer command)

theorem Shows.spare {after : Desk η ω ι} (shows : x.Shows command y)
    (spares : x.Spares command after) (h : after.backoff = x.backoff) : after.Shows command y where
  courses := spares.courses.trans shows.courses
  handler post hget := shows.handler post (spares.registry ▸ hget)
  unused hget := by
    rw [newcomer, h]
    exact shows.unused (spares.registry ▸ hget)

theorem contains_eq_false (h : x.registry.get? command = none) :
    x.registry.handlers.contains command = false := by
  rw [Table.contains, show x.registry.handlers.get? command = none from h]
  rfl

theorem contains_eq_true (h : x.registry.get? command = some post) :
    x.registry.handlers.contains command = true :=
  Option.isSome_of_eq_some h

theorem use?_of_none (h : x.registry.get? command = none) (move : Move η ω ι) :
    x.use? command move = none := by
  unfold use?
  rw [contains_eq_false h, if_neg Bool.false_ne_true]

theorem shows_register (shows : x.Shows command y) (other : String) (operation : ω) :
    (x.step (.register other operation)).Shows command y := by
  cases hget : x.registry.get? other with
  | some post =>
    simp only [step, onCommand_of_some hget]
    exact shows
  | none =>
    simp only [step, onCommand_of_none hget]
    by_cases hsame : other = command
    · subst hsame
      refine ⟨shows.courses, fun post hpost => ?_, fun hnone => ?_⟩
      · -- The newcomer is the handler of the command.
        cases (if_pos rfl).symm.trans ((Table.get?_set _ _ _ _).symm.trans hpost)
        rw [shows.unused hget]
        rfl
      · cases (if_pos rfl).symm.trans ((Table.get?_set _ _ _ _).symm.trans hnone)
    · exact shows.spare ⟨(Table.get?_set _ _ _ _).trans (if_neg hsame), rfl⟩ rfl

/-- The handler of a registered command has changed, and its executions are these. -/
theorem shows_setHandler {after : Desk η ω ι} {handler : Handler η}
    (hget : after.registry.get? command = some { post with handler })
    (hhandler : handler = y.handler) (hcourses : after.courses command = y.courses) :
    after.Shows command y where
  courses := hcourses
  handler other hother := by
    cases hget.symm.trans hother
    exact hhandler
  unused hnone := by cases hget.symm.trans hnone

theorem get?_setHandler_self (x : Desk η ω ι) (command : String) (post : Post η ω)
    (handler : Handler η) :
    (x.setHandler command post handler).registry.get? command = some { post with handler } := by
  rw [get?_setHandler, if_pos rfl]

theorem shows_configure (shows : x.Shows command y) (other : String) (setting : Setting η) :
    (x.configure other setting).Shows command
      (y.run (x.use? command (.configure other setting)).toList) := by
  by_cases hsame : other = command
  · subst hsame
    unfold configure
    cases hget : x.registry.get? other with
    | none =>
      rw [use?_of_none hget]
      exact shows
    | some post =>
      simp only [use?, contains_eq_true hget, ↓reduceIte]
      show Shows _ _ (y.configure setting)
      unfold Station.configure
      rw [← shows.handler post hget]
      cases post.handler.configure setting with
      | error refusal => exact shows
      | ok handler =>
        exact shows_setHandler (get?_setHandler_self x other post handler) rfl shows.courses
  · have huse : x.use? command (.configure other setting) = none := by
      simp only [use?, hsame, ↓reduceIte, ite_self]
    rw [huse]
    exact shows.spare (spares_configure hsame setting)
      (backoff_step x (.configure other setting))

theorem shows_dispatch (shows : x.Shows command y) (id other : String) (input : ι) :
    (x.dispatch id other input).Shows command
      (y.run (x.use? command (.dispatch id other input)).toList) := by
  by_cases hsame : other = command
  · subst hsame
    cases hget : x.registry.get? other with
    | none =>
      rw [use?_of_none hget, dispatch_of_none hget]
      refine shows.spare ⟨rfl, ?_⟩ rfl
      rw [courses_enter, Ticket.courseFor?, if_pos rfl]
      exact List.append_nil _
    | some post =>
      simp only [use?, contains_eq_true hget, ↓reduceIte]
      rw [dispatch_of_some hget, shows.handler post hget]
      show Shows _ _ (y.start input)
      refine shows_setHandler (get?_setHandler_self x other post _) rfl ?_
      rw [courses_enter, Ticket.courseFor?, if_pos rfl]
      exact congrArg (· ++ _) shows.courses
  · have huse : x.use? command (.dispatch id other input) = none := by
      simp only [use?, hsame, ↓reduceIte, ite_self]
    rw [huse]
    exact shows.spare (spares_dispatch hsame id input) (backoff_step x (.dispatch id other input))

/-- A reply to a dispatch that waits for none changes nothing. -/
theorem reply_of_over (h : ∀ ticket, x.active? number = some ticket →
      ticket.phase.isExecuting = false) (back : Course.Reply Unit) : x.reply number back = x := by
  unfold reply
  split
  · rfl
  · next ticket hactive =>
    have hover := h ticket hactive
    split
    · next course post hphase _ =>
      rw [hphase] at hover
      cases hover
    · rfl

theorem executes_of_over (h : ∀ ticket, x.active? number = some ticket →
      ticket.phase.isExecuting = false) : x.executes command number = false := by
  unfold executes
  cases hactive : x.active? number with
  | none => rfl
  | some ticket =>
    rw [Option.any_some, h ticket hactive]
    rfl

theorem executes_iff (hactive : x.active? number = some ticket)
    (hphase : ticket.phase = .executing course) :
    x.executes command number = true ↔ ticket.command = command := by
  rw [executes, hactive, Option.any_some, hphase]
  exact decide_eq_true_iff

theorem reply_of_none (hactive : x.active? number = some ticket)
    (hphase : ticket.phase = .executing course) (hget : x.registry.get? ticket.command = none)
    (back : Course.Reply Unit) : x.reply number back = x := by
  simp only [reply, hactive, hphase, hget]

variable {back : Course.Reply Unit} {handler : Handler η} {after : Course ι Unit}

theorem reply_of_unheard (hactive : x.active? number = some ticket)
    (hphase : ticket.phase = .executing course) (hget : x.registry.get? ticket.command = some post)
    (hadvance : course.advance post.handler back = none) : x.reply number back = x := by
  simp only [reply, hactive, hphase, hget, hadvance]

theorem reply_of_heard (hactive : x.active? number = some ticket)
    (hphase : ticket.phase = .executing course) (hget : x.registry.get? ticket.command = some post)
    (hadvance : course.advance post.handler back = some (handler, after)) :
    x.reply number back = (x.setHandler ticket.command post handler).note number
      { ticket with phase := .executing after }
      (traces x.hosted post.operation (after.log.drop course.log.length)) := by
  simp only [reply, hactive, hphase, hget, hadvance]

/-- A reply to an execution of another command. -/
theorem spares_reply (hactive : x.active? number = some ticket)
    (hphase : ticket.phase = .executing course) (hother : ticket.command ≠ command)
    (back : Course.Reply Unit) : x.Spares command (x.reply number back) := by
  cases hget : x.registry.get? ticket.command with
  | none =>
    rw [reply_of_none hactive hphase hget]
    exact .refl command x
  | some post =>
    cases hadvance : course.advance post.handler back with
    | none =>
      rw [reply_of_unheard hactive hphase hget hadvance]
      exact .refl command x
    | some pair =>
      obtain ⟨handler, after⟩ := pair
      have hcourse : Ticket.courseFor? command { ticket with phase := .executing after } =
          ticket.courseFor? command := (if_neg hother).trans (if_neg hother).symm
      rw [reply_of_heard hactive hphase hget hadvance]
      refine ⟨(spares_setHandler hother post handler).registry, ?_⟩
      exact courses_note (active?_eq_some hactive) hcourse []

theorem shows_executing (shows : x.Shows ticket.command y)
    (hactive : x.active? number = some ticket) (hphase : ticket.phase = .executing course)
    (hget : x.registry.get? ticket.command = some post)
    (back : Course.Reply Unit) :
    (x.reply number back).Shows ticket.command (y.reply (x.rank ticket.command number) back) := by
  have here := active?_eq_some hactive
  have hold : ticket.courseFor? ticket.command = some course := by
    rw [Ticket.courseFor?, if_pos rfl, hphase]
    rfl
  have hat : y.courses[x.rank ticket.command number]? = some course := by
    rw [← shows.courses]
    exact getElem?_rank here hold
  -- Both executions go on in the same way, or both do not wait for the reply.
  unfold Station.reply
  simp only [hat, ← shows.handler post hget]
  cases hadvance : course.advance post.handler back with
  | none =>
    rw [reply_of_unheard hactive hphase hget hadvance]
    exact shows
  | some pair =>
    obtain ⟨handler, after⟩ := pair
    have hnew : Ticket.courseFor? ticket.command { ticket with phase := .executing after } =
        some after := if_pos rfl
    rw [reply_of_heard hactive hphase hget hadvance]
    refine shows_setHandler (get?_setHandler_self x ticket.command post handler) rfl ?_
    refine Eq.trans ?_ (congrArg (List.set · _ after) shows.courses)
    exact courses_note_next here hold hnew []

theorem shows_reply (shows : x.Shows command y) (number : Nat) (back : Course.Reply Unit) :
    (x.reply number back).Shows command
      (y.run (x.use? command (.reply number back)).toList) := by
  by_cases h : ∃ ticket course, x.active? number = some ticket ∧ ticket.phase = .executing course
  · obtain ⟨ticket, course, hactive, hphase⟩ := h
    by_cases hsame : ticket.command = command
    · subst hsame
      cases hget : x.registry.get? ticket.command with
      | none =>
        rw [use?_of_none hget, reply_of_none hactive hphase hget]
        exact shows
      | some post =>
        simp only [use?, contains_eq_true hget, (executes_iff hactive hphase).mpr rfl, ↓reduceIte]
        exact shows_executing shows hactive hphase hget back
    · have hother : x.executes command number = false :=
        Bool.eq_false_iff.mpr fun h => hsame ((executes_iff hactive hphase).mp h)
      have huse : x.use? command (.reply number back) = none := by
        simp only [use?, hother, Bool.false_eq_true, ↓reduceIte, ite_self]
      rw [huse]
      exact shows.spare (spares_reply hactive hphase hsame back)
        (backoff_step x (.reply number back))
  · have hover : ∀ ticket, x.active? number = some ticket → ticket.phase.isExecuting = false := by
      intro ticket hactive
      cases hphase : ticket.phase with
      | executing course => exact absurd ⟨ticket, course, hactive, hphase⟩ h
      | _ => rfl
    have huse : x.use? command (.reply number back) = none := by
      simp only [use?, executes_of_over hover, Bool.false_eq_true, ↓reduceIte, ite_self]
    rw [reply_of_over hover, huse]
    exact shows

theorem shows_step (shows : x.Shows command y) (move : Move η ω ι) :
    (x.step move).Shows command (y.run (x.use? command move).toList) := by
  cases move with
  | register other operation =>
    have huse : x.use? command (.register other operation) = none := ite_self _
    rw [huse]
    exact shows_register shows other operation
  | configure other setting => exact shows_configure shows other setting
  | dispatch id other input => exact shows_dispatch shows id other input
  | reply number back => exact shows_reply shows number back
  | proceed number =>
    have huse : x.use? command (.proceed number) = none := ite_self _
    rw [huse]
    exact shows.spare (spares_proceed x command number) (backoff_step x (.proceed number))
  | drop number =>
    have huse : x.use? command (.drop number) = none := ite_self _
    rw [huse]
    exact shows.spare (spares_drop x command number) (backoff_step x (.drop number))

theorem shows_run (shows : x.Shows command y) (moves : List (Move η ω ι)) :
    (x.run moves).Shows command (y.run (x.uses command moves)) := by
  -- By induction on the moves, each of which is a move of the handler in use, or none.
  induction moves generalizing x y with
  | nil => exact shows
  | cons move moves ih =>
    have hrun : y.run (x.uses command (move :: moves)) =
        (y.run (x.use? command move).toList).run ((x.step move).uses command moves) :=
      List.foldl_append
    rw [hrun]
    exact ih (shows_step shows move)

theorem shows_opened (hosted : Bool) (backoff : Backoff) (command : String) :
    (opened hosted backoff : Desk η ω ι).Shows command
      (Station.opened { name := command, backoff }) where
  courses := rfl
  handler _ hget := nomatch hget
  unused _ := rfl

end Desk

end Sequencer
