import Sequencer.Handler.Registry
import Sequencer.Proofs.Handler.Returns

/-!
# Desks — a registry and the dispatches that go on side by side

Commands are registered and dispatched in any order, and any number of dispatches go on at the same
time, of one command or of several.  A dispatch executes the handler that it finds.  When the
execution returns, the dispatch tells the outcome, reports it under its id and returns; a dispatch
that finds no handler returns at once.  Executions of one handler share it: what one of them leaves
in it, the others find.
-/

namespace Sequencer

namespace Desk

/-! ## 1. A registry in use -/

structure Post (η ω : Type) where
  handler : Handler η
  operation : ω

inductive Phase (ι : Type) where
  | refused (refusal : Refusal)
  | executing (course : Course ι Unit)
  | told (course : Course ι Unit) (result : Except Failure Unit)
  | reporting (course : Course ι Unit) (result : Except Failure Unit)
  | returned (course : Course ι Unit) (result : Except Failure Unit)
  /-- A delay of its execution could not be told. -/
  | unwound (course : Course ι Unit)

structure Ticket (ι : Type) where
  id : String
  command : String
  input : ι
  phase : Phase ι
  dropped : Bool := false

inductive Entry (ω ι : Type) where
  /-- Its execution does something, with this operation. -/
  | ran (operation : ω) (happening : Course.Happening ι Unit)
  | published (event : Event)
  | reported (id : String) (outcome : Option Failure)
  | returned (answer : Except Refusal Unit)

inductive Move (η ω ι : Type) where
  | register (command : String) (operation : ω)
  | configure (command : String) (setting : Setting η)
  | dispatch (id command : String) (input : ι)
  | reply (number : Nat) (reply : Course.Reply Unit)
  /-- A dispatch goes on after its execution. -/
  | proceed (number : Nat)
  | drop (number : Nat)

/-- The outcome that is reported of a result. -/
def outcome : Except Failure Unit → Option Failure
  | .ok () => none
  | .error failure => some failure

/-- What is seen of the happenings in an execution.  Without a bus, its events are not. -/
def traces {ω ι : Type} (hosted : Bool) (operation : ω)
    (happenings : List (Course.Happening ι Unit)) : List (Entry ω ι) :=
  happenings.filterMap fun
    | .told event => if hosted then some (.published event) else none
    | happening => some (.ran operation happening)

end Desk

/-- A registry, its dispatches by number, and what they did so far. -/
structure Desk (η ω ι : Type) where
  hosted : Bool
  /-- The backoff of a new handler. -/
  backoff : Backoff
  registry : Registry (Desk.Post η ω) := {}
  tickets : List (Desk.Ticket ι) := []
  log : List (Nat × Desk.Entry ω ι) := []

namespace Desk

variable {η ω ι : Type}

def opened (hosted : Bool) (backoff : Backoff) : Desk η ω ι := { hosted, backoff }

/-- What the dispatch with a number did, in order. -/
def history (x : Desk η ω ι) (number : Nat) : List (Entry ω ι) :=
  x.log.filterMap fun entry => if entry.1 = number then some entry.2 else none

def operation? (x : Desk η ω ι) (command : String) : Option ω :=
  (x.registry.get? command).map (·.operation)

def newPost (x : Desk η ω ι) (command : String) (operation : ω) : Post η ω :=
  { handler := { name := command, backoff := x.backoff }, operation }

def onCommand (x : Desk η ω ι) (command : String) (operation : ω) :
    Except Refusal (Desk η ω ι) :=
  (x.registry.register command (x.newPost command operation)).map fun registry =>
    { x with registry }

def setHandler (x : Desk η ω ι) (command : String) (post : Post η ω) (handler : Handler η) :
    Desk η ω ι :=
  { x with registry := ⟨x.registry.handlers.set command { post with handler }⟩ }

def enter (x : Desk η ω ι) (ticket : Ticket ι) (entries : List (Entry ω ι)) : Desk η ω ι :=
  { x with
    tickets := x.tickets ++ [ticket]
    log := x.log ++ entries.map (Prod.mk x.tickets.length) }

def note (x : Desk η ω ι) (number : Nat) (ticket : Ticket ι) (entries : List (Entry ω ι)) :
    Desk η ω ι :=
  { x with
    tickets := x.tickets.set number ticket
    log := x.log ++ entries.map (Prod.mk number) }

/-- The dispatch with a number, unless it was dropped. -/
def active? (x : Desk η ω ι) (number : Nat) : Option (Ticket ι) :=
  x.tickets[number]?.filter fun ticket => !ticket.dropped

def configure (x : Desk η ω ι) (command : String) (setting : Setting η) : Desk η ω ι :=
  match x.registry.get? command with
  | none => x
  | some post =>
    match post.handler.configure setting with
    | .ok handler => x.setHandler command post handler
    | .error _ => x

def dispatch (x : Desk η ω ι) (id command : String) (input : ι) : Desk η ω ι :=
  match x.registry.find command with
  | .error refusal =>
    x.enter { id, command, input, phase := .refused refusal } [.returned (.error refusal)]
  | .ok post =>
    let (handler, course) := Course.start post.handler input
    (x.setHandler command post handler).enter { id, command, input, phase := .executing course }
      (traces x.hosted post.operation course.log)

def reply (x : Desk η ω ι) (number : Nat) (reply : Course.Reply Unit) : Desk η ω ι :=
  match x.active? number with
  | none => x
  | some ticket =>
    match ticket.phase, x.registry.get? ticket.command with
    | .executing course, some post =>
      match course.advance post.handler reply with
      | none => x
      | some (handler, next) =>
        (x.setHandler ticket.command post handler).note number
          { ticket with phase := .executing next }
          (traces x.hosted post.operation (next.log.drop course.log.length))
    | _, _ => x

/-- The event of an outcome, if there is a bus. -/
def verdict (hosted : Bool) (id command : String) (result : Except Failure Unit) :
    List (Entry ω ι) :=
  if hosted then [.published (Registry.outcomeEvent id command (outcome result))] else []

def proceed (x : Desk η ω ι) (number : Nat) : Desk η ω ι :=
  match x.active? number with
  | none => x
  | some ticket =>
    match ticket.phase with
    | .executing course =>
      match course.ending with
      | some (.returned result) =>
        x.note number { ticket with phase := .told course result }
          (verdict x.hosted ticket.id ticket.command result)
      | some (.panicked _) => x.note number { ticket with phase := .unwound course } []
      | none => x
    | .told course result =>
      x.note number { ticket with phase := .reporting course result }
        [.reported ticket.id (outcome result)]
    | .reporting course result =>
      x.note number { ticket with phase := .returned course result } [.returned (.ok ())]
    | _ => x

def drop (x : Desk η ω ι) (number : Nat) : Desk η ω ι :=
  match x.active? number with
  | none => x
  | some ticket => x.note number { ticket with dropped := true } []

/-- A step; one that cannot be taken changes nothing. -/
def step (x : Desk η ω ι) : Move η ω ι → Desk η ω ι
  | .register command operation =>
    match x.onCommand command operation with
    | .ok next => next
    | .error _ => x
  | .configure command setting => x.configure command setting
  | .dispatch id command input => x.dispatch id command input
  | .reply number back => x.reply number back
  | .proceed number => x.proceed number
  | .drop number => x.drop number

def run (x : Desk η ω ι) (moves : List (Move η ω ι)) : Desk η ω ι := moves.foldl step x

/-! ## 2. What a dispatch did -/

/-- What a dispatch that found its handler did, from where it stands. -/
def Ticket.tale (ticket : Ticket ι) (hosted : Bool) (operation : ω) : List (Entry ω ι) :=
  match ticket.phase with
  | .refused _ => []
  | .executing course => traces hosted operation course.log
  | .told course result =>
    traces hosted operation course.log ++ verdict hosted ticket.id ticket.command result
  | .reporting course result =>
    traces hosted operation course.log ++ verdict hosted ticket.id ticket.command result ++
      [.reported ticket.id (outcome result)]
  | .returned course result =>
    traces hosted operation course.log ++ verdict hosted ticket.id ticket.command result ++
      [.reported ticket.id (outcome result)] ++ [.returned (.ok ())]
  | .unwound course => traces hosted operation course.log

/-- The result that a dispatch goes by is that of its execution. -/
def Ticket.Sound (ticket : Ticket ι) : Prop :=
  match ticket.phase with
  | .refused _ => False
  | .executing course => course.Sound ticket.input
  | .told course result => course.Sound ticket.input ∧ course.ending = some (.returned result)
  | .reporting course result => course.Sound ticket.input ∧ course.ending = some (.returned result)
  | .returned course result => course.Sound ticket.input ∧ course.ending = some (.returned result)
  | .unwound course => course.Sound ticket.input

/-- What holds of a dispatch: it found no handler and returned at once, or it found one. -/
inductive Keeps (x : Desk η ω ι) (number : Nat) (ticket : Ticket ι) : Prop where
  | refused (phase : ticket.phase = .refused (.unknownCommand ticket.command))
      (history : x.history number = [.returned (.error (.unknownCommand ticket.command))])
  | posted (operation : ω) (post : x.operation? ticket.command = some operation)
      (sound : ticket.Sound) (history : x.history number = ticket.tale x.hosted operation)

structure Orderly (x : Desk η ω ι) : Prop where
  numbers : ∀ entry ∈ x.log, entry.1 < x.tickets.length
  keeps : ∀ number ticket, x.tickets[number]? = some ticket → x.Keeps number ticket

variable {x y : Desk η ω ι} {number : Nat} {ticket next : Ticket ι} {command : String}
  {operation : ω} {post : Post η ω} {entries : List (Entry ω ι)}

theorem Keeps.mono (keeps : x.Keeps number ticket) (hhosted : y.hosted = x.hosted)
    (hoperations : ∀ command operation,
      x.operation? command = some operation → y.operation? command = some operation)
    (hhistory : y.history number = x.history number) : y.Keeps number ticket := by
  cases keeps with
  | refused phase history => exact .refused phase (hhistory.trans history)
  | posted operation post sound history =>
    refine .posted operation (hoperations _ _ post) sound ?_
    rw [hhistory, history, hhosted]

theorem traces_append (hosted : Bool) (operation : ω)
    (happenings more : List (Course.Happening ι Unit)) :
    traces hosted operation (happenings ++ more) =
      traces hosted operation happenings ++ traces hosted operation more :=
  List.filterMap_append

theorem filterMap_tagged {β : Type} (number other : Nat) (entries : List β) :
    ((entries.map (Prod.mk number)).filterMap fun entry =>
      if entry.1 = other then some entry.2 else none) = if number = other then entries else [] := by
  rw [List.filterMap_map]
  by_cases h : number = other
  · have hkeeps : (fun entry : Nat × β => if entry.1 = other then some entry.2 else none) ∘
        Prod.mk number = some := funext fun _ => if_pos h
    rw [if_pos h, hkeeps, List.filterMap_some]
  · rw [if_neg h]
    exact List.filterMap_eq_nil_iff.mpr fun _ _ => if_neg h

theorem history_note (x : Desk η ω ι) (number other : Nat) (ticket : Ticket ι)
    (entries : List (Entry ω ι)) :
    (x.note number ticket entries).history other =
      x.history other ++ if number = other then entries else [] := by
  show (x.log ++ _).filterMap _ = _
  rw [List.filterMap_append, filterMap_tagged]
  rfl

theorem history_enter (x : Desk η ω ι) (other : Nat) (ticket : Ticket ι)
    (entries : List (Entry ω ι)) :
    (x.enter ticket entries).history other =
      x.history other ++ if x.tickets.length = other then entries else [] := by
  show (x.log ++ _).filterMap _ = _
  rw [List.filterMap_append, filterMap_tagged]
  rfl

/-- The next dispatch did nothing yet. -/
theorem Orderly.history_length (orderly : x.Orderly) : x.history x.tickets.length = [] :=
  List.filterMap_eq_nil_iff.mpr fun entry hmem =>
    if_neg (Nat.ne_of_lt (orderly.numbers entry hmem))

/-! ## 3. What a step can do -/

/-- The registry may have changed, but no operation in it, and no dispatch. -/
structure Extends (x y : Desk η ω ι) : Prop where
  hosted : y.hosted = x.hosted
  tickets : y.tickets = x.tickets
  log : y.log = x.log
  operations : ∀ command operation,
    x.operation? command = some operation → y.operation? command = some operation

/-- A dispatch begins and does this at once. -/
inductive Begins (x : Desk η ω ι) (ticket : Ticket ι) : List (Entry ω ι) → Prop where
  | refused (phase : ticket.phase = .refused (.unknownCommand ticket.command)) :
      Begins x ticket [.returned (.error (.unknownCommand ticket.command))]
  | posted (operation : ω) (post : x.operation? ticket.command = some operation)
      (sound : ticket.Sound) : Begins x ticket (ticket.tale x.hosted operation)

structure Ticket.Same (ticket next : Ticket ι) : Prop where
  id : next.id = ticket.id
  command : next.command = ticket.command
  input : next.input = ticket.input
  refused : ∀ refusal, next.phase = .refused refusal ↔ ticket.phase = .refused refusal

/-- A dispatch goes on and does this. -/
structure Advances (x : Desk η ω ι) (ticket next : Ticket ι) (entries : List (Entry ω ι)) :
    Prop where
  same : ticket.Same next
  silent : ∀ refusal, ticket.phase = .refused refusal → entries = []
  sound : ticket.Sound → next.Sound
  tale : ∀ operation, x.operation? ticket.command = some operation →
    next.tale x.hosted operation = ticket.tale x.hosted operation ++ entries

inductive Change (x : Desk η ω ι) : Desk η ω ι → Prop where
  | aside (y : Desk η ω ι) (grows : x.Extends y) : Change x y
  | enters (y : Desk η ω ι) (grows : x.Extends y) (ticket : Ticket ι)
      (entries : List (Entry ω ι)) (begins : y.Begins ticket entries) :
      Change x (y.enter ticket entries)
  | advances (y : Desk η ω ι) (grows : x.Extends y) (number : Nat) (ticket next : Ticket ι)
      (entries : List (Entry ω ι)) (here : x.tickets[number]? = some ticket)
      (advances : y.Advances ticket next entries) : Change x (y.note number next entries)

theorem Extends.refl (x : Desk η ω ι) : x.Extends x := ⟨rfl, rfl, rfl, fun _ _ h => h⟩

/-- Another handler for a command may have the operation that was registered, or any if none
was. -/
theorem extends_set (h : ∀ operation, x.operation? command = some operation →
    post.operation = operation) :
    x.Extends { x with registry := ⟨x.registry.handlers.set command post⟩ } := by
  refine ⟨rfl, rfl, rfl, fun other operation hother => ?_⟩
  unfold operation?
  show ((x.registry.handlers.set command post).get? other).map _ = _
  rw [Table.get?_set]
  split
  · next hsame =>
    subst hsame
    exact congrArg some (h operation hother)
  · exact hother

theorem operation?_of_get? (h : x.registry.get? command = some post) :
    x.operation? command = some post.operation := by
  rw [operation?, h]
  rfl

theorem extends_setHandler (h : x.registry.get? command = some post) (handler : Handler η) :
    x.Extends (x.setHandler command post handler) :=
  extends_set fun _ hoperation => Option.some.inj ((operation?_of_get? h).symm.trans hoperation)

theorem active?_eq_some (h : x.active? number = some ticket) :
    x.tickets[number]? = some ticket :=
  (Option.filter_eq_some_iff.mp h).1

theorem onCommand_of_some (h : x.registry.get? command = some post) (operation : ω) :
    x.onCommand command operation = .error (.duplicateHandler command) := by
  have hcontains : x.registry.handlers.contains command = true := Option.isSome_of_eq_some h
  rw [onCommand, Registry.register, if_pos hcontains]
  rfl

theorem onCommand_of_none (h : x.registry.get? command = none) (operation : ω) :
    x.onCommand command operation = .ok { x with
      registry := ⟨x.registry.handlers.set command (x.newPost command operation)⟩ } := by
  have hcontains : ¬ x.registry.handlers.contains command = true := by
    rw [Table.contains, show x.registry.handlers.get? command = none from h]
    exact Bool.false_ne_true
  rw [onCommand, Registry.register, if_neg hcontains]
  rfl

theorem change_register (x : Desk η ω ι) (command : String) (operation : ω) :
    x.Change (x.step (.register command operation)) := by
  cases hget : x.registry.get? command with
  | some post =>
    simp only [step, onCommand_of_some hget]
    exact .aside x (.refl x)
  | none =>
    simp only [step, onCommand_of_none hget]
    refine .aside _ (extends_set fun other hother => ?_)
    -- No operation was registered for this command.
    rw [operation?, hget] at hother
    cases hother

theorem change_configure (x : Desk η ω ι) (command : String) (setting : Setting η) :
    x.Change (x.configure command setting) := by
  unfold configure
  split
  · exact .aside x (.refl x)
  · next post hget =>
    split
    · exact .aside _ (extends_setHandler hget _)
    · exact .aside x (.refl x)

theorem dispatch_of_none (h : x.registry.get? command = none) (id : String) (input : ι) :
    x.dispatch id command input =
      x.enter { id, command, input, phase := .refused (.unknownCommand command) }
        [.returned (.error (.unknownCommand command))] := by
  rw [dispatch, Registry.find, h]

theorem dispatch_of_some (h : x.registry.get? command = some post) (id : String) (input : ι) :
    x.dispatch id command input =
      (x.setHandler command post (Course.start post.handler input : _ × Course ι Unit).1).enter
        { id, command, input, phase := .executing (Course.start post.handler input).2 }
        (traces x.hosted post.operation (Course.start post.handler input : _ × Course ι Unit).2.log)
    := by
  rw [dispatch, Registry.find, h]

theorem change_dispatch (x : Desk η ω ι) (id command : String) (input : ι) :
    x.Change (x.dispatch id command input) := by
  cases hget : x.registry.get? command with
  | none =>
    rw [dispatch_of_none hget]
    exact .enters x (.refl x) _ _ (.refused rfl)
  | some post =>
    rw [dispatch_of_some hget]
    have hgrows := extends_setHandler hget (Course.start post.handler input : _ × Course ι Unit).1
    exact .enters _ hgrows _ _ (.posted post.operation
      (hgrows.operations _ _ (operation?_of_get? hget)) (Course.sound_start _ _))

theorem change_reply (x : Desk η ω ι) (number : Nat) (back : Course.Reply Unit) :
    x.Change (x.reply number back) := by
  unfold reply
  split
  · exact .aside x (.refl x)
  · next ticket hactive =>
    split
    · next course post hphase hget =>
      split
      · exact .aside x (.refl x)
      · next handler next hadvance =>
        have hgrows := extends_setHandler hget handler
        refine .advances _ hgrows number ticket _ _ (active?_eq_some hactive)
          ⟨⟨rfl, rfl, rfl, fun refusal => ?_⟩, fun refusal => ?_, fun sound => ?_,
            fun operation hoperation => ?_⟩
        · rw [hphase]
          exact ⟨nofun, nofun⟩
        · rw [hphase]
          exact nofun
        · simp only [Ticket.Sound, hphase] at sound
          exact Course.sound_advance sound hadvance
        · -- The operation of the command is the one that the execution runs.
          obtain rfl : post.operation = operation := Option.some.inj
            ((hgrows.operations _ _ (operation?_of_get? hget)).symm.trans hoperation)
          simp only [Ticket.tale, hphase]
          rw [Course.log_advance hadvance, traces_append, ← Course.log_advance hadvance]
          rfl
    · exact .aside x (.refl x)

theorem change_proceed (x : Desk η ω ι) (number : Nat) : x.Change (x.proceed number) := by
  unfold proceed
  split
  · exact .aside x (.refl x)
  · next ticket hactive =>
    -- Each phase of a dispatch that found its handler leads to another such phase.
    have hgoes : ∀ {phase : Phase ι} {entries : List (Entry ω ι)},
        (∀ refusal, ticket.phase ≠ .refused refusal) → (∀ refusal, phase ≠ .refused refusal) →
        (ticket.Sound → Ticket.Sound { ticket with phase }) →
        (∀ operation, Ticket.tale { ticket with phase } x.hosted operation =
          ticket.tale x.hosted operation ++ entries) →
        x.Change (x.note number { ticket with phase } entries) :=
      fun hold hnew hsound htale =>
        .advances x (.refl x) number ticket _ _ (active?_eq_some hactive)
          ⟨⟨rfl, rfl, rfl, fun refusal => iff_of_false (hnew refusal) (hold refusal)⟩,
            fun refusal h => absurd h (hold refusal), hsound, fun operation _ => htale operation⟩
    split
    · next course hphase =>
      split
      · next result hending =>
        refine hgoes (by rw [hphase]; exact nofun) nofun (fun sound => ?_) fun operation => ?_
        · simp only [Ticket.Sound, hphase] at sound
          exact ⟨sound, hending⟩
        · simp only [Ticket.tale, hphase]
      · refine hgoes (by rw [hphase]; exact nofun) nofun (fun sound => ?_) fun operation => ?_
        · simp only [Ticket.Sound, hphase] at sound
          exact sound
        · simp only [Ticket.tale, hphase, List.append_nil]
      · exact .aside x (.refl x)
    · next course result hphase =>
      refine hgoes (by rw [hphase]; exact nofun) nofun (fun sound => ?_) fun operation => ?_
      · simp only [Ticket.Sound, hphase] at sound
        exact sound
      · simp only [Ticket.tale, hphase]
    · next course result hphase =>
      refine hgoes (by rw [hphase]; exact nofun) nofun (fun sound => ?_) fun operation => ?_
      · simp only [Ticket.Sound, hphase] at sound
        exact sound
      · simp only [Ticket.tale, hphase]
    · exact .aside x (.refl x)

theorem change_drop (x : Desk η ω ι) (number : Nat) : x.Change (x.drop number) := by
  unfold drop
  split
  · exact .aside x (.refl x)
  · next ticket hactive =>
    exact .advances x (.refl x) number ticket _ _ (active?_eq_some hactive)
      ⟨⟨rfl, rfl, rfl, fun _ => Iff.rfl⟩, fun _ _ => rfl, id, fun _ _ => (List.append_nil _).symm⟩

theorem change_step (x : Desk η ω ι) (move : Move η ω ι) : x.Change (x.step move) := by
  cases move with
  | register command operation => exact change_register x command operation
  | configure command setting => exact change_configure x command setting
  | dispatch id command input => exact change_dispatch x id command input
  | reply number back => exact change_reply x number back
  | proceed number => exact change_proceed x number
  | drop number => exact change_drop x number

/-! ## 4. What a step preserves -/

theorem Orderly.of_extends (orderly : x.Orderly) (grows : x.Extends y) : y.Orderly where
  numbers entry h := by
    rw [grows.log] at h
    rw [grows.tickets]
    exact orderly.numbers entry h
  keeps number ticket h := by
    rw [grows.tickets] at h
    refine (orderly.keeps number ticket h).mono grows.hosted grows.operations ?_
    rw [history, grows.log]
    rfl

theorem orderly_enter (orderly : x.Orderly) (begins : x.Begins ticket entries) :
    (x.enter ticket entries).Orderly where
  numbers entry h := by
    show entry.1 < (x.tickets ++ [ticket]).length
    rw [List.length_append, List.length_singleton]
    rcases List.mem_append.mp h with h | h
    · exact Nat.lt_succ_of_lt (orderly.numbers entry h)
    · obtain ⟨_, -, rfl⟩ := List.mem_map.mp h
      exact Nat.lt_succ_self _
  keeps other old h := by
    rw [enter, List.getElem?_append] at h
    split at h
    · next hlt =>
      -- A dispatch that went on before keeps its history.
      refine (orderly.keeps other old h).mono rfl (fun _ _ h => h) ?_
      rw [history_enter, if_neg (Nat.ne_of_gt hlt), List.append_nil]
    · rw [List.getElem?_singleton] at h
      split at h
      · cases h
        obtain rfl : other = x.tickets.length := by omega
        have hhistory : (x.enter ticket entries).history x.tickets.length = entries := by
          rw [history_enter, if_pos rfl, orderly.history_length, List.nil_append]
        cases begins with
        | refused phase => exact .refused phase hhistory
        | posted operation post sound => exact .posted operation post sound hhistory
      · cases h

theorem orderly_note (orderly : x.Orderly) (h : x.tickets[number]? = some ticket)
    (advances : x.Advances ticket next entries) : (x.note number next entries).Orderly where
  numbers entry hmem := by
    show entry.1 < (x.tickets.set number next).length
    rw [List.length_set]
    rcases List.mem_append.mp hmem with hmem | hmem
    · exact orderly.numbers entry hmem
    · obtain ⟨_, -, rfl⟩ := List.mem_map.mp hmem
      exact (List.getElem?_eq_some_iff.mp h).1
  keeps other old hold := by
    rw [note, List.getElem?_set] at hold
    split at hold
    · next hsame =>
      subst hsame
      split at hold
      · cases hold
        have hhistory : (x.note number next entries).history number =
            x.history number ++ entries := by
          rw [history_note, if_pos rfl]
        -- Its history grows by what its tale grows by.
        cases orderly.keeps number ticket h with
        | refused phase history =>
          rw [advances.silent _ phase, List.append_nil] at hhistory
          rw [← advances.same.command] at phase history
          refine .refused ((advances.same.refused _).mpr phase) ?_
          rw [← history, ← hhistory, advances.silent _ phase]
        | posted operation post sound history =>
          refine .posted operation (by rw [advances.same.command]; exact post)
            (advances.sound sound) ?_
          rw [hhistory, history]
          exact (advances.tale operation post).symm
      · cases hold
    · next hother =>
      refine (orderly.keeps other old hold).mono rfl (fun _ _ h => h) ?_
      rw [history_note, if_neg hother, List.append_nil]

theorem orderly_change (orderly : x.Orderly) (change : x.Change y) : y.Orderly := by
  cases change with
  | aside y grows => exact orderly.of_extends grows
  | enters y grows ticket entries begins => exact orderly_enter (orderly.of_extends grows) begins
  | advances y grows number ticket next entries here advances =>
    exact orderly_note (orderly.of_extends grows) (grows.tickets ▸ here) advances

theorem orderly_opened (hosted : Bool) (backoff : Backoff) :
    (opened hosted backoff : Desk η ω ι).Orderly where
  numbers _ h := absurd h List.not_mem_nil
  keeps _ _ h := nomatch h

theorem orderly_run (orderly : x.Orderly) (moves : List (Move η ω ι)) : (x.run moves).Orderly := by
  induction moves generalizing x with
  | nil => exact orderly
  | cons move moves ih => exact ih (orderly_change orderly (change_step x move))

theorem Ticket.Same.refl (ticket : Ticket ι) : ticket.Same ticket :=
  ⟨rfl, rfl, rfl, fun _ => Iff.rfl⟩

theorem Ticket.Same.trans {last : Ticket ι} (same : ticket.Same next) (other : next.Same last) :
    ticket.Same last :=
  ⟨other.id.trans same.id, other.command.trans same.command, other.input.trans same.input,
    fun refusal => (other.refused refusal).trans (same.refused refusal)⟩

theorem same_change (h : x.tickets[number]? = some ticket) (change : x.Change y) :
    ∃ next, y.tickets[number]? = some next ∧ ticket.Same next := by
  cases change with
  | aside y grows => exact ⟨ticket, grows.tickets ▸ h, .refl ticket⟩
  | enters y grows other entries begins =>
    refine ⟨ticket, ?_, .refl ticket⟩
    show (y.tickets ++ [other])[number]? = some ticket
    rw [grows.tickets, List.getElem?_append_left (List.getElem?_eq_some_iff.mp h).1, h]
  | advances y grows other old next entries here advances =>
    by_cases hsame : other = number
    · subst hsame
      cases here.symm.trans h
      refine ⟨next, ?_, advances.same⟩
      show (y.tickets.set other next)[other]? = some next
      rw [grows.tickets, List.getElem?_set_self (List.getElem?_eq_some_iff.mp h).1]
    · refine ⟨ticket, ?_, .refl ticket⟩
      show (y.tickets.set other next)[number]? = some ticket
      rw [grows.tickets, List.getElem?_set_ne hsame, h]

theorem same_run (h : x.tickets[number]? = some ticket) (moves : List (Move η ω ι)) :
    ∃ next, (x.run moves).tickets[number]? = some next ∧ ticket.Same next := by
  induction moves generalizing x ticket with
  | nil => exact ⟨ticket, h, .refl ticket⟩
  | cons move moves ih =>
    obtain ⟨middle, hmiddle, hsame⟩ := same_change h (change_step x move)
    obtain ⟨next, hnext, hafter⟩ := ih hmiddle
    exact ⟨next, hnext, hsame.trans hafter⟩

end Desk

end Sequencer
