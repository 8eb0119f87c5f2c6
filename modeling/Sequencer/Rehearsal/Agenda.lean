/-!
# Agendas — tasks on one thread with a clock of their own

An agenda holds tasks, the queue of those that can run, and what the others wait for. A task runs
until it has to wait; it then names the signals that wake it. A signal wakes the tasks that wait for
it in the order in which they began to wait, and every woken task goes to the end of the queue. The
clock stands still while a task can run, and then jumps to the next timer.

A wait that a task names again when it comes back to rest keeps its place.
-/

namespace Sequencer

/-- Something that can wake a task. -/
inductive Signal where
  /-- A timer reaches its deadline. -/
  | time (timer deadline : Nat)
  /-- A token is cancelled. -/
  | token (token : Nat)
  /-- An event is published. -/
  | bus
  /-- A sample of a key is published. -/
  | topic (key : String)
  /-- A request enters the mailbox of a machine, or nobody is left to send one. -/
  | mail (machine : Nat)
  /-- A sender has a slot in a mailbox, or never will. -/
  | room (machine sender : Nat)
  /-- A refresh is answered, or never will be. -/
  | reply (reply : Nat)
  /-- A task ends. -/
  | ended (task : Nat)
  /-- An event is queued for an observer, or none ever will be again. -/
  | queue (observer : Nat)
  /-- The roster is settled. -/
  | roster
  /-- Everything else that could run has run. -/
  | turn
  /-- Every task waits. -/
  | quiet
  deriving DecidableEq, Repr

namespace Signal

/-- The deadline of a timer. -/
def deadline? : Signal → Option Nat
  | time _ deadline => some deadline
  | _ => none

end Signal

/-- A task that waits for a signal. -/
structure Waiting where
  signal : Signal
  task : Nat
  deriving DecidableEq, Repr

/-- A task. The type `σ` is that of its code, and `ρ` that of its result. -/
structure Task (σ ρ : Type) where
  /-- What it goes on with when it is next run. -/
  code : σ
  /-- Whether it is in the queue. -/
  queued : Bool := true
  /-- Whether it is to be dropped instead of run. -/
  aborted : Bool := false
  /-- Its result, once it has ended, and how many tasks had ended before it. -/
  result : Option (ρ × Nat) := none

/-- Tasks, numbered in the order in which they were spawned. -/
structure Agenda (σ ρ : Type) where
  /-- The time in milliseconds. -/
  clock : Nat := 0
  tasks : Array (Task σ ρ) := #[]
  /-- The tasks that can run, the next one first. -/
  ready : List Nat := []
  /-- The waits, the oldest first. -/
  waits : List Waiting := []
  /-- How many tasks have ended. -/
  endings : Nat := 0

namespace Agenda

variable {σ ρ : Type}

/-! ## 1. Tasks -/

/-- A new task, at the end of the queue. -/
def spawn (agenda : Agenda σ ρ) (code : σ) : Agenda σ ρ × Nat :=
  let task := agenda.tasks.size
  ({ agenda with tasks := agenda.tasks.push { code }, ready := agenda.ready ++ [task] }, task)

/-- The result of a task that has ended. -/
def result? (agenda : Agenda σ ρ) (task : Nat) : Option (ρ × Nat) :=
  agenda.tasks[task]?.bind (·.result)

/-- Whether a task has ended. -/
def hasEnded (agenda : Agenda σ ρ) (task : Nat) : Bool := (agenda.result? task).isSome

/-- A task goes to the end of the queue, unless it is in it or has ended. -/
def enqueue (agenda : Agenda σ ρ) (task : Nat) : Agenda σ ρ :=
  match agenda.tasks[task]? with
  | none => agenda
  | some entry =>
    if entry.queued || entry.result.isSome then agenda
    else
      { agenda with
        tasks := agenda.tasks.set! task { entry with queued := true }
        ready := agenda.ready ++ [task] }

/-- The next task that can run is taken off the queue: its number, its code, and whether it is to be
dropped. -/
def next (agenda : Agenda σ ρ) : Option ((Nat × σ × Bool) × Agenda σ ρ) :=
  match agenda.ready with
  | [] => none
  | task :: ready =>
    match agenda.tasks[task]? with
    | none => none
    | some entry =>
      some ((task, entry.code, entry.aborted),
        { agenda with ready, tasks := agenda.tasks.set! task { entry with queued := false } })

/-- A task is to be dropped. -/
def abort (agenda : Agenda σ ρ) (task : Nat) : Agenda σ ρ :=
  if agenda.hasEnded task then agenda
  else
    { agenda with
      tasks := agenda.tasks.modify task fun entry => { entry with aborted := true } }.enqueue task

/-! ## 2. Waits -/

/-- The signals of some kind wake the tasks that wait for them, the oldest wait first. -/
def wakeWhere (agenda : Agenda σ ρ) (kind : Signal → Bool) : Agenda σ ρ :=
  let (woken, waits) := agenda.waits.partition fun waiting => kind waiting.signal
  woken.foldl (fun agenda waiting => agenda.enqueue waiting.task) { agenda with waits }

/-- A signal wakes the tasks that wait for it. -/
def wake (agenda : Agenda σ ρ) (signal : Signal) : Agenda σ ρ := agenda.wakeWhere (· = signal)

/-- A task comes to rest until one of the wanted signals. -/
def park (agenda : Agenda σ ρ) (task : Nat) (code : σ) (wanted : List Signal) : Agenda σ ρ :=
  let kept := agenda.waits.filter fun waiting =>
    waiting.task ≠ task || wanted.contains waiting.signal
  let added := wanted.filter fun signal => !kept.contains ⟨signal, task⟩
  { agenda with
    tasks := agenda.tasks.modify task fun entry => { entry with code }
    waits := kept ++ added.map fun signal => ⟨signal, task⟩ }

/-- A task waits for nothing but timers. -/
def leaveWaits (agenda : Agenda σ ρ) (task : Nat) : Agenda σ ρ :=
  { agenda with
    waits := agenda.waits.filter fun waiting =>
      waiting.task ≠ task || waiting.signal.deadline?.isSome }

/-- A task ends, and those that wait for its end are woken. -/
def finish (agenda : Agenda σ ρ) (task : Nat) (result : ρ) : Agenda σ ρ :=
  let ended := { agenda with
    tasks := agenda.tasks.modify task fun entry =>
      { entry with result := some (result, agenda.endings) }
    waits := agenda.waits.filter fun waiting => waiting.task ≠ task
    endings := agenda.endings + 1 }
  ended.wake (.ended task)

/-! ## 3. Time -/

/-- The earliest deadline of all timers. -/
def earliest (agenda : Agenda σ ρ) : Option Nat :=
  (agenda.waits.filterMap (·.signal.deadline?)).min?

/-- Nothing can run: those that let others go first are woken, or else those that wait for quiet, or
else the clock goes on to the earliest timer. Without a timer nothing will ever run again. -/
def elapse (agenda : Agenda σ ρ) : Option (Agenda σ ρ) :=
  if agenda.waits.any fun waiting => waiting.signal = .turn then some (agenda.wake .turn)
  else if agenda.waits.any fun waiting => waiting.signal = .quiet then some (agenda.wake .quiet)
  else match agenda.earliest with
    | none => none
    | some deadline =>
      let clock := Nat.max agenda.clock deadline
      some ({ agenda with clock }.wakeWhere fun signal =>
        match signal.deadline? with
        | some deadline => decide (deadline ≤ clock)
        | none => false)

end Agenda

end Sequencer
