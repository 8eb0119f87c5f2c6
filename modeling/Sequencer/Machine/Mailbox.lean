/-!
# Mailboxes — bounded queues with fair waiting

A mailbox holds at most its capacity of requests. A request that does not wait is refused when the
mailbox is full. A sender that waits takes its place behind the senders that came before it; when a
request is taken out, its slot is reserved for the first waiting sender, and nobody else can have
it. A closed mailbox takes nothing, not even from a sender with a reserved slot.
-/

namespace Sequencer

/-- A bounded queue of requests. -/
structure Mailbox (ρ : Type) where
  capacity : Nat
  /-- The requests in the mailbox, the oldest first. -/
  queue : List ρ := []
  /-- The senders that have a reserved slot and did not use it yet. -/
  granted : List Nat := []
  /-- The senders that wait for a slot, the first one first. -/
  waiting : List Nat := []
  closed : Bool := false

/-- What a request meets. -/
inductive Posting where
  | entered
  | full
  | closed
  deriving DecidableEq, Repr

namespace Mailbox

variable {ρ : Type}

/-- The slots that are used or reserved. -/
def taken (mailbox : Mailbox ρ) : Nat := mailbox.queue.length + mailbox.granted.length

/-- Whether a slot is free. -/
def hasRoom (mailbox : Mailbox ρ) : Bool := mailbox.taken < mailbox.capacity

/-- The mailbox with one more request at its end. -/
def enter (mailbox : Mailbox ρ) (request : ρ) : Mailbox ρ :=
  { mailbox with queue := mailbox.queue ++ [request] }

/-- A request that does not wait. -/
def post (mailbox : Mailbox ρ) (request : ρ) : Mailbox ρ × Posting :=
  if mailbox.closed then (mailbox, .closed)
  else if mailbox.hasRoom then (mailbox.enter request, .entered)
  else (mailbox, .full)

/-- A sender has neither a place nor a reserved slot any more. -/
def forget (mailbox : Mailbox ρ) (sender : Nat) : Mailbox ρ :=
  { mailbox with granted := mailbox.granted.erase sender, waiting := mailbox.waiting.erase sender }

/-- A request of a sender that waits if it must. A sender with a reserved slot uses it, a new one
that finds a free slot takes it, and any other one has or gets a place among the waiting ones. -/
def send (mailbox : Mailbox ρ) (sender : Nat) (request : ρ) : Mailbox ρ × Posting :=
  if mailbox.closed then (mailbox.forget sender, .closed)
  else if sender ∈ mailbox.granted then ((mailbox.forget sender).enter request, .entered)
  else if sender ∈ mailbox.waiting then (mailbox, .full)
  else if mailbox.hasRoom then (mailbox.enter request, .entered)
  else ({ mailbox with waiting := mailbox.waiting ++ [sender] }, .full)

/-- A freed slot is reserved for the first waiting sender, who is told. -/
def grant (mailbox : Mailbox ρ) : Mailbox ρ × Option Nat :=
  match mailbox.waiting with
  | [] => (mailbox, none)
  | sender :: waiting =>
    ({ mailbox with waiting, granted := mailbox.granted ++ [sender] }, some sender)

/-- The oldest request is taken out. -/
def take (mailbox : Mailbox ρ) : Option (ρ × Mailbox ρ × Option Nat) :=
  match mailbox.queue with
  | [] => none
  | request :: queue => some (request, { mailbox with queue }.grant)

/-- A sender gives up: its place is free, and a slot reserved for it goes to the next one. -/
def abandon (mailbox : Mailbox ρ) (sender : Nat) : Mailbox ρ × Option Nat :=
  if sender ∈ mailbox.granted ∧ ¬ mailbox.closed then (mailbox.forget sender).grant
  else (mailbox.forget sender, none)

/-- The mailbox takes nothing more. The senders that still waited are told, in order. -/
def close (mailbox : Mailbox ρ) : Mailbox ρ × List Nat :=
  ({ mailbox with closed := true, waiting := [] }, mailbox.waiting)

/-- The requests that are left are taken out. -/
def drain (mailbox : Mailbox ρ) : List ρ × Mailbox ρ :=
  (mailbox.queue, { mailbox with queue := [] })

end Mailbox

end Sequencer
