/-!
# Rings — the newest messages of a broadcast

Every message of a broadcast has a position, counted from zero. A ring keeps the newest messages,
as many as it has slots, and a receiver is the position that it reads next. A receiver that fell
behind the oldest kept message skips to it and learns how many it missed.
-/

namespace Sequencer

/-- The newest messages of a broadcast. -/
structure Ring (α : Type) where
  /-- How many messages are kept. -/
  slots : Nat
  /-- How many messages were sent. -/
  sent : Nat := 0
  /-- The kept messages, the oldest first. -/
  kept : List α := []

/-- What a receiver finds. -/
inductive Received (α : Type) where
  /-- The message at its position; it goes on after it. -/
  | message (message : α) (cursor : Nat)
  /-- Some messages are gone; it goes on with the oldest kept one. -/
  | lagged (missed : Nat) (cursor : Nat)
  /-- Nothing yet. -/
  | empty

namespace Ring

variable {α : Type}

/-- An empty ring. A broadcast with room for `capacity` messages keeps the next power of two. -/
def ofCapacity (capacity : Nat) : Ring α := { slots := capacity.nextPowerOfTwo }

/-- The position of the oldest kept message. -/
def oldest (ring : Ring α) : Nat := ring.sent - ring.kept.length

/-- The ring after one more message. -/
def send (ring : Ring α) (message : α) : Ring α :=
  let kept := ring.kept ++ [message]
  { ring with
    sent := ring.sent + 1
    kept := if ring.slots < kept.length then kept.drop 1 else kept }

/-- The cursor of a receiver of all later messages. -/
def subscribe (ring : Ring α) : Nat := ring.sent

/-- What the receiver at `cursor` finds. -/
def receive (ring : Ring α) (cursor : Nat) : Received α :=
  if cursor < ring.oldest then .lagged (ring.oldest - cursor) ring.oldest
  else match ring.kept[cursor - ring.oldest]? with
    | some message => .message message (cursor + 1)
    | none => .empty

/-- The next message for the receiver at `cursor`, however many it missed before. -/
def next (ring : Ring α) (cursor : Nat) : Option (α × Nat) :=
  match ring.receive cursor with
  | .message message cursor => some (message, cursor)
  | .lagged _ cursor =>
    match ring.receive cursor with
    | .message message cursor => some (message, cursor)
    | _ => none
  | .empty => none

/-- A message, or a number of missed ones in their place. -/
inductive Notice (α : Type) where
  | message (message : α)
  | lagged (missed : Nat)

/-- Everything that the receiver at `cursor` finds until nothing is left, and its cursor then. -/
def drain (ring : Ring α) (cursor : Nat) : List (Notice α) × Nat :=
  let start := Nat.max cursor ring.oldest
  let missed := if cursor < ring.oldest then [Notice.lagged (ring.oldest - cursor)] else []
  (missed ++ (ring.kept.drop (start - ring.oldest)).map Notice.message, Nat.max start ring.sent)

end Ring

end Sequencer
