/-!
# Rosters — the background work that has not ended

Background work is registered under its name when it is started, and its task holds a token. The
registration goes when the work has ended, however it ended, and the token goes after it. The two
are kept apart: the registrations tell which work is left, and only the tokens are waited for. Names
may repeat.
-/

namespace Sequencer

/-! ## 1. Tokens -/

/-- The tokens of background work. -/
structure Tracker where
  /-- How many tokens are held. -/
  held : Nat := 0
  closed : Bool := false
  /-- Whether somebody waits for the last token. -/
  awaited : Bool := false
  /-- Whether there was a moment since then at which the tracker was closed and no token held. -/
  settled : Bool := false

namespace Tracker

/-- Whether nothing is left of what somebody waits for. -/
def isOver (tracker : Tracker) : Bool :=
  tracker.awaited && tracker.closed && tracker.held == 0

/-- The tracker notes whether it is settled. -/
def noted (tracker : Tracker) : Tracker :=
  { tracker with settled := tracker.settled || tracker.isOver }

/-- A token is taken. -/
def take (tracker : Tracker) : Tracker := { tracker with held := tracker.held + 1 }

/-- A token is dropped. -/
def drop (tracker : Tracker) : Tracker := { tracker with held := tracker.held - 1 }.noted

/-- The tracker is closed. -/
def close (tracker : Tracker) : Tracker := { tracker with closed := true }.noted

/-- Somebody begins to wait. -/
def await (tracker : Tracker) : Tracker := { tracker with awaited := true }.noted

end Tracker

/-! ## 2. Registrations -/

/-- The background work that has not ended. -/
structure Roster where
  /-- The number of every registration and its name. -/
  entries : List (Nat × String) := []
  /-- The number of the next registration. -/
  next : Nat := 0
  tracker : Tracker := {}

namespace Roster

/-- Work is registered. -/
def register (roster : Roster) (name : String) : Roster × Nat :=
  ({ roster with entries := roster.entries ++ [(roster.next, name)], next := roster.next + 1 },
    roster.next)

/-- A registration is dropped. -/
def deregister (roster : Roster) (entry : Nat) : Roster :=
  { roster with entries := roster.entries.filter fun e => e.1 ≠ entry }

/-- The names of the work that has not ended, sorted. -/
def names (roster : Roster) : List String :=
  (roster.entries.map (·.2)).mergeSort fun a b => decide (a ≤ b)

/-! ## 3. Work that starts and ends in one go -/

/-- Work is registered, and its task takes a token. -/
def enter (roster : Roster) (name : String) : Roster × Nat :=
  let (registered, entry) := roster.register name
  ({ registered with tracker := registered.tracker.take }, entry)

/-- Work has ended: its registration is dropped, and then its token. -/
def leave (roster : Roster) (entry : Nat) : Roster :=
  let left := roster.deregister entry
  { left with tracker := left.tracker.drop }

end Roster

end Sequencer
