import Sequencer.Backoff

/-!
# Configuration — the knobs shared by everything a host makes
-/

namespace Sequencer

/-- The least time between the starts of two iterations of a loop. -/
def minLoopInterval : Duration := Duration.ofMillis 50

/-- The settings of a host. -/
structure Config where
  /-- The default interval of loops, and a floor for every other one. -/
  loopInterval : Duration := minLoopInterval
  /-- How many events the bus keeps for a slow receiver. -/
  busCapacity : Nat := 1024
  /-- How many refreshes wait in the mailbox of a machine. -/
  mailboxCapacity : Nat := 64
  /-- The bound of a single fetch of a variable; zero is no bound. -/
  getTimeout : Duration := .zero
  /-- How long a shutdown waits for background work. -/
  grace : Duration := Duration.ofParts 5 0
  /-- The delay between the attempts of a handler. -/
  backoff : Backoff := .immediate
  deriving Repr, Inhabited

namespace Config

/-- The bound of a fetch, if there is one. -/
def fetchBound (config : Config) : Option Duration :=
  if config.getTimeout.isZero then none else some config.getTimeout

/-- The capacity of the bus, at least one. -/
def busSlots (config : Config) : Nat := Nat.max config.busCapacity 1

/-- The capacity of a mailbox, at least one. -/
def mailboxSlots (config : Config) : Nat := Nat.max config.mailboxCapacity 1

/-- A requested loop interval under the floor of the host. -/
def effectiveInterval (config : Config) (requested : Duration) : Duration :=
  requested.max config.loopInterval

end Config

end Sequencer
