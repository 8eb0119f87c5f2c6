import Sequencer.Failure
import Sequencer.Json

/-!
# Acts — what the bodies of operations are made of

The body of a handler, a task, a loop or a machine is a list of acts that run in order. An act that
fails ends its list. Conditions look at the counters, variables and the clock of a rehearsal, and in
the logic of a machine also at the machine.
-/

namespace Sequencer

/-- A comparison of two documents. -/
inductive Comparison where
  | equal
  | different
  | below
  | atMost
  | above
  | atLeast
  deriving DecidableEq, Repr

/-- Whether a comparison holds. Order is that of numbers; other documents have none. -/
def Comparison.holds (comparison : Comparison) (a b : Json) : Bool :=
  let ordered (f : Binary64 → Binary64 → Bool) : Bool :=
    match a.number?, b.number? with
    | some x, some y => f x y
    | _, _ => false
  match comparison with
  | equal => a.same b
  | different => !a.same b
  | below => ordered fun x y => x.lt y
  | atMost => ordered fun x y => x.lt y || x.same y
  | above => ordered fun x y => y.lt x
  | atLeast => ordered fun x y => y.lt x || x.same y

/-- A condition. -/
inductive Condition where
  | always (holds : Bool)
  | counter (id : String) (comparison : Comparison) (document : Json)
  /-- The value of a variable; one without a value is `null`. -/
  | value (id : String) (comparison : Comparison) (document : Json)
  /-- The clock, in milliseconds. -/
  | time (comparison : Comparison) (document : Json)
  | negation (condition : Condition)
  /-- The running dispatch is the first one in its state. -/
  | entry
  | state (state : String)
  | previous (state : String)
  /-- The state is a number below the bound. -/
  | stateBelow (bound : Int)

/-- One act. -/
inductive Act where
  | log (document : Json)
  | sleep (millis : Nat)
  /-- Everything else that can run runs first. -/
  | yield
  | add (counter : String) (amount : Int)
  | fail (failure : Failure)
  | panic (payload : Payload)
  /-- All enclosing lists end with a value. -/
  | ret (document : Json)
  | branch (condition : Condition) (yes no : List Act)
  /-- The enclosing loop gets the stop signal. -/
  | stopWhen (condition : Condition)
  | publish (key : String) (document : Json)
  | set (id : String) (document : Json)
  /-- A variable is published. -/
  | put (id : String)
  /-- A variable is fetched. -/
  | get (id : String)
  /-- What a reader sees of a variable is noted. -/
  | reveal (id : String)
  | monitor (source id : String)
  | fanOut (tasks : List (List Act))
  | trigger (machine source : String)
  | stopMachine (machine : String)
  | cancelLoop (id : String)
  | become (state : String)
  /-- The state is a number, and the next number becomes the state. -/
  | countUp
  | complete
  /-- The machine, its state, its previous state and its entry flag are noted. -/
  | locate
  /-- A transition is open while the acts run. -/
  | transition (condition : Condition) (acts : List Act)
  /-- A transition opens after a delay, unless the machine is cancelled before. -/
  | transitionAfter (millis : Nat) (acts : List Act)

/-! ## Numbers in states -/

/-- Why a text is no number of 64 bits. -/
inductive CountFault where
  | empty
  | invalidDigit
  | tooLarge
  deriving DecidableEq, Repr

/-- What is reported for a text that is no number. -/
def CountFault.text : CountFault → String
  | empty => "cannot parse integer from empty string"
  | invalidDigit => "invalid digit found in string"
  | tooLarge => "number too large to fit in target type"

/-- The digits that are left, after those that make `n`. -/
def readDigits (n : Nat) : List Char → Except CountFault Nat
  | [] => .ok n
  | c :: rest =>
    if c.isDigit then
      let next := n * 10 + (c.toNat - '0'.toNat)
      if next < wordSize 64 then readDigits next rest else .error .tooLarge
    else .error .invalidDigit

/-- A number of 64 bits in decimal, perhaps with a plus sign. -/
def readCount (text : String) : Except CountFault Nat :=
  match text.toList with
  | [] => .error .empty
  | ['+'] => .error .invalidDigit
  | '+' :: digits => readDigits 0 digits
  | digits => readDigits 0 digits

end Sequencer
