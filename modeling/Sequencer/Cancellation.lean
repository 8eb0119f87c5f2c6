/-!
# Cancellation — flags that reach everything below them

A cancellation token is made on its own or under another token. Cancelling a token cancels every
token below it, and a token made under a cancelled one is cancelled from the start. A token that
nobody holds any more leaves the tree, and what was below it moves up.

The order in which the tokens of a tree are told is fixed: the latest child of a token first; before
it those of its own children that have no children, the latest first; its other children are put
off, as if they were children of the token; and the token itself comes last.
-/

namespace Sequencer

/-- A token. -/
structure Cancellation.Token where
  cancelled : Bool := false
  parent : Option Nat := none
  /-- The tokens under it, in the order in which they came. -/
  children : List Nat := []
  /-- How many hold it. -/
  holders : Nat := 1
  deriving Inhabited

/-- Tokens, numbered in the order in which they were made. -/
structure Cancellation where
  tokens : Array Cancellation.Token := #[]

namespace Cancellation

/-- The token of a number; an unknown number is a cancelled one. -/
def token (cancellation : Cancellation) (t : Nat) : Token :=
  cancellation.tokens.getD t { cancelled := true }

/-- Whether a token is cancelled. -/
def isCancelled (cancellation : Cancellation) (t : Nat) : Bool := (cancellation.token t).cancelled

/-- One token is changed. -/
def modify (cancellation : Cancellation) (t : Nat) (f : Token → Token) : Cancellation :=
  ⟨cancellation.tokens.modify t f⟩

/-- A token on its own. -/
def fresh (cancellation : Cancellation) : Cancellation × Nat :=
  (⟨cancellation.tokens.push {}⟩, cancellation.tokens.size)

/-- A token under another one. -/
def child (cancellation : Cancellation) (parent : Nat) : Cancellation × Nat :=
  let number := cancellation.tokens.size
  if cancellation.isCancelled parent then
    (⟨cancellation.tokens.push { cancelled := true }⟩, number)
  else
    let extended : Cancellation := ⟨cancellation.tokens.push { parent := some parent }⟩
    (extended.modify parent fun token => { token with children := token.children ++ [number] },
      number)

/-! ## Cancelling -/

/-- The tokens below a list of tokens and these themselves, without those that are cancelled, in
the order in which they are told. -/
def below (cancellation : Cancellation) : (fuel : Nat) → (tokens : List Nat) → List Nat
  | 0, _ => []
  | _, [] => []
  | fuel + 1, t :: rest =>
    if cancellation.isCancelled t then below cancellation fuel rest
    else
      let children :=
        (cancellation.token t).children.reverse.filter fun child => !cancellation.isCancelled child
      let (leaves, others) :=
        children.partition fun child => (cancellation.token child).children.isEmpty
      leaves ++ t :: below cancellation fuel (others.reverse ++ rest)

/-- The tokens that cancelling `t` reaches, in the order in which they are told. -/
def reached (cancellation : Cancellation) (t : Nat) : List Nat :=
  if cancellation.isCancelled t then []
  else
    below cancellation (2 * cancellation.tokens.size) (cancellation.token t).children.reverse
      ++ [t]

/-- `t` and every token below it are cancelled. -/
def cancel (cancellation : Cancellation) (t : Nat) : Cancellation × List Nat :=
  let reached := cancellation.reached t
  (reached.foldl
    (fun cancellation r =>
      cancellation.modify r fun token =>
        { token with
          cancelled := true
          children := []
          parent := if r = t then token.parent else none })
    cancellation, reached)

/-! ## Holding -/

/-- One more holds `t`. -/
def retain (cancellation : Cancellation) (t : Nat) : Cancellation :=
  cancellation.modify t fun token => { token with holders := token.holders + 1 }

/-- A list without its entry `x`, whose place the last entry takes. -/
def swapOut (x : Nat) (list : List Nat) : List Nat :=
  match list.getLast? with
  | none => list
  | some last => (list.map fun y => if y = x then last else y).dropLast

/-- `t` leaves the tree. -/
def remove (cancellation : Cancellation) (t : Nat) : Cancellation :=
  let token := cancellation.token t
  let moved :=
    token.children.foldl
      (fun cancellation child =>
        cancellation.modify child fun below => { below with parent := token.parent })
      (cancellation.modify t fun token => { token with parent := none, children := [] })
  match token.parent with
  | none => moved
  | some parent =>
    moved.modify parent fun above =>
      { above with children := swapOut t (above.children ++ token.children) }

/-- One less holds `t`; the last one takes it out of the tree. -/
def release (cancellation : Cancellation) (t : Nat) : Cancellation :=
  let holders := (cancellation.token t).holders - 1
  let released := cancellation.modify t fun token => { token with holders }
  if holders = 0 then released.remove t else released

end Cancellation

end Sequencer
