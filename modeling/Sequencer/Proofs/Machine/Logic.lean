import Sequencer.Machine.Chain

/-!
# Logics — what a dispatch does to the core of its machine

The logic of a machine sees a view of the core and answers with deeds: it moves the machine, opens
and closes transitions, one in another or one after another, and completes the machine.  This file
performs deeds on a core and reads off what they come to: the state in which they leave the machine,
the states that their transitions queue, and whether they complete it.
-/

namespace Sequencer

/-- The deeds of the logic in one dispatch, in order. -/
inductive Deeds where
  | done
  | become (state : String) (rest : Deeds)
  | complete (rest : Deeds)
  /-- A transition opens, `body` is done in it, and it closes. -/
  | transition (body rest : Deeds)
  deriving DecidableEq, Repr

/-- What the logic sees of its machine when a dispatch starts. -/
structure View where
  machine : String
  state : String
  previous : Option String
  entry : Bool
  deriving DecidableEq, Repr

/-- What the logic does in a dispatch, how it comes back and what it keeps for the next one. -/
structure Reaction (σ : Type) where
  deeds : Deeds
  result : Except Failure Unit
  memory : σ

/-- A logic that keeps a memory of the type `σ` between its dispatches. -/
abbrev Logic (σ : Type) := σ → View → Reaction σ

namespace Deeds

/-! ## 1. What deeds come to -/

/-- The state in which a machine that was in `state` is left. -/
def final (state : String) : Deeds → String
  | done => state
  | become next rest => rest.final next
  | complete rest => rest.final state
  | transition body rest => rest.final (body.final state)

/-- The states in which the transitions close, in the order in which they close. -/
def closings (state : String) : Deeds → List String
  | done => []
  | become next rest => rest.closings next
  | complete rest => rest.closings state
  | transition body rest =>
    body.closings state ++ body.final state :: rest.closings (body.final state)

def completes : Deeds → Bool
  | done => false
  | become _ rest => rest.completes
  | complete _ => true
  | transition body rest => body.completes || rest.completes

def transitions : Deeds → Nat
  | done => 0
  | become _ rest => rest.transitions
  | complete rest => rest.transitions
  | transition body rest => body.transitions + 1 + rest.transitions

/-- Every transition queues one state. -/
theorem length_closings (deeds : Deeds) (state : String) :
    (deeds.closings state).length = deeds.transitions := by
  induction deeds generalizing state with
  | done => rfl
  | become next rest ih => exact ih next
  | complete rest ih => exact ih state
  | transition body rest ihBody ihRest =>
    simp only [closings, transitions, List.length_append, List.length_cons]
    rw [ihBody, ihRest]
    omega

end Deeds

namespace Core

/-! ## 2. Deeds on a core -/

def view (core : Core) : View :=
  { machine := core.name, state := core.current, previous := core.previous, entry := core.entered }

def perform (core : Core) : Deeds → Core
  | .done => core
  | .become state rest => (core.become state).perform rest
  | .complete rest => core.complete.perform rest
  | .transition body rest => (core.perform body).closeTransition.perform rest

/-- Deeds move the machine, queue what their transitions close in and may complete it; they touch
nothing else. -/
theorem perform_eq (core : Core) (deeds : Deeds) :
    core.perform deeds =
      { core with
        current := deeds.final core.current
        pending := core.pending ++ deeds.closings core.current
        completed := core.completed || deeds.completes } := by
  induction deeds generalizing core with
  | done => simp [perform, Deeds.final, Deeds.closings, Deeds.completes]
  | become state rest ih =>
    rw [perform, ih]
    rfl
  | complete rest ih =>
    rw [perform, ih]
    simp [complete, Deeds.final, Deeds.closings, Deeds.completes]
  | transition body rest ihBody ihRest =>
    -- An inner transition closes before the outer one.
    rw [perform, ihRest, ihBody]
    simp [closeTransition, Deeds.final, Deeds.closings, Deeds.completes, Bool.or_assoc]

end Core

namespace Chain

/-! ## 3. The return of a dispatch -/

theorem settle_completed {core : Core} (chain : Chain) (state : String)
    (h : core.completed = true) :
    settle core chain state (.ok ()) =
      { core, event := some core.completedEvent, cancels := true, next := .error (.ok ()) } := by
  simp only [settle, h, if_true]

theorem settle_last {core : Core} {chain : Chain} (state : String) (h : core.completed = false)
    (hwork : core.pending ++ chain.work = []) :
    settle core chain state (.ok ()) =
      { core := { core with pending := [] }, next := .error (.ok ()) } := by
  simp only [settle, h, hwork, if_neg Bool.false_ne_true]

theorem settle_next {core : Core} {chain : Chain} (state : String) {following : String}
    {work : List String} (h : core.completed = false)
    (hwork : core.pending ++ chain.work = following :: work) :
    settle core chain state (.ok ()) =
      { core := { core with pending := [], current := following }
        next := .ok { source := chainedSource, work } } := by
  simp only [settle, h, hwork, if_neg Bool.false_ne_true]

/-- The return of a dispatch moves the machine and takes what it queued off; it touches nothing
else of the core. -/
theorem core_settle (core : Core) (chain : Chain) (state : String)
    (result : Except Failure Unit) :
    ∃ pending current,
      (settle core chain state result).core = { core with pending, current } := by
  unfold settle
  split
  · exact ⟨_, _, rfl⟩
  · split
    · exact ⟨_, _, rfl⟩
    · split <;> exact ⟨_, _, rfl⟩

theorem name_settle (core : Core) (chain : Chain) (state : String)
    (result : Except Failure Unit) : (settle core chain state result).core.name = core.name := by
  obtain ⟨pending, current, h⟩ := core_settle core chain state result
  rw [h]

end Chain

end Sequencer
