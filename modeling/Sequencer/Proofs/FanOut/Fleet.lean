import Sequencer.FanOut
import Mathlib.Data.List.Perm.Basic
import Mathlib.Data.List.Range

/-!
# Fleets — the tasks of a fan-out, and the call that sent them out

A call spawns its tasks one after the other, and only then begins to collect them, in the order in
which they come in.  The tasks go on meanwhile in any order: they take steps, and each one comes in
once, with a value or without.  Somebody may drop the call before it is over.  Time passes only
while the call waits, so that it collects a task at the moment at which it came in.
-/

namespace Sequencer

namespace Fleet

/-! ## 1. A call and its tasks -/

structure Arrival (α : Type) where
  place : Nat
  ended : TaskEnd α
  time : Nat

/-- The failure of a task that came in without a value. -/
def Arrival.failure? {α : Type} (arrival : Arrival α) : Option Failure :=
  match arrival.ended with
  | .value _ => none
  | .failed failure => some failure
  | .panicked payload => some (.panicked (toString arrival.place) payload.reason)
  -- Somebody else stopped it.
  | .aborted => some .cancelled

inductive Phase (α : Type) where
  | spawning
  | collecting (fan : FanOut α)
  /-- It has returned, at this time. -/
  | over (result : Except Failure (List α)) (time : Nat)
  | dropped

inductive Move (α : Type) where
  | advance
  /-- A task takes a step and does not come in. -/
  | step (place : Nat)
  | arrive (place : Nat) (ended : TaskEnd α)
  | pass (millis : Nat)
  | drop

def Move.isAdvance {α : Type} : Move α → Bool
  | advance => true
  | _ => false

def Move.isDrop {α : Type} : Move α → Bool
  | drop => true
  | _ => false

end Fleet

structure Fleet (α : Type) where
  size : Nat
  /-- Whether the call has a bus to tell its failure on. -/
  hosted : Bool
  clock : Nat
  phase : Fleet.Phase α := .spawning
  /-- The times at which the tasks were spawned, in their order. -/
  spawned : List Nat := []
  /-- The places of the tasks that are under way. -/
  running : List Nat := []
  arrivals : List (Fleet.Arrival α) := []
  /-- How many of those the call has collected. -/
  collected : Nat := 0
  /-- The places of the tasks that took steps, in order. -/
  steps : List Nat := []
  told : List Event := []

namespace Fleet

variable {α : Type}

def start (size : Nat) (hosted : Bool) (began : Nat) : Fleet α := { size, hosted, clock := began }

/-- Whether the call can do nothing but wait. -/
def waits (x : Fleet α) : Bool :=
  match x.phase with
  | .spawning => false
  | .collecting fan => decide (x.arrivals.length ≤ x.collected) && !fan.isOver
  | _ => true

def spawn (x : Fleet α) : Fleet α :=
  { x with spawned := x.spawned ++ [x.clock], running := x.running ++ [x.spawned.length] }

def stop (x : Fleet α) (places : List Nat) : Fleet α :=
  { x with running := x.running.filter (· ∉ places) }

def collect (x : Fleet α) (fan : FanOut α) (arrival : Arrival α) : Fleet α :=
  match fan.take arrival.place arrival.ended with
  | .going fan => { x with phase := .collecting fan, collected := x.collected + 1 }
  | .failed failure cancelled =>
    { x.stop cancelled with
      phase := .over (.error failure) x.clock
      collected := x.collected + 1
      told := x.told ++ if x.hosted then [FanOut.failedEvent failure] else [] }

def advance (x : Fleet α) : Fleet α :=
  match x.phase with
  | .spawning =>
    if x.spawned.length < x.size then x.spawn
    else { x with phase := .collecting (.ofSize x.size) }
  | .collecting fan =>
    match x.arrivals[x.collected]? with
    | some arrival => x.collect fan arrival
    | none => if fan.isOver then { x with phase := .over (.ok fan.values) x.clock } else x
  | _ => x

def arrive (x : Fleet α) (place : Nat) (ended : TaskEnd α) : Fleet α :=
  { x with
    running := x.running.erase place
    arrivals := x.arrivals ++ [{ place, ended, time := x.clock }]
    steps := x.steps ++ [place] }

def drop (x : Fleet α) : Fleet α :=
  match x.phase with
  -- It spawns all of its tasks at one go, so that it is dropped before the first one or after all.
  | .spawning => if x.spawned = [] then { x with phase := .dropped } else x
  | .collecting fan => { x.stop fan.running with phase := .dropped }
  | _ => x

/-- A step; one that cannot be taken changes nothing. -/
def step (x : Fleet α) : Move α → Fleet α
  | .advance => x.advance
  | .step place => if place ∈ x.running then { x with steps := x.steps ++ [place] } else x
  | .arrive place ended => if place ∈ x.running then x.arrive place ended else x
  | .pass millis => if x.waits then { x with clock := x.clock + millis } else x
  | .drop => x.drop

def run (x : Fleet α) (moves : List (Move α)) : Fleet α := moves.foldl step x

end Fleet

/-! ## 2. What a fan-out keeps of the tasks that it took -/

namespace FanOut

variable {α : Type} {fan : FanOut α} {size : Nat} {taken : List (Fleet.Arrival α)}
  {arrival : Fleet.Arrival α}

/-- Each task in `taken` gave a value, and the value is in its place; the others still run. -/
structure Gathers (fan : FanOut α) (size : Nat) (taken : List (Fleet.Arrival α)) : Prop where
  slots : fan.slots.length = size
  filled : ∀ arrival ∈ taken, ∃ value,
    arrival.ended = .value value ∧ fan.slots[arrival.place]? = some (some value)
  running : ∀ place, place ∈ fan.running ↔ place < size ∧ place ∉ taken.map (·.place)
  distinct : fan.running.Nodup

theorem gathers_ofSize (size : Nat) : (ofSize size : FanOut α).Gathers size [] where
  slots := List.length_replicate
  filled := fun _ h => absurd h List.not_mem_nil
  running place := by simp [ofSize]
  distinct := List.nodup_range

theorem failure?_eq_none : arrival.failure? = none ↔ ∃ value, arrival.ended = .value value := by
  unfold Fleet.Arrival.failure?
  cases arrival.ended <;> simp

/-- A task without a value ends the fan-out with its failure, and the other ones that run are
cancelled. -/
theorem take_failure {failure : Failure} (fan : FanOut α) (h : arrival.failure? = some failure) :
    fan.take arrival.place arrival.ended = .failed failure (fan.running.erase arrival.place) := by
  unfold Fleet.Arrival.failure? at h
  unfold take
  cases hended : arrival.ended with
  | value value => rw [hended] at h; cases h
  | failed failure => rw [hended] at h; cases h; rfl
  | panicked payload => rw [hended] at h; cases h; rfl
  | aborted => rw [hended] at h; cases h; rfl

/-- The value of a task goes to its place. -/
theorem Gathers.take (gathers : fan.Gathers size taken) (hplace : arrival.place < size)
    (hnew : arrival.place ∉ taken.map (·.place)) (h : arrival.failure? = none) :
    ∃ next, fan.take arrival.place arrival.ended = .going next ∧
      next.Gathers size (taken ++ [arrival]) := by
  obtain ⟨value, hvalue⟩ := failure?_eq_none.mp h
  refine ⟨_, by rw [hvalue]; rfl, ?_⟩
  constructor
  · exact List.length_set.trans gathers.slots
  · intro other hother
    rcases List.mem_append.mp hother with hother | hother
    · -- The slot of another task is another slot.
      obtain ⟨old, hended, hslot⟩ := gathers.filled other hother
      have hne : arrival.place ≠ other.place := fun hsame =>
        hnew (hsame ▸ List.mem_map_of_mem hother)
      exact ⟨old, hended, by rw [List.getElem?_set_ne hne]; exact hslot⟩
    · rw [List.mem_singleton.mp hother]
      refine ⟨value, hvalue, List.getElem?_set_self ?_⟩
      rw [gathers.slots]
      exact hplace
  · intro place
    rw [gathers.distinct.mem_erase_iff, gathers.running, List.map_append, List.mem_append]
    simp only [List.map_cons, List.map_nil, List.mem_singleton]
    tauto
  · exact gathers.distinct.erase _

theorem map_some_values (h : ∀ slot ∈ fan.slots, slot.isSome) :
    fan.values.map some = fan.slots := by
  unfold values
  generalize fan.slots = slots at h
  induction slots with
  | nil => rfl
  | cons slot slots ih =>
    have hrest := ih fun other hother => h other (List.mem_cons_of_mem _ hother)
    obtain ⟨value, rfl⟩ := Option.isSome_iff_exists.mp (h slot List.mem_cons_self)
    exact congrArg (some value :: ·) hrest

/-- When no task runs any more, every slot is filled, and none is left out of the values. -/
theorem Gathers.values (gathers : fan.Gathers size taken) (hover : fan.running = []) :
    fan.values.map some = fan.slots := by
  apply map_some_values
  intro slot hslot
  obtain ⟨place, hlt, rfl⟩ := List.getElem_of_mem hslot
  have htaken : place ∈ taken.map (·.place) := by
    by_contra hnot
    have hruns := (gathers.running place).mpr ⟨gathers.slots ▸ hlt, hnot⟩
    rw [hover] at hruns
    cases hruns
  obtain ⟨arrival, hmem, rfl⟩ := List.mem_map.mp htaken
  obtain ⟨value, -, hfilled⟩ := gathers.filled arrival hmem
  rw [List.getElem?_eq_getElem hlt] at hfilled
  rw [Option.some.inj hfilled]
  rfl

end FanOut

namespace Fleet

/-! ## 3. Where a call can stand -/

variable {first x : Fleet α} {fan : FanOut α} {place : Nat}

/-- The tasks that came in are tasks of the call, each one once. -/
structure Timely (first x : Fleet α) : Prop where
  size : x.size = first.size
  hosted : x.hosted = first.hosted
  distinct : (x.arrivals.map (·.place)).Nodup
  bound : ∀ arrival ∈ x.arrivals, arrival.place < first.size
  spawned : x.spawned = List.replicate x.spawned.length first.clock
  times : ∀ arrival ∈ x.arrivals, first.clock ≤ arrival.time ∧ arrival.time ≤ x.clock
  /-- No task is collected before all are spawned. -/
  sent : x.collected ≠ 0 → x.spawned.length = first.size

/-- The call is not over.  Each task that was spawned is under way or came in. -/
structure Live (first x : Fleet α) : Prop extends Timely first x where
  crew : (x.running ++ x.arrivals.map (·.place)).Perm (List.range x.spawned.length)
  told : x.told = []

structure Spawning (first x : Fleet α) : Prop extends Live first x where
  phase : x.phase = .spawning
  clock : x.clock = first.clock
  room : x.spawned.length ≤ first.size
  none : x.collected = 0

/-- When the last task comes in, the clock stands at its time.  Without tasks it stands where the
call began. -/
def Stopped (first : Fleet α) (arrivals : List (Arrival α)) (time : Nat) : Prop :=
  first.size = 0 ∧ time = first.clock ∨ ∃ arrival ∈ arrivals, arrival.time = time

structure Collecting (first : Fleet α) (fan : FanOut α) (x : Fleet α) : Prop
    extends Live first x where
  phase : x.phase = .collecting fan
  all : x.spawned.length = first.size
  begun : first.clock ≤ x.clock
  collected : x.collected ≤ x.arrivals.length
  gathers : fan.Gathers first.size (x.arrivals.take x.collected)
  slowest : x.running = [] → Stopped first x.arrivals x.clock

structure Returned (first : Fleet α) (values : List α) (time : Nat) (x : Fleet α) : Prop
    extends Timely first x where
  phase : x.phase = .over (.ok values) time
  idle : x.running = []
  all : x.spawned.length = first.size
  complete : (x.arrivals.map (·.place)).Perm (List.range first.size)
  length : values.length = first.size
  filled : ∀ arrival ∈ x.arrivals, ∃ value,
    arrival.ended = .value value ∧ values[arrival.place]? = some value
  slowest : Stopped first x.arrivals time
  earlier : ∀ arrival ∈ x.arrivals, arrival.time ≤ time
  told : x.told = []

/-- The call returned the failure of the task that came in first without a value. -/
structure Failed (first : Fleet α) (failure : Failure) (time : Nat) (x : Fleet α) : Prop
    extends Timely first x where
  phase : x.phase = .over (.error failure) time
  idle : x.running = []
  cause : x.arrivals.findSome? Arrival.failure? = some failure
  told : x.told = if first.hosted then [FanOut.failedEvent failure] else []

structure Dropped (first x : Fleet α) : Prop extends Timely first x where
  phase : x.phase = .dropped
  idle : x.running = []
  told : x.told = []

inductive Stands (first x : Fleet α) : Prop where
  | spawning (spawning : Spawning first x)
  | collecting (fan : FanOut α) (collecting : Collecting first fan x)
  | returned (values : List α) (time : Nat) (returned : Returned first values time x)
  | failed (failure : Failure) (time : Nat) (failed : Failed first failure time x)
  | dropped (dropped : Dropped first x)

theorem Stands.timely (stands : Stands first x) : Timely first x := by
  cases stands with
  | spawning spawning => exact spawning.toTimely
  | collecting fan collecting => exact collecting.toTimely
  | returned values time returned => exact returned.toTimely
  | failed failure time failed => exact failed.toTimely
  | dropped dropped => exact dropped.toTimely

theorem stands_start (size : Nat) (hosted : Bool) (began : Nat) :
    Stands (start size hosted began : Fleet α) (start size hosted began) :=
  .spawning {
    size := rfl
    hosted := rfl
    distinct := List.nodup_nil
    bound := fun _ h => absurd h List.not_mem_nil
    spawned := rfl
    times := fun _ h => absurd h List.not_mem_nil
    sent := fun h => absurd rfl h
    crew := .refl _
    told := rfl
    phase := rfl
    clock := rfl
    room := Nat.zero_le _
    none := rfl }

/-- What touches no task keeps their times. -/
theorem Timely.frame {y : Fleet α} (timely : Timely first x) (hsize : y.size = x.size)
    (hhosted : y.hosted = x.hosted) (harrivals : y.arrivals = x.arrivals)
    (hspawned : y.spawned = x.spawned) (hclock : x.clock ≤ y.clock)
    (hsent : y.collected ≠ 0 → x.spawned.length = first.size) : Timely first y where
  size := hsize.trans timely.size
  hosted := hhosted.trans timely.hosted
  distinct := by rw [harrivals]; exact timely.distinct
  bound := by rw [harrivals]; exact timely.bound
  spawned := by rw [hspawned]; exact timely.spawned
  times arrival h := by
    rw [harrivals] at h
    obtain ⟨hbegun, hcame⟩ := timely.times arrival h
    exact ⟨hbegun, Nat.le_trans hcame hclock⟩
  sent h := by rw [hspawned]; exact hsent h

/-! ## 4. Steps of tasks -/

theorem Live.mem_range (live : Live first x) (h : place ∈ x.running) :
    place < x.spawned.length :=
  List.mem_range.mp (live.crew.mem_iff.mp (List.mem_append_left _ h))

theorem Live.all_in (live : Live first x) (hidle : x.running = []) :
    (x.arrivals.map (·.place)).Perm (List.range x.spawned.length) := by
  have hcrew := live.crew
  rw [hidle] at hcrew
  exact hcrew

/-- A task that is under way did not come in. -/
theorem Live.notMem_arrivals (live : Live first x) (h : place ∈ x.running) :
    place ∉ x.arrivals.map (·.place) := fun hin =>
  (List.nodup_append.mp (live.crew.nodup_iff.mpr List.nodup_range)).2.2 _ h _ hin rfl

theorem timely_arrive (timely : Timely first x) (ended : TaskEnd α) (hbound : place < first.size)
    (hnew : place ∉ x.arrivals.map (·.place)) (hclock : first.clock ≤ x.clock) :
    Timely first (x.arrive place ended) where
  size := timely.size
  hosted := timely.hosted
  distinct := by
    show ((x.arrivals ++ [_]).map _).Nodup
    rw [List.map_append, List.nodup_append]
    refine ⟨timely.distinct, List.pairwise_singleton _ _, fun a ha b hb hab => ?_⟩
    rw [List.map_singleton, List.mem_singleton] at hb
    rw [hab, hb] at ha
    exact hnew ha
  bound arrival h := by
    rcases List.mem_append.mp h with h | h
    · exact timely.bound arrival h
    · rw [List.mem_singleton.mp h]
      exact hbound
  spawned := timely.spawned
  times arrival h := by
    rcases List.mem_append.mp h with h | h
    · exact timely.times arrival h
    · rw [List.mem_singleton.mp h]
      exact ⟨hclock, Nat.le_refl _⟩
  sent := timely.sent

/-- The task goes over from those that are under way to those that came in. -/
theorem crew_arrive (live : Live first x) (ended : TaskEnd α) (h : place ∈ x.running) :
    ((x.arrive place ended).running ++ (x.arrive place ended).arrivals.map (·.place)).Perm
      (List.range x.spawned.length) := by
  -- Erased there and added here: the two lists together are the same up to order.
  refine List.Perm.trans ?_ live.crew
  show (x.running.erase place ++ (x.arrivals ++ [_]).map _).Perm _
  rw [List.map_append, List.map_singleton, ← List.append_assoc]
  exact (List.perm_append_singleton _ _).trans ((List.perm_cons_erase h).symm.append_right _)

theorem Live.arrive (live : Live first x) (ended : TaskEnd α) (h : place ∈ x.running)
    (hroom : x.spawned.length ≤ first.size) (hclock : first.clock ≤ x.clock) :
    Live first (x.arrive place ended) where
  toTimely := timely_arrive live.toTimely ended (Nat.lt_of_lt_of_le (live.mem_range h) hroom)
    (live.notMem_arrivals h) hclock
  crew := crew_arrive live ended h
  told := live.told

theorem spawning_arrive (spawning : Spawning first x) (ended : TaskEnd α)
    (h : place ∈ x.running) : Spawning first (x.arrive place ended) where
  toLive := spawning.toLive.arrive ended h spawning.room (Nat.le_of_eq spawning.clock.symm)
  phase := spawning.phase
  clock := spawning.clock
  room := spawning.room
  none := spawning.none

theorem collecting_arrive (collecting : Collecting first fan x) (ended : TaskEnd α)
    (h : place ∈ x.running) : Collecting first fan (x.arrive place ended) where
  toLive := collecting.toLive.arrive ended h (Nat.le_of_eq collecting.all) collecting.begun
  phase := collecting.phase
  all := collecting.all
  begun := collecting.begun
  collected := by
    show x.collected ≤ (x.arrivals ++ [_]).length
    rw [List.length_append]
    exact Nat.le_add_right_of_le collecting.collected
  gathers := by
    show fan.Gathers _ ((x.arrivals ++ [_]).take x.collected)
    rw [List.take_append_of_le_length collecting.collected]
    exact collecting.gathers
  -- It may have been the last one, and came in just now.
  slowest _ := .inr ⟨_, List.mem_append_right _ (List.mem_singleton.mpr rfl), rfl⟩

/-! ## 5. Steps of the call -/

theorem spawning_spawn (spawning : Spawning first x) (h : x.spawned.length < first.size) :
    Spawning first x.spawn where
  size := spawning.size
  hosted := spawning.hosted
  distinct := spawning.distinct
  bound := spawning.bound
  spawned := by
    show x.spawned ++ [x.clock] = List.replicate (x.spawned ++ [x.clock]).length _
    rw [List.length_append, List.length_singleton, List.replicate_succ', ← spawning.spawned,
      spawning.clock]
  times := spawning.times
  sent h := absurd spawning.none h
  crew := by
    show (x.running ++ [x.spawned.length] ++ x.arrivals.map (·.place)).Perm
      (List.range (x.spawned ++ [x.clock]).length)
    rw [List.length_append, List.length_singleton, List.range_succ, List.append_assoc]
    refine (List.perm_append_comm.append_left _).trans ?_
    rw [← List.append_assoc]
    exact spawning.crew.append_right _
  told := spawning.told
  phase := spawning.phase
  clock := spawning.clock
  room := by
    show (x.spawned ++ [x.clock]).length ≤ _
    rw [List.length_append]
    exact h
  none := spawning.none

theorem collecting_ofSize (spawning : Spawning first x) (h : first.size ≤ x.spawned.length) :
    Collecting first (.ofSize x.size) { x with phase := .collecting (.ofSize x.size) } where
  toTimely := spawning.toTimely.frame rfl rfl rfl rfl (Nat.le_refl _) spawning.sent
  crew := spawning.crew
  told := spawning.told
  phase := rfl
  all := Nat.le_antisymm spawning.room h
  begun := Nat.le_of_eq spawning.clock.symm
  collected := by rw [spawning.none]; exact Nat.zero_le _
  gathers := by rw [spawning.none, spawning.size]; exact FanOut.gathers_ofSize _
  slowest hidle := by
    -- No time has passed, so that a task that came in came in just now.
    have hlength := (spawning.toLive.all_in hidle).length_eq
    rw [List.length_map, List.length_range, Nat.le_antisymm spawning.room h] at hlength
    cases harrivals : x.arrivals with
    | nil =>
      rw [harrivals] at hlength
      exact .inl ⟨hlength.symm, spawning.clock⟩
    | cons arrival others =>
      have hmem : arrival ∈ x.arrivals := harrivals ▸ List.mem_cons_self
      have htimes := spawning.times arrival hmem
      have hclock := spawning.clock
      exact .inr ⟨arrival, List.mem_cons_self, by show arrival.time = x.clock; omega⟩

/-- Once all tasks came in and were collected, the fan-out waits for none. -/
theorem Collecting.running_eq_nil (collecting : Collecting first fan x) (hidle : x.running = [])
    (hcollected : x.arrivals.length ≤ x.collected) : fan.running = [] := by
  refine List.eq_nil_iff_forall_not_mem.mpr fun place hmem => ?_
  obtain ⟨hlt, hnot⟩ := (collecting.gathers.running place).mp hmem
  rw [List.take_of_length_le hcollected] at hnot
  exact hnot ((collecting.toLive.all_in hidle).mem_iff.mpr
    (List.mem_range.mpr (collecting.all ▸ hlt)))

/-- A task that is under way is one that the fan-out waits for. -/
theorem Collecting.awaited (collecting : Collecting first fan x) (h : place ∈ x.running) :
    place ∈ fan.running := by
  refine (collecting.gathers.running place).mpr
    ⟨collecting.all ▸ collecting.toLive.mem_range h, fun htaken => ?_⟩
  obtain ⟨arrival, hmem, hplace⟩ := List.mem_map.mp htaken
  exact collecting.toLive.notMem_arrivals h
    (List.mem_map.mpr ⟨arrival, List.mem_of_mem_take hmem, hplace⟩)

theorem running_stop {places : List Nat} (h : ∀ place ∈ x.running, place ∈ places) :
    (x.stop places).running = [] := by
  refine List.filter_eq_nil_iff.mpr fun place hmem => ?_
  simp [h place hmem]

theorem collect_value (collecting : Collecting first fan x) {arrival : Arrival α}
    (h : x.arrivals[x.collected]? = some arrival) (hvalue : arrival.failure? = none) :
    ∃ next, Collecting first next (x.collect fan arrival) ∧
      (x.collect fan arrival).collected = x.collected + 1 := by
  have htake : x.arrivals.take (x.collected + 1) = x.arrivals.take x.collected ++ [arrival] := by
    rw [List.take_add_one, h]
    rfl
  have hnew : arrival.place ∉ (x.arrivals.take x.collected).map (·.place) := by
    have hdistinct := (collecting.distinct).sublist
      ((List.take_sublist (x.collected + 1) x.arrivals).map (·.place))
    rw [htake, List.map_append, List.nodup_append] at hdistinct
    exact fun hmem => hdistinct.2.2 _ hmem _ List.mem_cons_self rfl
  obtain ⟨next, hgoing, hgathers⟩ := collecting.gathers.take
    (collecting.bound arrival (List.mem_of_getElem? h)) hnew hvalue
  obtain ⟨hlt, -⟩ := List.getElem?_eq_some_iff.mp h
  refine ⟨next, ?_, by simp only [collect, hgoing]⟩
  simp only [collect, hgoing]
  exact {
    toTimely := collecting.toTimely.frame rfl rfl rfl rfl (Nat.le_refl _) fun _ => collecting.all
    crew := collecting.crew
    told := collecting.told
    phase := rfl
    all := collecting.all
    begun := collecting.begun
    collected := hlt
    gathers := htake ▸ hgathers
    slowest := collecting.slowest }

theorem collect_failure (collecting : Collecting first fan x) {arrival : Arrival α}
    {failure : Failure} (h : x.arrivals[x.collected]? = some arrival)
    (hfailure : arrival.failure? = some failure) :
    Failed first failure x.clock (x.collect fan arrival) := by
  obtain ⟨hlt, hget⟩ := List.getElem?_eq_some_iff.mp h
  simp only [collect, FanOut.take_failure fan hfailure]
  refine ⟨collecting.toTimely.frame rfl rfl rfl rfl (Nat.le_refl _) fun _ => collecting.all, rfl,
    ?_, ?_, ?_⟩
  · -- A task that is under way is not the one that came in, so that it is cancelled.
    refine running_stop fun place hmem => ?_
    refine collecting.gathers.distinct.mem_erase_iff.mpr ⟨fun hsame => ?_,
      collecting.awaited hmem⟩
    exact collecting.toLive.notMem_arrivals hmem
      (hsame ▸ List.mem_map_of_mem (List.mem_of_getElem? h))
  · -- The tasks that were collected before it gave values.
    have hbefore : (x.arrivals.take x.collected).findSome? Arrival.failure? = none := by
      refine List.findSome?_eq_none_iff.mpr fun other hother => ?_
      obtain ⟨value, hvalue, -⟩ := collecting.gathers.filled other hother
      exact FanOut.failure?_eq_none.mpr ⟨value, hvalue⟩
    have hparts := List.take_append_drop x.collected x.arrivals
    rw [← List.getElem_cons_drop hlt, hget] at hparts
    show x.arrivals.findSome? _ = _
    rw [← hparts, List.findSome?_append, hbefore, List.findSome?_cons, hfailure]
    rfl
  · show x.told ++ _ = _
    rw [collecting.told, collecting.hosted]
    rfl

theorem returned_values (collecting : Collecting first fan x)
    (h : x.arrivals[x.collected]? = none) (hover : fan.isOver = true) :
    Returned first fan.values x.clock { x with phase := .over (.ok fan.values) x.clock } := by
  have hrunning : fan.running = [] := List.isEmpty_iff.mp hover
  have hidle : x.running = [] := List.eq_nil_iff_forall_not_mem.mpr fun place hmem => by
    have hawaited := collecting.awaited hmem
    rw [hrunning] at hawaited
    cases hawaited
  have htake : x.arrivals.take x.collected = x.arrivals :=
    List.take_of_length_le (List.getElem?_eq_none_iff.mp h)
  have hvalues := collecting.gathers.values hrunning
  exact {
    toTimely := collecting.toTimely.frame rfl rfl rfl rfl (Nat.le_refl _) collecting.sent
    phase := rfl
    idle := hidle
    all := collecting.all
    complete := collecting.all ▸ collecting.toLive.all_in hidle
    length := by rw [← List.length_map, hvalues, collecting.gathers.slots]
    filled := fun arrival hmem => by
      obtain ⟨value, hended, hslot⟩ := collecting.gathers.filled arrival (htake.symm ▸ hmem)
      rw [← hvalues, List.getElem?_map, Option.map_eq_some_iff] at hslot
      obtain ⟨other, hother, hsame⟩ := hslot
      exact ⟨value, hended, Option.some.inj hsame ▸ hother⟩
    slowest := collecting.slowest hidle
    earlier := fun arrival hmem => (collecting.times arrival hmem).2
    told := collecting.told }

def HasEnded (x : Fleet α) : Prop :=
  (∃ result time, x.phase = .over result time) ∨ x.phase = .dropped

theorem advance_ended (h : x.HasEnded) : x.advance = x := by
  unfold advance
  rcases h with ⟨result, time, h⟩ | h <;> simp only [h]

theorem drop_ended (h : x.HasEnded) : x.drop = x := by
  unfold drop
  rcases h with ⟨result, time, h⟩ | h <;> simp only [h]

theorem stands_advance (stands : Stands first x) : Stands first x.advance := by
  cases stands with
  | spawning spawning =>
    unfold advance
    simp only [spawning.phase]
    split
    · next h => exact .spawning (spawning_spawn spawning (spawning.size ▸ h))
    · next h =>
      exact .collecting _ (collecting_ofSize spawning (spawning.size ▸ Nat.le_of_not_lt h))
  | collecting fan collecting =>
    unfold advance
    simp only [collecting.phase]
    split
    · next arrival h =>
      cases hfailure : arrival.failure? with
      | none =>
        obtain ⟨next, hnext, -⟩ := collect_value collecting h hfailure
        exact .collecting next hnext
      | some failure => exact .failed _ _ (collect_failure collecting h hfailure)
    · next h =>
      split
      · next hover => exact .returned _ _ (returned_values collecting h hover)
      · exact .collecting fan collecting
  | returned values time returned =>
    rw [advance_ended (.inl ⟨_, _, returned.phase⟩)]
    exact .returned values time returned
  | failed failure time failed =>
    rw [advance_ended (.inl ⟨_, _, failed.phase⟩)]
    exact .failed failure time failed
  | dropped dropped =>
    rw [advance_ended (.inr dropped.phase)]
    exact .dropped dropped

/-! ## 6. Runs -/

theorem stands_arrive (stands : Stands first x) (ended : TaskEnd α) (h : place ∈ x.running) :
    Stands first (x.arrive place ended) := by
  have hbusy : x.running ≠ [] := List.ne_nil_of_mem h
  cases stands with
  | spawning spawning => exact .spawning (spawning_arrive spawning ended h)
  | collecting fan collecting => exact .collecting fan (collecting_arrive collecting ended h)
  | returned values time returned => exact absurd returned.idle hbusy
  | failed failure time failed => exact absurd failed.idle hbusy
  | dropped dropped => exact absurd dropped.idle hbusy

/-- As long as the call waits, a task is under way. -/
theorem Collecting.busy (collecting : Collecting first fan x) (h : x.waits = true) :
    x.running ≠ [] := by
  intro hidle
  simp only [waits, collecting.phase, Bool.and_eq_true, decide_eq_true_eq, Bool.not_eq_true'] at h
  have hover : fan.isOver = true :=
    List.isEmpty_iff.mpr (collecting.running_eq_nil hidle h.1)
  cases hover.symm.trans h.2

/-- Steps of tasks that do not come in, and time that passes while the call waits, change nothing
else. -/
theorem stands_aside (stands : Stands first x) (steps : List Nat) {clock : Nat}
    (hle : x.clock ≤ clock) (h : clock = x.clock ∨ x.waits = true) :
    Stands first { x with steps, clock } := by
  have htimely : Timely first x → Timely first { x with steps, clock } := fun timely =>
    timely.frame rfl rfl rfl rfl hle timely.sent
  cases stands with
  | spawning s =>
    have hwaits : x.waits = false := by simp only [waits, s.phase]
    have hclock : clock = x.clock := h.resolve_right (by rw [hwaits]; exact Bool.false_ne_true)
    exact .spawning ⟨⟨htimely s.toTimely, s.crew, s.told⟩, s.phase, hclock.trans s.clock, s.room,
      s.none⟩
  | collecting fan c =>
    refine .collecting fan ⟨⟨htimely c.toTimely, c.crew, c.told⟩, c.phase, c.all,
      Nat.le_trans c.begun hle, c.collected, c.gathers, fun hidle => ?_⟩
    exact (h.resolve_right fun hwaits => c.busy hwaits hidle) ▸ c.slowest hidle
  | returned values time r =>
    exact .returned values time ⟨htimely r.toTimely, r.phase, r.idle, r.all, r.complete, r.length,
      r.filled, r.slowest, r.earlier, r.told⟩
  | failed failure time f =>
    exact .failed failure time ⟨htimely f.toTimely, f.phase, f.idle, f.cause, f.told⟩
  | dropped d => exact .dropped ⟨htimely d.toTimely, d.phase, d.idle, d.told⟩

theorem stands_drop (stands : Stands first x) : Stands first x.drop := by
  cases stands with
  | spawning s =>
    unfold drop
    simp only [s.phase]
    split
    · next hnone =>
      have hidle : x.running = [] := List.eq_nil_iff_forall_not_mem.mpr fun place hmem => by
        have hlt := s.toLive.mem_range hmem
        rw [hnone] at hlt
        cases hlt
      exact .dropped ⟨s.toTimely.frame rfl rfl rfl rfl (Nat.le_refl _) s.sent, rfl, hidle, s.told⟩
    · exact .spawning s
  | collecting fan c =>
    unfold drop
    simp only [c.phase]
    exact .dropped ⟨c.toTimely.frame rfl rfl rfl rfl (Nat.le_refl _) c.sent, rfl,
      running_stop fun place hmem => c.awaited hmem, c.told⟩
  | returned values time returned =>
    rw [drop_ended (.inl ⟨_, _, returned.phase⟩)]
    exact .returned values time returned
  | failed failure time failed =>
    rw [drop_ended (.inl ⟨_, _, failed.phase⟩)]
    exact .failed failure time failed
  | dropped dropped =>
    rw [drop_ended (.inr dropped.phase)]
    exact .dropped dropped

theorem stands_step (stands : Stands first x) (move : Move α) : Stands first (x.step move) := by
  cases move with
  | advance => exact stands_advance stands
  | step place =>
    simp only [step]
    split
    · exact stands_aside stands _ (Nat.le_refl _) (.inl rfl)
    · exact stands
  | arrive place ended =>
    simp only [step]
    split
    · next h => exact stands_arrive stands ended h
    · exact stands
  | pass millis =>
    simp only [step]
    split
    · next h => exact stands_aside stands _ (Nat.le_add_right _ _) (.inr h)
    · exact stands
  | drop => exact stands_drop stands

theorem stands_run (stands : Stands first x) (moves : List (Move α)) :
    Stands first (x.run moves) := by
  induction moves generalizing x with
  | nil => exact stands
  | cons move moves ih => exact ih (stands_step stands move)

end Fleet

end Sequencer
