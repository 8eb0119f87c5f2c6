import Sequencer.PollLoop
import Mathlib.Data.Nat.Init

/-!
# Rounds — a poll loop from its first iteration to its end

A loop goes round in a world that says how every body ends and how long it takes, and whether the
token of the loop is cancelled when it comes to an iteration.  The times at which its bodies begin
are settled by that and by the interval of the loop, and so is its end.
-/

namespace Sequencer

namespace Rounds

/-- Where a loop stands. -/
inductive Phase where
  | between
  /-- The body is under way, and the iteration is due then. -/
  | running (due : Duration)
  /-- The body came back. -/
  | resting (due : Duration) (exit : Except LoopExit Unit)
  | over (ended : LoopEnd)

/-- What surrounds a loop.  Its iterations are numbered from zero. -/
structure World where
  exit : Nat → Except LoopExit Unit
  /-- How long a body takes. -/
  lasts : Nat → Duration
  /-- Whether the token is cancelled when the loop comes to an iteration. -/
  cancelled : Nat → Bool

end Rounds

/-- A loop under way. -/
structure Rounds where
  loop : PollLoop
  /-- Whether it has a bus to tell its end on. -/
  tells : Bool
  clock : Duration
  phase : Rounds.Phase := .between
  /-- The times at which bodies began. -/
  starts : List Duration := []
  /-- The times at which they came back. -/
  returns : List Duration := []
  told : List Event := []

namespace Rounds

/-- A loop that begins, on its own or through a host of this configuration. -/
def start (host : Option Config) (name : String) (requested began : Duration) : Rounds where
  loop := host.elim (.ofInterval name requested) (PollLoop.hosted · name requested)
  tells := host.isSome
  clock := began

def close (x : Rounds) (ended : LoopEnd) : Rounds :=
  { x with phase := .over ended, told := x.told ++ if x.tells then [ended.event] else [] }

namespace World

def step (world : World) (x : Rounds) : Rounds :=
  match x.phase with
  | .between =>
    match x.loop.next (world.cancelled x.starts.length) with
    | .error ended => x.close ended
    | .ok loop =>
      { x with loop, phase := .running (loop.due x.clock), starts := x.starts ++ [x.clock] }
  | .running due =>
    let clock := x.clock + world.lasts x.returns.length
    { x with
      clock
      phase := .resting due (world.exit x.returns.length)
      returns := x.returns ++ [clock] }
  | .resting due exit =>
    match x.loop.pace x.clock due exit with
    | .waiting => { x with clock := due }
    | .ended ended => x.close ended
    | .going => { x with phase := .between }
  | .over _ => x

/-- The loop after a number of steps. -/
def run (world : World) (first : Rounds) : Nat → Rounds
  | 0 => first
  | n + 1 => world.step (world.run first n)

/-- The loop comes to the iteration `k`: no body before it ended the loop, and no cancellation. -/
def Reaches (world : World) (k : Nat) : Prop :=
  ∀ j < k, world.exit j = .ok () ∧ world.cancelled j = false

/-- The loop comes to its end with this result. -/
def Returns (world : World) (first : Rounds) (result : Except Failure Unit) : Prop :=
  ∃ n ended, (world.run first n).phase = .over ended ∧ ended.result = result

/-- The time at which the iteration `k` begins. -/
def startOf (world : World) (first : Rounds) : Nat → Duration
  | 0 => first.clock
  | k + 1 =>
    (world.startOf first k + world.lasts k).max (first.loop.due (world.startOf first k))

theorem reaches_succ {world : World} {k : Nat} (h : world.Reaches k) (hexit : world.exit k = .ok ())
    (hgoes : world.cancelled k = false) : world.Reaches (k + 1) := by
  intro j hj
  rcases Nat.lt_succ_iff_lt_or_eq.mp hj with hlt | rfl
  · exact h j hlt
  · exact ⟨hexit, hgoes⟩

end World

/-! ## 1. Where a loop can stand -/

variable {world : World} {first x : Rounds} {k n : Nat}

/-- So many bodies have begun, and so many have come back, each at its time. -/
structure Timely (world : World) (first : Rounds) (begun back : Nat) (x : Rounds) : Prop where
  loop : x.loop = { first.loop with iterations := min begun PollLoop.maxIterations }
  tells : x.tells = first.tells
  starts : x.starts = (List.range begun).map (world.startOf first)
  returns : x.returns =
    (List.range back).map fun j => world.startOf first j + world.lasts j

/-- The loop comes to the iteration `k`. -/
structure Between (world : World) (first : Rounds) (k : Nat) (x : Rounds) : Prop
    extends Timely world first k k x where
  reaches : world.Reaches k
  phase : x.phase = .between
  clock : x.clock = world.startOf first k
  told : x.told = []

/-- The body of the iteration `k` is under way. -/
structure Running (world : World) (first : Rounds) (k : Nat) (x : Rounds) : Prop
    extends Timely world first (k + 1) k x where
  reaches : world.Reaches k
  goes : world.cancelled k = false
  phase : x.phase = .running (first.loop.due (world.startOf first k))
  clock : x.clock = world.startOf first k
  told : x.told = []

/-- The body of the iteration `k` came back.  The iteration is over once it is due. -/
structure Resting (world : World) (first : Rounds) (k : Nat) (x : Rounds) : Prop
    extends Timely world first (k + 1) (k + 1) x where
  reaches : world.Reaches k
  goes : world.cancelled k = false
  phase : x.phase = .resting (first.loop.due (world.startOf first k)) (world.exit k)
  clock : x.clock.max (first.loop.due (world.startOf first k)) = world.startOf first (k + 1)
  told : x.told = []

/-- The loop was cancelled when it came to the iteration `k`. -/
structure Cancelled (world : World) (first : Rounds) (k : Nat) (x : Rounds) : Prop
    extends Timely world first k k x where
  reaches : world.Reaches k
  cancelled : world.cancelled k = true
  phase : x.phase = .over ⟨x.loop.event .loopCancelled, .error .cancelled⟩
  told : x.told = if first.tells then [x.loop.event .loopCancelled] else []

/-- The body of the iteration `k` ended the loop, and the iteration is over. -/
structure Ended (world : World) (first : Rounds) (k : Nat) (ended : LoopEnd) (x : Rounds) : Prop
    extends Timely world first (k + 1) (k + 1) x where
  reaches : world.Reaches k
  goes : world.cancelled k = false
  settle : x.loop.settle (world.exit k) = some ended
  phase : x.phase = .over ended
  clock : x.clock = world.startOf first (k + 1)
  told : x.told = if first.tells then [ended.event] else []

theorem Timely.begun {begun back : Nat} (timely : Timely world first begun back x) :
    x.starts.length = begun := by
  rw [timely.starts, List.length_map, List.length_range]

theorem Timely.back {begun back : Nat} (timely : Timely world first begun back x) :
    x.returns.length = back := by
  rw [timely.returns, List.length_map, List.length_range]

/-! ## 2. Steps -/

theorem step_cancelled (between : Between world first k x) (h : world.cancelled k = true) :
    Cancelled world first k (world.step x) := by
  have hstep : world.step x = x.close ⟨x.loop.event .loopCancelled, .error .cancelled⟩ := by
    unfold World.step
    rw [between.phase, between.begun, h]
    rfl
  rw [hstep]
  refine ⟨⟨between.loop, between.tells, between.starts, between.returns⟩, between.reaches, h, rfl,
    ?_⟩
  show x.told ++ _ = _
  rw [between.told, between.tells]
  rfl

theorem step_between (between : Between world first k x) (h : world.cancelled k = false) :
    Running world first k (world.step x) := by
  have hstep : world.step x = { x with
      loop := { x.loop with
        iterations := Nat.min (x.loop.iterations + 1) PollLoop.maxIterations }
      phase := .running (x.loop.due x.clock)
      starts := x.starts ++ [x.clock] } := by
    unfold World.step
    rw [between.phase, between.begun, h]
    rfl
  rw [hstep]
  refine ⟨⟨?_, between.tells, ?_, between.returns⟩, between.reaches, h, ?_, between.clock,
    between.told⟩
  · -- The count goes up by one, or stays at its largest value.
    have hcount : Nat.min (min k PollLoop.maxIterations + 1) PollLoop.maxIterations =
        min (k + 1) PollLoop.maxIterations := by
      show min (min k PollLoop.maxIterations + 1) PollLoop.maxIterations = _
      omega
    show { x.loop with
      iterations := Nat.min (x.loop.iterations + 1) PollLoop.maxIterations } = _
    rw [between.loop]
    show { first.loop with
      iterations := Nat.min (min k PollLoop.maxIterations + 1) PollLoop.maxIterations } = _
    rw [hcount]
  · show x.starts ++ [x.clock] = _
    rw [between.starts, between.clock, List.range_succ, List.map_append]
    rfl
  · show Phase.running (x.loop.due x.clock) = _
    rw [between.clock, between.loop]
    rfl

theorem step_running (running : Running world first k x) :
    Resting world first k (world.step x) := by
  have hstep : world.step x = { x with
      clock := x.clock + world.lasts k
      phase := .resting (first.loop.due (world.startOf first k)) (world.exit k)
      returns := x.returns ++ [x.clock + world.lasts k] } := by
    unfold World.step
    rw [running.phase, running.back]
  rw [hstep]
  refine ⟨⟨running.loop, running.tells, running.starts, ?_⟩, running.reaches, running.goes, rfl,
    ?_, running.told⟩
  · show x.returns ++ [x.clock + world.lasts k] = _
    rw [running.returns, running.clock, List.range_succ, List.map_append]
    rfl
  · show (x.clock + world.lasts k).max _ = _
    rw [running.clock]
    rfl

theorem step_waiting {due : Duration} {exit : Except LoopExit Unit}
    (hphase : x.phase = .resting due exit) (h : x.clock < due) :
    world.step x = { x with clock := due } := by
  have hpace : x.loop.pace x.clock due exit = .waiting := if_pos h
  unfold World.step
  simp only [hphase, hpace]

theorem step_due {due : Duration} {exit : Except LoopExit Unit}
    (hphase : x.phase = .resting due exit) (h : ¬ x.clock < due) : world.step x =
      match x.loop.settle exit with
      | some ended => x.close ended
      | none => { x with phase := .between } := by
  unfold World.step PollLoop.pace
  simp only [hphase, if_neg h]
  cases x.loop.settle exit <;> rfl

/-- A body that came back early waits until its iteration is due. -/
theorem step_early (resting : Resting world first k x)
    (h : x.clock < first.loop.due (world.startOf first k)) :
    Resting world first k (world.step x) ∧
      (world.step x).clock = world.startOf first (k + 1) := by
  have hclock := resting.clock
  -- The iteration is over when it is due, and that is where the clock goes.
  rw [Duration.max_eq_right h] at hclock
  rw [step_waiting resting.phase h, hclock]
  refine ⟨⟨⟨resting.loop, resting.tells, resting.starts, resting.returns⟩, resting.reaches,
    resting.goes, resting.phase, ?_, resting.told⟩, rfl⟩
  rw [hclock]
  exact Duration.max_eq_left (Nat.lt_irrefl _)

theorem Resting.not_early (resting : Resting world first k x)
    (h : x.clock = world.startOf first (k + 1)) :
    ¬ x.clock < first.loop.due (world.startOf first k) := by
  intro hearly
  have hclock := resting.clock
  rw [Duration.max_eq_right hearly, ← h] at hclock
  rw [hclock] at hearly
  exact Nat.lt_irrefl _ hearly

theorem step_going (resting : Resting world first k x)
    (h : x.clock = world.startOf first (k + 1)) (hexit : world.exit k = .ok ()) :
    Between world first (k + 1) (world.step x) := by
  have hsettle : x.loop.settle (world.exit k) = none := by
    rw [hexit]
    rfl
  rw [step_due resting.phase (resting.not_early h), hsettle]
  exact ⟨⟨resting.loop, resting.tells, resting.starts, resting.returns⟩,
    World.reaches_succ resting.reaches hexit resting.goes, rfl, h, resting.told⟩

theorem step_ended (resting : Resting world first k x) {ended : LoopEnd}
    (h : x.clock = world.startOf first (k + 1))
    (hsettle : x.loop.settle (world.exit k) = some ended) :
    Ended world first k ended (world.step x) := by
  rw [step_due resting.phase (resting.not_early h), hsettle]
  refine ⟨⟨resting.loop, resting.tells, resting.starts, resting.returns⟩, resting.reaches,
    resting.goes, hsettle, rfl, h, ?_⟩
  show x.told ++ _ = _
  rw [resting.told, resting.tells]
  rfl

/-! ## 3. Runs -/

/-- What holds of a loop in any of its phases, for the iteration that it is in. -/
inductive Stands (world : World) (first x : Rounds) : Prop where
  | between (k : Nat) (between : Between world first k x)
  | running (k : Nat) (running : Running world first k x)
  | resting (k : Nat) (resting : Resting world first k x)
  | cancelled (k : Nat) (cancelled : Cancelled world first k x)
  | ended (k : Nat) (ended : LoopEnd) (isEnded : Ended world first k ended x)

theorem step_over {ended : LoopEnd} (h : x.phase = .over ended) : world.step x = x := by
  unfold World.step
  rw [h]

theorem settle_none {loop : PollLoop} {exit : Except LoopExit Unit} (h : loop.settle exit = none) :
    exit = .ok () := by
  rcases exit with (_ | _) | ⟨⟩
  · cases h
  · cases h
  · rfl

theorem stands_step (stands : Stands world first x) : Stands world first (world.step x) := by
  cases stands with
  | between k between =>
    cases h : world.cancelled k with
    | true => exact .cancelled k (step_cancelled between h)
    | false => exact .running k (step_between between h)
  | running k running => exact .resting k (step_running running)
  | resting k resting =>
    -- The clock stands where the body came back, or already where the iteration is over.
    have hclock := resting.clock
    by_cases hearly : x.clock < first.loop.due (world.startOf first k)
    · exact .resting k (step_early resting hearly).1
    · have hdue : x.clock = world.startOf first (k + 1) :=
        (Duration.max_eq_left hearly).symm.trans hclock
      cases hsettle : x.loop.settle (world.exit k) with
      | none => exact .between (k + 1) (step_going resting hdue (settle_none hsettle))
      | some ended => exact .ended k ended (step_ended resting hdue hsettle)
  | cancelled k cancelled =>
    rw [step_over cancelled.phase]
    exact .cancelled k cancelled
  | ended k ended isEnded =>
    rw [step_over isEnded.phase]
    exact .ended k ended isEnded

/-- A loop that has not begun. -/
structure Fresh (first : Rounds) : Prop where
  phase : first.phase = .between
  iterations : first.loop.iterations = 0
  starts : first.starts = []
  returns : first.returns = []
  told : first.told = []

theorem fresh_start (host : Option Config) (name : String) (requested began : Duration) :
    Fresh (start host name requested began) := by
  cases host <;> exact ⟨rfl, rfl, rfl, rfl, rfl⟩

theorem Fresh.between (fresh : Fresh first) : Between world first 0 first where
  loop := by rw [Nat.zero_min, ← fresh.iterations]
  tells := rfl
  starts := fresh.starts
  returns := fresh.returns
  reaches _ h := absurd h (Nat.not_lt_zero _)
  phase := fresh.phase
  clock := rfl
  told := fresh.told

theorem stands_run (fresh : Fresh first) (n : Nat) : Stands world first (world.run first n) := by
  induction n with
  | zero => exact .between 0 fresh.between
  | succ n ih => exact stands_step ih

theorem Resting.rests (resting : Resting world first k (world.run first n)) :
    ∃ m, Resting world first k (world.run first m) ∧
      (world.run first m).clock = world.startOf first (k + 1) := by
  by_cases hearly : (world.run first n).clock < first.loop.due (world.startOf first k)
  · exact ⟨n + 1, step_early resting hearly⟩
  · exact ⟨n, resting, (Duration.max_eq_left hearly).symm.trans resting.clock⟩

theorem Between.rests (between : Between world first k (world.run first n))
    (h : world.cancelled k = false) :
    ∃ m, Resting world first k (world.run first m) ∧
      (world.run first m).clock = world.startOf first (k + 1) :=
  Resting.rests (n := n + 2) (step_running (step_between between h))

theorem exists_between (fresh : Fresh first) (h : world.Reaches k) :
    ∃ n, Between world first k (world.run first n) := by
  induction k with
  | zero => exact ⟨0, fresh.between⟩
  | succ k ih =>
    -- The iteration before it is over at some time, and its body went well.
    obtain ⟨n, between⟩ := ih fun j hj => h j (Nat.lt_succ_of_lt hj)
    obtain ⟨hexit, hgoes⟩ := h k (Nat.lt_succ_self k)
    obtain ⟨m, resting, hclock⟩ := between.rests hgoes
    exact ⟨m + 1, step_going resting hclock hexit⟩

theorem exists_ended (fresh : Fresh first) (h : world.Reaches k) (hgoes : world.cancelled k = false)
    {exit : LoopExit} (hexit : world.exit k = .error exit) :
    ∃ n ended, Ended world first k ended (world.run first n) := by
  obtain ⟨n, between⟩ := exists_between fresh h
  obtain ⟨m, resting, hclock⟩ := between.rests hgoes
  cases hsettle : (world.run first m).loop.settle (world.exit k) with
  | none => cases hexit.symm.trans (settle_none hsettle)
  | some ended => exact ⟨m + 1, ended, step_ended resting hclock hsettle⟩

theorem exists_cancelled (fresh : Fresh first) (h : world.Reaches k)
    (hcancelled : world.cancelled k = true) :
    ∃ n, Cancelled world first k (world.run first n) := by
  obtain ⟨n, between⟩ := exists_between fresh h
  exact ⟨n + 1, step_cancelled between hcancelled⟩

/-! ## 4. Times and ends -/

theorem interval_start (host : Option Config) (name : String) (requested began : Duration) :
    (start host name requested began).loop.interval =
      ⟨max (max requested.nanoseconds (host.elim 0 (·.loopInterval.nanoseconds))) 50000000⟩ := by
  cases host with
  | none =>
    show (⟨max requested.nanoseconds 50000000⟩ : Duration) =
      ⟨max (max requested.nanoseconds 0) 50000000⟩
    rw [Nat.max_zero]
  | some config => rfl

theorem name_start (host : Option Config) (name : String) (requested began : Duration) :
    (start host name requested began).loop.name = name := by
  cases host <;> rfl

theorem ceiled_bounds (d : Duration) : d ≤ d.ceiled ∧ d.ceiled < d + .ofMillis 1 := by
  show d.nanoseconds ≤ (d.nanoseconds + (1000000 - 1)) / 1000000 * 1000000 ∧
    (d.nanoseconds + (1000000 - 1)) / 1000000 * 1000000 < d.nanoseconds + 1 * 1000000
  omega

/-- An iteration from `began` to `next` lasts as long as its body or as the interval, whichever is
longer, but for the rounding of the timer, which goes off at whole milliseconds. -/
structure Lasts (interval body began next : Duration) : Prop where
  exactly : next = (began + body).max (began + interval).ceiled
  least : began + body.max interval ≤ next
  most : next < began + body.max interval + .ofMillis 1

theorem lasts_due (interval body began : Duration) :
    Lasts interval body began ((began + body).max (began + interval).ceiled) := by
  obtain ⟨hle, hlt⟩ := ceiled_bounds (began + interval)
  replace hle : began.nanoseconds + interval.nanoseconds ≤
    (began + interval).ceiled.nanoseconds := hle
  replace hlt : (began + interval).ceiled.nanoseconds <
    began.nanoseconds + interval.nanoseconds + (Duration.ofMillis 1).nanoseconds := hlt
  refine ⟨rfl, ?_, ?_⟩
  · show began.nanoseconds + max body.nanoseconds interval.nanoseconds ≤
      max (began.nanoseconds + body.nanoseconds) (began + interval).ceiled.nanoseconds
    omega
  · show max (began.nanoseconds + body.nanoseconds) (began + interval).ceiled.nanoseconds <
      began.nanoseconds + max body.nanoseconds interval.nanoseconds +
        (Duration.ofMillis 1).nanoseconds
    omega

theorem getElem?_map_range {f : Nat → Duration} {m j : Nat} {t : Duration}
    (h : ((List.range m).map f)[j]? = some t) : j < m ∧ t = f j := by
  obtain ⟨hlt, hget⟩ := List.getElem?_eq_some_iff.mp h
  rw [List.getElem_map, List.getElem_range] at hget
  rw [List.length_map, List.length_range] at hlt
  exact ⟨hlt, hget.symm⟩

/-- Bodies begin and come back at their times, and only the last one may still be under way. -/
theorem Stands.timely (stands : Stands world first x) :
    ∃ begun back, Timely world first begun back x ∧ begun ≤ back + 1 := by
  cases stands with
  | between k between => exact ⟨k, k, between.toTimely, Nat.le_succ k⟩
  | running k running => exact ⟨k + 1, k, running.toTimely, Nat.le_refl _⟩
  | resting k resting => exact ⟨k + 1, k + 1, resting.toTimely, Nat.le_succ _⟩
  | cancelled k cancelled => exact ⟨k, k, cancelled.toTimely, Nat.le_succ k⟩
  | ended k ended isEnded => exact ⟨k + 1, k + 1, isEnded.toTimely, Nat.le_succ _⟩

/-- A body begins when the one before it came back and its interval has passed. -/
theorem Stands.pace (stands : Stands world first x) {t next : Duration} (h : x.starts[k]? = some t)
    (hnext : x.starts[k + 1]? = some next) :
    x.returns[k]? = some (t + world.lasts k) ∧
      Lasts first.loop.interval (world.lasts k) t next := by
  obtain ⟨begun, back, timely, hle⟩ := stands.timely
  -- If the next body has begun, this one has come back.
  rw [timely.starts] at h hnext
  obtain ⟨-, rfl⟩ := getElem?_map_range h
  obtain ⟨hlt, rfl⟩ := getElem?_map_range hnext
  refine ⟨?_, lasts_due _ _ _⟩
  rw [timely.returns, List.getElem?_map, List.getElem?_range (by omega)]
  rfl

theorem World.Reaches.earlier {j : Nat} (h : world.Reaches j) (hk : k < j) :
    world.Reaches k ∧ world.cancelled k = false :=
  ⟨fun i hi => h i (Nat.lt_trans hi hk), (h k hk).2⟩

/-- A body begins if the loop comes to its iteration and is not cancelled then. -/
theorem begins_iff (fresh : Fresh first) (k : Nat) :
    (∃ n, k < (world.run first n).starts.length) ↔
      world.Reaches k ∧ world.cancelled k = false := by
  -- The body of the last iteration has begun too, unless the loop was cancelled there.
  have hbegun : ∀ {j : Nat}, world.Reaches j → world.cancelled j = false → k < j + 1 →
      world.Reaches k ∧ world.cancelled k = false := by
    intro j hreaches hgoes hk
    rcases Nat.lt_succ_iff_lt_or_eq.mp hk with hlt | rfl
    · exact hreaches.earlier hlt
    · exact ⟨hreaches, hgoes⟩
  constructor
  · rintro ⟨n, hk⟩
    cases (stands_run fresh n : Stands world first (world.run first n)) with
    | between j between => exact between.reaches.earlier (between.begun ▸ hk)
    | running j running => exact hbegun running.reaches running.goes (running.begun ▸ hk)
    | resting j resting => exact hbegun resting.reaches resting.goes (resting.begun ▸ hk)
    | cancelled j cancelled => exact cancelled.reaches.earlier (cancelled.begun ▸ hk)
    | ended j ended isEnded => exact hbegun isEnded.reaches isEnded.goes (isEnded.begun ▸ hk)
  · rintro ⟨hreaches, hgoes⟩
    obtain ⟨n, between⟩ := exists_between fresh hreaches
    have running : Running world first k (world.run first (n + 1)) := step_between between hgoes
    refine ⟨n + 1, ?_⟩
    rw [running.begun]
    exact Nat.lt_succ_self k

theorem settle_cases {loop : PollLoop} {exit : Except LoopExit Unit} {ended : LoopEnd}
    (h : loop.settle exit = some ended) :
    (exit = .error .stop ∧ ended = ⟨loop.event .loopStopped, .ok ()⟩) ∨
      ∃ failure, exit = .error (.failed failure) ∧
        ended = ⟨{ loop.event .loopFailed with reason := some failure.text }, .error failure⟩ := by
  rcases exit with (_ | failure) | ⟨⟩
  · cases h
    exact .inl ⟨rfl, rfl⟩
  · cases h
    exact .inr ⟨failure, rfl, rfl⟩
  · cases h

/-- A loop that is over was cancelled between two iterations, or ended by a body. -/
theorem Stands.over (stands : Stands world first x) {ended : LoopEnd} (h : x.phase = .over ended) :
    (∃ k, Cancelled world first k x ∧ ended = ⟨x.loop.event .loopCancelled, .error .cancelled⟩) ∨
      ∃ k, Ended world first k ended x := by
  cases stands with
  | between k between => cases h.symm.trans between.phase
  | running k running => cases h.symm.trans running.phase
  | resting k resting => cases h.symm.trans resting.phase
  | cancelled k cancelled =>
    cases h.symm.trans cancelled.phase
    exact .inl ⟨k, cancelled, rfl⟩
  | ended k other isEnded =>
    cases h.symm.trans isEnded.phase
    exact .inr ⟨k, isEnded⟩

theorem returns_ok_iff (fresh : Fresh first) :
    world.Returns first (.ok ()) ↔
      ∃ k, world.Reaches k ∧ world.cancelled k = false ∧ world.exit k = .error .stop := by
  constructor
  · rintro ⟨n, ended, hover, hresult⟩
    rcases (stands_run fresh n).over hover with ⟨k, -, rfl⟩ | ⟨k, isEnded⟩
    · -- A cancelled loop does not return well.
      cases hresult
    · rcases settle_cases isEnded.settle with ⟨hexit, -⟩ | ⟨failure, -, rfl⟩
      · exact ⟨k, isEnded.reaches, isEnded.goes, hexit⟩
      · cases hresult
  · rintro ⟨k, hreaches, hgoes, hexit⟩
    obtain ⟨n, ended, isEnded⟩ := exists_ended fresh hreaches hgoes hexit
    have hsettle := isEnded.settle
    rw [hexit] at hsettle
    cases hsettle
    exact ⟨n, _, isEnded.phase, rfl⟩

theorem returns_error_iff (fresh : Fresh first) (failure : Failure) :
    world.Returns first (.error failure) ↔
      (∃ k, world.Reaches k ∧ world.cancelled k = false ∧
        world.exit k = .error (.failed failure)) ∨
      failure = .cancelled ∧ ∃ k, world.Reaches k ∧ world.cancelled k = true := by
  constructor
  · rintro ⟨n, ended, hover, hresult⟩
    rcases (stands_run fresh n).over hover with ⟨k, cancelled, rfl⟩ | ⟨k, isEnded⟩
    · cases hresult
      exact .inr ⟨rfl, k, cancelled.reaches, cancelled.cancelled⟩
    · rcases settle_cases isEnded.settle with ⟨-, rfl⟩ | ⟨other, hexit, rfl⟩
      · cases hresult
      · cases hresult
        exact .inl ⟨k, isEnded.reaches, isEnded.goes, hexit⟩
  · rintro (⟨k, hreaches, hgoes, hexit⟩ | ⟨rfl, k, hreaches, hcancelled⟩)
    · obtain ⟨n, ended, isEnded⟩ := exists_ended fresh hreaches hgoes hexit
      have hsettle := isEnded.settle
      rw [hexit] at hsettle
      cases hsettle
      exact ⟨n, _, isEnded.phase, rfl⟩
    · obtain ⟨n, cancelled⟩ := exists_cancelled fresh hreaches hcancelled
      exact ⟨n, _, cancelled.phase, rfl⟩

theorem Timely.event {begun back : Nat} (timely : Timely world first begun back x)
    (kind : EventKind) : x.loop.event kind =
      { kind, name := some first.loop.name,
        attempt := some (min x.starts.length (maxWord 32)) } := by
  rw [timely.begun, timely.loop]
  rfl

theorem told_before (stands : Stands world first x) (h : ∀ ended, x.phase ≠ .over ended) :
    x.told = [] := by
  cases stands with
  | between k between => exact between.told
  | running k running => exact running.told
  | resting k resting => exact resting.told
  | cancelled k cancelled => exact absurd cancelled.phase (h _)
  | ended k ended isEnded => exact absurd isEnded.phase (h _)

end Rounds

/-- Whether a loop runs on its own or through a host, however its bodies end and however long they
take, and whenever it is cancelled.  A body begins when the one before it has come back and the
interval has passed since that one began, whichever is later: the longest of the requested interval,
the floor of the host and 50 ms.  The timer that counts the interval goes off at the first whole
millisecond that is not before its deadline.  The loop ends with the first body that does not go
well, once the interval of that has passed: well if the body raised the stop signal, and with its
failure if it failed.  Or it is cancelled when it comes to an iteration, and no further body begins.
One event tells the end on the bus of the host, with the number of bodies that began, and nothing is
told before. -/
theorem loops_end_as_their_bodies_say (world : Rounds.World) (host : Option Config)
    (name : String) (requested began : Duration) :
    let first := Rounds.start host name requested began
    let interval : Duration :=
      ⟨max (max requested.nanoseconds (host.elim 0 (·.loopInterval.nanoseconds))) 50000000⟩
    let x := world.run first
    (∀ n k t next, (x n).starts[k]? = some t → (x n).starts[k + 1]? = some next →
      (x n).returns[k]? = some (t + world.lasts k) ∧
      Rounds.Lasts interval (world.lasts k) t next) ∧
    (∀ k, (∃ n, k < (x n).starts.length) ↔ world.Reaches k ∧ world.cancelled k = false) ∧
    (world.Returns first (.ok ()) ↔
      ∃ k, world.Reaches k ∧ world.cancelled k = false ∧ world.exit k = .error .stop) ∧
    (∀ failure, world.Returns first (.error failure) ↔
      (∃ k, world.Reaches k ∧ world.cancelled k = false ∧
        world.exit k = .error (.failed failure)) ∨
      failure = .cancelled ∧ ∃ k, world.Reaches k ∧ world.cancelled k = true) ∧
    (∀ n ended, (x n).phase = .over ended →
      (x n).told = (if host.isSome then [ended.event] else []) ∧
      ended.event.name = some name ∧
      ended.event.attempt = some (min (x n).starts.length (maxWord 32)) ∧
      ∃ k, world.Reaches k ∧
        (world.cancelled k = true ∧ (x n).starts.length = k ∧
          ended.event.kind = .loopCancelled ∧ ended.result = .error .cancelled ∨
        world.cancelled k = false ∧ (x n).starts.length = k + 1 ∧
          (∃ t, (x n).starts[k]? = some t ∧
            Rounds.Lasts interval (world.lasts k) t (x n).clock) ∧
          (world.exit k = .error .stop ∧ ended.event.kind = .loopStopped ∧
            ended.result = .ok () ∨
          ∃ failure, world.exit k = .error (.failed failure) ∧
            ended.event.kind = .loopFailed ∧ ended.event.reason = some failure.text ∧
            ended.result = .error failure))) ∧
    (∀ n, (∀ ended, (x n).phase ≠ .over ended) → (x n).told = []) := by
  intro first interval x
  have fresh : Rounds.Fresh first := Rounds.fresh_start host name requested began
  have stands : ∀ n, Rounds.Stands world first (x n) := Rounds.stands_run fresh
  have hinterval : first.loop.interval = interval :=
    Rounds.interval_start host name requested began
  have hname : first.loop.name = name := Rounds.name_start host name requested began
  refine ⟨?_, Rounds.begins_iff fresh, Rounds.returns_ok_iff fresh, Rounds.returns_error_iff fresh,
    ?_, fun n h => Rounds.told_before (stands n) h⟩
  · intro n k t next ht hnext
    have hpace := (stands n).pace ht hnext
    rwa [hinterval] at hpace
  · intro n ended hover
    rcases (stands n).over hover with ⟨k, cancelled, rfl⟩ | ⟨k, isEnded⟩
    · have hevent := cancelled.event .loopCancelled
      refine ⟨cancelled.told, ?_, ?_, k, cancelled.reaches,
        .inl ⟨cancelled.cancelled, cancelled.begun, rfl, rfl⟩⟩
      · rw [← hname]
        exact congrArg Event.name hevent
      · exact congrArg Event.attempt hevent
    · have hplace : (x n).starts[k]? = some (world.startOf first k) := by
        rw [isEnded.starts, List.getElem?_map, List.getElem?_range (Nat.lt_succ_self k)]
        rfl
      have hclock : Rounds.Lasts interval (world.lasts k) (world.startOf first k) (x n).clock := by
        rw [isEnded.clock, ← hinterval]
        exact Rounds.lasts_due _ _ _
      rcases Rounds.settle_cases isEnded.settle with ⟨hexit, hended⟩ | ⟨failure, hexit, hended⟩
      · have hevent := isEnded.event .loopStopped
        refine ⟨isEnded.told, ?_, ?_, k, isEnded.reaches, .inr ⟨isEnded.goes, isEnded.begun,
          ⟨_, hplace, hclock⟩, .inl ⟨hexit, ?_, ?_⟩⟩⟩
        · rw [hended, ← hname]
          exact congrArg Event.name hevent
        · rw [hended]
          exact congrArg Event.attempt hevent
        · rw [hended]
          rfl
        · rw [hended]
      · have hevent := isEnded.event .loopFailed
        refine ⟨isEnded.told, ?_, ?_, k, isEnded.reaches, .inr ⟨isEnded.goes, isEnded.begun,
          ⟨_, hplace, hclock⟩, .inr ⟨failure, hexit, ?_, ?_, ?_⟩⟩⟩
        · rw [hended, ← hname]
          exact congrArg Event.name hevent
        · rw [hended]
          exact congrArg Event.attempt hevent
        · rw [hended]
          rfl
        · rw [hended]
        · rw [hended]

/-- A body may fail with the failure of a loop that was cancelled, and then the loop returns that
failure though nobody cancelled it. -/
theorem loops_return_cancelled_on_their_own :
    let world : Rounds.World :=
      { exit := fun _ => .error (.failed .cancelled), lasts := fun _ => .zero,
        cancelled := fun _ => false }
    let first := Rounds.start none "loop" (.ofMillis 50) .zero
    ¬ (world.Returns first (.error .cancelled) ↔
      ∃ k, world.Reaches k ∧ world.cancelled k = true) := by
  intro world first hiff
  have hfirst : world.Reaches 0 := fun j hj => absurd hj (Nat.not_lt_zero j)
  have hreturns : world.Returns first (.error .cancelled) :=
    (Rounds.returns_error_iff (Rounds.fresh_start none "loop" _ _) .cancelled).mpr
      (.inl ⟨0, hfirst, rfl, rfl⟩)
  obtain ⟨k, -, hcancelled⟩ := hiff.mp hreturns
  cases hcancelled

end Sequencer
