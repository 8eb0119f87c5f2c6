import Sequencer.Shutdown
import Sequencer.Variable
import Mathlib.Data.List.Nodup

/-!
# Workshops — the background work of a host, step by step

Loops, machines and the monitors of variables are started through a host at any time, also while it
is stopping, and they end at any time: they finish, they panic, or they are aborted.  Neither is one
step.  Work is registered before its task takes a token, and the registration goes with the work
itself, before the token of its task is dropped.  The shutdown goes its own way beside them: it
tells that it begins, cancels everything, closes the tracker, waits for the tokens, and looks which
work is left only after that wait has ended.  Anything may come between any two of these steps.
-/

namespace Sequencer

namespace Workshop

/-- A piece of background work. -/
inductive Job where
  | loop (name : String)
  | machine (name : String)
  /-- The standing subscription of a variable, for the machine that owns it. -/
  | monitor (v : Variable) (owner : String)

/-- The name under which it is registered. -/
def Job.name : Job → String
  | loop name => name
  | machine name => name
  | monitor v owner => v.monitorName owner

/-- How a piece of work ends. -/
inductive Ending where
  | finished
  | panicked
  | aborted
  deriving DecidableEq

/-- What happens on the bus and to the root token, and who does it. -/
inductive Deed where
  /-- The shutdown publishes an event. -/
  | told (event : Event)
  /-- The shutdown cancels the root token. -/
  | cancelled
  /-- The shutdown closes the tracker. -/
  | closed
  /-- Somebody else publishes an event. -/
  | published (event : Event)
  /-- Somebody else cancels the root token. -/
  | interrupted
  deriving DecidableEq

/-- Whether it is the shutdown that does it. -/
def Deed.isOwn : Deed → Bool
  | published _ => false
  | interrupted => false
  | _ => true

/-- How far the shutdown is. -/
inductive Phase where
  | running
  | requested
  | cancelled
  | closed
  | waiting
  /-- The wait has ended because the grace period is over. -/
  | overdue
  | decided (verdict : Shutdown.Verdict)
  | concluded (verdict : Shutdown.Verdict)

namespace Phase

/-- What the shutdown has done, in order. -/
def deeds : Phase → List Deed
  | running => []
  | requested => [.told Shutdown.requestedEvent]
  | cancelled => [.told Shutdown.requestedEvent, .cancelled]
  | concluded verdict =>
    [.told Shutdown.requestedEvent, .cancelled, .closed, .told verdict.event]
  | _ => [.told Shutdown.requestedEvent, .cancelled, .closed]

/-- Whether the tracker is closed. -/
def isClosed : Phase → Bool
  | running => false
  | requested => false
  | cancelled => false
  | _ => true

/-- Whether the wait has ended. -/
def isPast : Phase → Bool
  | overdue => true
  | decided _ => true
  | concluded _ => true
  | _ => false

/-- Whether the wait has begun. -/
def isAwaited (phase : Phase) : Bool :=
  match phase with
  | waiting => true
  | other => other.isPast

def verdict? : Phase → Option Shutdown.Verdict
  | decided verdict => some verdict
  | concluded verdict => some verdict
  | _ => none

end Phase

end Workshop

/-- The background work of a host, and its shutdown. -/
structure Workshop where
  /-- How long the shutdown waits. -/
  grace : Duration
  roster : Roster := {}
  /-- All the work whose start has begun, in order. -/
  jobs : List Workshop.Job := []
  /-- The work whose tasks hold a token, by its places among the work. -/
  holders : List Nat := []
  /-- What has ended, and how. -/
  ended : List (Nat × Workshop.Ending) := []
  phase : Workshop.Phase := .running
  /-- Everything that was done, in order. -/
  log : List Workshop.Deed := []

namespace Workshop

def opened (grace : Duration) : Workshop := { grace }

def hasEnded (x : Workshop) (n : Nat) : Bool := x.ended.any fun entry => entry.1 = n

/-- The work that has not ended, with its places. -/
def unfinished (x : Workshop) : List (Job × Nat) :=
  x.jobs.zipIdx.filter fun entry => !x.hasEnded entry.2

/-- Whether the task of a piece of work was spawned, whatever became of it. -/
def wasSpawned (x : Workshop) (n : Nat) : Bool := x.holders.contains n || x.hasEnded n

/-- No piece of work is half-way in or half-way out: its task holds a token as long as it has not
ended, and no longer. -/
def AtRest (x : Workshop) : Prop := ∀ n, n ∈ x.holders ↔ n < x.jobs.length ∧ x.hasEnded n = false

/-! ## 1. Steps -/

/-- The start of a piece of work begins: it is registered. -/
def enlist (x : Workshop) (job : Job) : Workshop :=
  { x with roster := (x.roster.register job.name).1, jobs := x.jobs ++ [job] }

/-- Its task takes a token and is spawned. -/
def spawn (x : Workshop) (n : Nat) : Workshop :=
  if n < x.jobs.length ∧ x.wasSpawned n = false then
    { x with roster.tracker := x.roster.tracker.take, holders := x.holders ++ [n] }
  else x

/-- It ends, and its registration goes with it. -/
def finish (x : Workshop) (n : Nat) (ending : Ending) : Workshop :=
  if n ∈ x.holders ∧ x.hasEnded n = false then
    { x with roster := x.roster.deregister n, ended := x.ended ++ [(n, ending)] }
  else x

/-- Its task drops the token. -/
def release (x : Workshop) (n : Nat) : Workshop :=
  if n ∈ x.holders ∧ x.hasEnded n = true then
    { x with roster.tracker := x.roster.tracker.drop, holders := x.holders.erase n }
  else x

/-- The shutdown goes on to its next phase. -/
def proceed (x : Workshop) (phase : Phase) (deed : Deed) : Workshop :=
  { x with phase, log := x.log ++ [deed] }

/-- The shutdown looks at the tokens, and perhaps at a timer that has run out. -/
def look (x : Workshop) (elapsed : Bool) : Workshop :=
  match x.phase, Shutdown.look x.roster.tracker elapsed with
  | .waiting, some .settled => { x with phase := .decided Shutdown.inTime }
  | .waiting, some .overdue => { x with phase := .overdue }
  | _, _ => x

inductive Move where
  | enlist (job : Job)
  | spawn (n : Nat)
  | finish (n : Nat) (ending : Ending)
  | release (n : Nat)
  | publish (event : Event)
  | interrupt
  | request
  | cancel
  | close
  | await
  | look (elapsed : Bool)
  /-- The shutdown looks which work is left. -/
  | survey
  | tell

/-- Whether it is work that takes the step, and not the shutdown or somebody else. -/
def Move.isOfWork : Move → Bool
  | enlist _ => true
  | spawn _ => true
  | finish _ _ => true
  | release _ => true
  | _ => false

/-- A step; one that cannot be taken changes nothing. -/
def step (x : Workshop) : Move → Workshop
  | .enlist job => x.enlist job
  | .spawn n => x.spawn n
  | .finish n ending => x.finish n ending
  | .release n => x.release n
  | .publish event => { x with log := x.log ++ [.published event] }
  | .interrupt => { x with log := x.log ++ [.interrupted] }
  | .request =>
    match x.phase with
    | .running => x.proceed .requested (.told Shutdown.requestedEvent)
    | _ => x
  | .cancel =>
    match x.phase with
    | .requested => x.proceed .cancelled .cancelled
    | _ => x
  | .close =>
    match x.phase with
    | .cancelled =>
      { x.proceed .closed .closed with roster.tracker := x.roster.tracker.close }
    | _ => x
  | .await =>
    match x.phase with
    | .closed => { x with phase := .waiting, roster.tracker := x.roster.tracker.await }
    | _ => x
  | .look elapsed => x.look elapsed
  | .survey =>
    match x.phase with
    | .overdue => { x with phase := .decided (Shutdown.exceeded x.grace x.roster) }
    | _ => x
  | .tell =>
    match x.phase with
    | .decided verdict => x.proceed (.concluded verdict) (.told verdict.event)
    | _ => x

def run (x : Workshop) (moves : List Move) : Workshop := moves.foldl step x

variable {x y : Workshop} {move : Move}

theorem run_append (x : Workshop) (before more : List Move) :
    x.run (before ++ more) = (x.run before).run more :=
  List.foldl_append

theorem run_concat (x : Workshop) (moves : List Move) (move : Move) :
    x.run (moves ++ [move]) = (x.run moves).step move :=
  run_append x moves [move]

/-- What a move comes to. -/
inductive Takes (x : Workshop) : Move → Workshop → Prop where
  | idle (move : Move) : Takes x move x
  | enlist (job : Job) : Takes x (.enlist job) (x.enlist job)
  | spawn (n : Nat) (known : n < x.jobs.length) (new : x.wasSpawned n = false) :
    Takes x (.spawn n)
      { x with roster.tracker := x.roster.tracker.take, holders := x.holders ++ [n] }
  | finish (n : Nat) (ending : Ending) (holds : n ∈ x.holders) (running : x.hasEnded n = false) :
    Takes x (.finish n ending)
      { x with roster := x.roster.deregister n, ended := x.ended ++ [(n, ending)] }
  | release (n : Nat) (holds : n ∈ x.holders) (gone : x.hasEnded n = true) :
    Takes x (.release n)
      { x with roster.tracker := x.roster.tracker.drop, holders := x.holders.erase n }
  | publish (event : Event) :
    Takes x (.publish event) { x with log := x.log ++ [.published event] }
  | interrupt : Takes x .interrupt { x with log := x.log ++ [.interrupted] }
  | request (phase : x.phase = .running) :
    Takes x .request (x.proceed .requested (.told Shutdown.requestedEvent))
  | cancel (phase : x.phase = .requested) : Takes x .cancel (x.proceed .cancelled .cancelled)
  | close (phase : x.phase = .cancelled) :
    Takes x .close { x.proceed .closed .closed with roster.tracker := x.roster.tracker.close }
  | await (phase : x.phase = .closed) :
    Takes x .await { x with phase := .waiting, roster.tracker := x.roster.tracker.await }
  | settle (elapsed : Bool) (phase : x.phase = .waiting)
      (settled : x.roster.tracker.settled = true) :
    Takes x (.look elapsed) { x with phase := .decided Shutdown.inTime }
  | expire (phase : x.phase = .waiting) (unsettled : x.roster.tracker.settled = false) :
    Takes x (.look true) { x with phase := .overdue }
  | survey (phase : x.phase = .overdue) :
    Takes x .survey { x with phase := .decided (Shutdown.exceeded x.grace x.roster) }
  | tell (verdict : Shutdown.Verdict) (phase : x.phase = .decided verdict) :
    Takes x .tell (x.proceed (.concluded verdict) (.told verdict.event))

theorem takes_look (x : Workshop) (elapsed : Bool) : Takes x (.look elapsed) (x.look elapsed) := by
  unfold look Shutdown.look
  split
  · next hphase hlook =>
    split at hlook
    · next hsettled => exact .settle elapsed hphase hsettled
    · split at hlook <;> cases hlook
  · next hphase hlook =>
    split at hlook
    · cases hlook
    · next hsettled =>
      split at hlook
      · next helapsed =>
        obtain rfl : elapsed = true := helapsed
        exact .expire hphase (Bool.eq_false_iff.mpr hsettled)
      · cases hlook
  · exact .idle _

theorem takes_step (x : Workshop) (move : Move) : Takes x move (x.step move) := by
  cases move with
  | enlist job => exact .enlist job
  | spawn n =>
    simp only [step, spawn]
    split
    · next h => exact .spawn n h.1 h.2
    · exact .idle _
  | finish n ending =>
    simp only [step, finish]
    split
    · next h => exact .finish n ending h.1 h.2
    · exact .idle _
  | release n =>
    simp only [step, release]
    split
    · next h => exact .release n h.1 h.2
    · exact .idle _
  | publish event => exact .publish event
  | interrupt => exact .interrupt
  | request =>
    simp only [step]
    split
    · next h => exact .request h
    · exact .idle _
  | cancel =>
    simp only [step]
    split
    · next h => exact .cancel h
    · exact .idle _
  | close =>
    simp only [step]
    split
    · next h => exact .close h
    · exact .idle _
  | await =>
    simp only [step]
    split
    · next h => exact .await h
    · exact .idle _
  | look elapsed => exact takes_look x elapsed
  | survey =>
    simp only [step]
    split
    · next h => exact .survey h
    · exact .idle _
  | tell =>
    simp only [step]
    split
    · next verdict h => exact .tell verdict h
    · exact .idle _

/-- What every move keeps, a run keeps. -/
theorem run_keeps {P : Workshop → Prop} (h : ∀ {x y move}, P x → Takes x move y → P y) (start : P x)
    (moves : List Move) : P (x.run moves) := by
  induction moves generalizing x with
  | nil => exact start
  | cons move moves ih => exact ih (h start (takes_step x move))

/-! ## 2. The work and the roster -/

/-- The registrations are those of the work that has not ended, one a piece, and the tokens are held
by the tasks that were spawned and have not dropped them. -/
structure Tracks (x : Workshop) : Prop where
  next : x.roster.next = x.jobs.length
  entries : x.roster.entries = x.unfinished.map fun entry => (entry.2, entry.1.name)
  held : x.roster.tracker.held = x.holders.length
  distinct : x.holders.Nodup
  known : ∀ n, x.wasSpawned n = true → n < x.jobs.length

theorem tracks_opened (grace : Duration) : (opened grace).Tracks where
  next := rfl
  entries := rfl
  held := rfl
  distinct := List.nodup_nil
  known _ h := by cases h

theorem wasSpawned_iff {n : Nat} :
    x.wasSpawned n = true ↔ n ∈ x.holders ∨ x.hasEnded n = true := by
  unfold wasSpawned
  rw [Bool.or_eq_true, List.contains_iff_mem]

theorem mem_unfinished {job : Job} {n : Nat} :
    (job, n) ∈ x.unfinished ↔ x.jobs[n]? = some job ∧ x.hasEnded n = false := by
  unfold unfinished
  rw [List.mem_filter, List.mk_mem_zipIdx_iff_getElem?, Bool.not_eq_true']

theorem unfinished_enlist (tracks : x.Tracks) (job : Job) :
    (x.enlist job).unfinished = x.unfinished ++ [(job, x.jobs.length)] := by
  -- Only work that was spawned has ended, so the new piece has not.
  have hnew : x.hasEnded x.jobs.length = false := Bool.eq_false_iff.mpr fun h =>
    Nat.lt_irrefl _ (tracks.known _ (wasSpawned_iff.mpr (.inr h)))
  unfold unfinished
  show ((x.jobs ++ [job]).zipIdx).filter (fun entry => !x.hasEnded entry.2) = _
  rw [List.zipIdx_append, List.filter_append]
  congr 1
  show [(job, 0 + x.jobs.length)].filter (fun entry => !x.hasEnded entry.2) = _
  rw [Nat.zero_add, List.filter_cons_of_pos (by rw [hnew]; rfl), List.filter_nil]

theorem tracks_enlist (tracks : x.Tracks) (job : Job) : (x.enlist job).Tracks where
  next := by
    show x.roster.next + 1 = (x.jobs ++ [job]).length
    rw [tracks.next, List.length_append, List.length_singleton]
  entries := by
    show x.roster.entries ++ [(x.roster.next, job.name)] = _
    rw [unfinished_enlist tracks, List.map_append, tracks.entries, tracks.next]
    rfl
  held := tracks.held
  distinct := tracks.distinct
  known n h := by
    show n < (x.jobs ++ [job]).length
    rw [List.length_append]
    exact Nat.lt_add_right _ (tracks.known n h)

theorem tracks_spawn (tracks : x.Tracks) {n : Nat} (hknown : n < x.jobs.length)
    (hnew : x.wasSpawned n = false) :
    Tracks { x with roster.tracker := x.roster.tracker.take, holders := x.holders ++ [n] } where
  next := tracks.next
  entries := tracks.entries
  held := by
    show x.roster.tracker.held + 1 = (x.holders ++ [n]).length
    rw [tracks.held, List.length_append, List.length_singleton]
  distinct := by
    have hfree : n ∉ x.holders := fun hmem =>
      Bool.eq_false_iff.mp hnew (wasSpawned_iff.mpr (.inl hmem))
    exact List.nodup_append.mpr ⟨tracks.distinct, List.nodup_singleton n, fun m hm k hk hsame =>
      hfree (List.mem_singleton.mp hk ▸ hsame ▸ hm)⟩
  known m hm := by
    rcases wasSpawned_iff.mp hm with hmem | hended
    · rcases List.mem_append.mp hmem with hold | hmem
      · exact tracks.known m (wasSpawned_iff.mpr (.inl hold))
      · exact List.mem_singleton.mp hmem ▸ hknown
    · exact tracks.known m (wasSpawned_iff.mpr (.inr hended))

theorem hasEnded_concat (x : Workshop) (roster : Roster) (n m : Nat) (ending : Ending) :
    hasEnded { x with roster, ended := x.ended ++ [(n, ending)] } m =
      (x.hasEnded m || decide (n = m)) := by
  show (x.ended ++ [(n, ending)]).any (fun entry => entry.1 = m) = _
  rw [List.any_append, List.any_cons, List.any_nil, Bool.or_false]
  rfl

theorem unfinished_concat (x : Workshop) (roster : Roster) (n : Nat) (ending : Ending) :
    unfinished { x with roster, ended := x.ended ++ [(n, ending)] } =
      x.unfinished.filter fun entry => entry.2 ≠ n := by
  unfold unfinished
  rw [List.filter_filter]
  apply List.filter_congr
  intro entry _
  have hsame : decide (n = entry.2) = decide (entry.2 = n) := decide_eq_decide.mpr eq_comm
  rw [hasEnded_concat, hsame, Bool.not_or, Bool.and_comm, decide_not]

theorem tracks_finish (tracks : x.Tracks) {n : Nat} (ending : Ending) (hholds : n ∈ x.holders) :
    Tracks { x with roster := x.roster.deregister n, ended := x.ended ++ [(n, ending)] } where
  next := tracks.next
  entries := by
    show x.roster.entries.filter (fun entry => entry.1 ≠ n) = _
    rw [unfinished_concat, tracks.entries, List.filter_map]
    rfl
  held := tracks.held
  distinct := tracks.distinct
  known m hm := by
    rw [wasSpawned_iff, hasEnded_concat, Bool.or_eq_true, decide_eq_true_iff] at hm
    rcases hm with hmem | hold | rfl
    · exact tracks.known m (wasSpawned_iff.mpr (.inl hmem))
    · exact tracks.known m (wasSpawned_iff.mpr (.inr hold))
    · exact tracks.known n (wasSpawned_iff.mpr (.inl hholds))

theorem tracks_release (tracks : x.Tracks) {n : Nat} (hholds : n ∈ x.holders) :
    Tracks { x with roster.tracker := x.roster.tracker.drop, holders := x.holders.erase n } where
  next := tracks.next
  entries := tracks.entries
  held := by
    show x.roster.tracker.held - 1 = (x.holders.erase n).length
    rw [tracks.held, List.length_erase_of_mem hholds]
  distinct := tracks.distinct.erase n
  known m hm := by
    rcases wasSpawned_iff.mp hm with hmem | hended
    · exact tracks.known m (wasSpawned_iff.mpr (.inl (List.mem_of_mem_erase hmem)))
    · exact tracks.known m (wasSpawned_iff.mpr (.inr hended))

theorem Tracks.takes (tracks : x.Tracks) (takes : Takes x move y) : y.Tracks := by
  cases takes with
  | enlist job => exact tracks_enlist tracks job
  | spawn n known new => exact tracks_spawn tracks known new
  | finish n ending holds running => exact tracks_finish tracks ending holds
  | release n holds gone => exact tracks_release tracks holds
  -- The shutdown leaves the work and its tokens alone.
  | _ => exact ⟨tracks.next, tracks.entries, tracks.held, tracks.distinct, tracks.known⟩

theorem tracks_run (grace : Duration) (moves : List Move) : ((opened grace).run moves).Tracks :=
  run_keeps Tracks.takes (tracks_opened grace) moves

theorem Tracks.names (tracks : x.Tracks) :
    x.roster.entries.map (·.2) = x.unfinished.map fun (job, _) => job.name := by
  rw [tracks.entries, List.map_map]
  rfl

/-- At rest the registrations are as many as the tokens. -/
theorem Tracks.held_eq (tracks : x.Tracks) (rest : x.AtRest) :
    x.roster.tracker.held = x.roster.entries.length := by
  have hplaces : (x.unfinished.map (·.2)).Nodup := by
    have hall : (x.jobs.zipIdx.map (·.2)).Nodup := by
      rw [List.zipIdx_map_snd]
      exact List.nodup_range'
    exact hall.sublist ((List.filter_sublist).map _)
  have hperm : x.holders.Perm (x.unfinished.map (·.2)) := by
    refine (List.perm_ext_iff_of_nodup tracks.distinct hplaces).mpr fun n => ?_
    rw [rest n, List.mem_map]
    constructor
    · rintro ⟨hlt, hrunning⟩
      exact ⟨(x.jobs[n], n), mem_unfinished.mpr ⟨List.getElem?_eq_getElem hlt, hrunning⟩, rfl⟩
    · rintro ⟨⟨job, m⟩, hmem, rfl⟩
      obtain ⟨hjob, hrunning⟩ := mem_unfinished.mp hmem
      exact ⟨(List.getElem?_eq_some_iff.mp hjob).1, hrunning⟩
  rw [tracks.held, hperm.length_eq, tracks.entries, List.length_map, List.length_map]

/-- Work that starts in one go. -/
theorem Tracks.run_start (tracks : x.Tracks) (job : Job) :
    x.run [.enlist job, .spawn x.jobs.length] =
      { x with
        roster := (x.roster.enter job.name).1
        jobs := x.jobs ++ [job]
        holders := x.holders ++ [x.jobs.length] } := by
  have hnew : (x.enlist job).wasSpawned x.jobs.length = false :=
    Bool.eq_false_iff.mpr fun h => Nat.lt_irrefl _ (tracks.known _ h)
  have hknown : x.jobs.length < (x.enlist job).jobs.length := by
    show x.jobs.length < (x.jobs ++ [job]).length
    rw [List.length_append, List.length_singleton]
    exact Nat.lt_succ_self _
  exact if_pos ⟨hknown, hnew⟩

/-- Work that ends in one go. -/
theorem run_end {n : Nat} (ending : Ending) (hholds : n ∈ x.holders)
    (hrunning : x.hasEnded n = false) :
    x.run [.finish n ending, .release n] =
      { x with
        roster := x.roster.leave n
        ended := x.ended ++ [(n, ending)]
        holders := x.holders.erase n } := by
  have hfinish : x.finish n ending =
      { x with roster := x.roster.deregister n, ended := x.ended ++ [(n, ending)] } :=
    if_pos ⟨hholds, hrunning⟩
  have hgone : (x.finish n ending).hasEnded n = true := by
    rw [hfinish, hasEnded_concat, decide_eq_true rfl, Bool.or_true]
  show (x.finish n ending).release n = _
  unfold release
  rw [if_pos ⟨by rw [hfinish]; exact hholds, hgone⟩, hfinish]
  rfl

theorem atRest_opened (grace : Duration) : (opened grace).AtRest := fun n =>
  ⟨fun h => absurd h List.not_mem_nil, fun h => absurd h.1 (Nat.not_lt_zero n)⟩

/-- Whatever is not a step of the work itself leaves nothing half-way. -/
theorem atRest_takes (rest : x.AtRest) (hother : move.isOfWork = false) (takes : Takes x move y) :
    y.AtRest := by
  cases takes with
  | enlist job => cases hother
  | spawn n known new => cases hother
  | finish n ending holds running => cases hother
  | release n holds gone => cases hother
  | _ => exact rest

/-- Nor does work that starts in one go. -/
theorem atRest_start (tracks : x.Tracks) (rest : x.AtRest) (job : Job) :
    (x.run [.enlist job, .spawn x.jobs.length]).AtRest := by
  have hnew : x.hasEnded x.jobs.length = false := Bool.eq_false_iff.mpr fun h =>
    Nat.lt_irrefl _ (tracks.known _ (wasSpawned_iff.mpr (.inr h)))
  rw [tracks.run_start]
  intro n
  show n ∈ x.holders ++ [x.jobs.length] ↔ n < (x.jobs ++ [job]).length ∧ x.hasEnded n = false
  rw [List.mem_append, List.mem_singleton, rest n, List.length_append, List.length_singleton]
  constructor
  · rintro (⟨hlt, hrunning⟩ | rfl)
    · exact ⟨Nat.lt_succ_of_lt hlt, hrunning⟩
    · exact ⟨Nat.lt_succ_self _, hnew⟩
  · rintro ⟨hlt, hrunning⟩
    rcases Nat.lt_succ_iff_lt_or_eq.mp hlt with hlt | rfl
    · exact .inl ⟨hlt, hrunning⟩
    · exact .inr rfl

/-- Nor does work that ends in one go. -/
theorem atRest_end (tracks : x.Tracks) (rest : x.AtRest) (n : Nat) (ending : Ending) :
    (x.run [.finish n ending, .release n]).AtRest := by
  by_cases h : n ∈ x.holders ∧ x.hasEnded n = false
  · rw [run_end ending h.1 h.2]
    intro m
    show m ∈ x.holders.erase n ↔ m < x.jobs.length ∧
      hasEnded { x with roster := x.roster.leave n, ended := x.ended ++ [(n, ending)] } m = false
    rw [tracks.distinct.mem_erase_iff, rest m, hasEnded_concat, Bool.or_eq_false_iff,
      decide_eq_false_iff_not]
    constructor
    · rintro ⟨hother, hlt, hrunning⟩
      exact ⟨hlt, hrunning, fun hsame => hother hsame.symm⟩
    · rintro ⟨hlt, hrunning, hother⟩
      exact ⟨fun hsame => hother hsame.symm, hlt, hrunning⟩
  · -- Work that is not under way cannot end, and no task of it has a token to drop.
    have hsame : x.run [.finish n ending, .release n] = x := by
      have hfinish : x.finish n ending = x := if_neg h
      show (x.finish n ending).release n = x
      rw [hfinish]
      exact if_neg fun hgone => h ⟨hgone.1, ((rest n).mp hgone.1).2⟩
    rw [hsame]
    exact rest

end Workshop

end Sequencer
