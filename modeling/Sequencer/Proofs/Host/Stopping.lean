import Sequencer.Proofs.Host.Workshop
import Sequencer.Rehearsal.Play
import Mathlib.Data.List.Induction

/-!
# Stopping — what a host tells of its background work when it stops

A shutdown waits for the tokens of the background work.  It comes to know of the first moment at
which nobody holds one, even if it looks only later and others have been started meanwhile.  So all
work that is left when it tells that everything has stopped was spawned after such a moment.  If its
grace period is over before, it tells which work is left when it looks that up.
-/

namespace Sequencer

/-! ## 1. The roster and its tracker -/

theorem Roster.names_perm (roster : Roster) : roster.names.Perm (roster.entries.map (·.2)) :=
  List.mergeSort_perm _ _

theorem Roster.names_sorted (roster : Roster) : roster.names.Pairwise (· ≤ ·) := by
  have htrans : ∀ a b c : String, decide (a ≤ b) = true → decide (b ≤ c) = true →
      decide (a ≤ c) = true := by
    intro a b c hab hbc
    exact decide_eq_true (String.le_trans (of_decide_eq_true hab) (of_decide_eq_true hbc))
  have htotal : ∀ a b : String, (decide (a ≤ b) || decide (b ≤ a)) = true := by
    intro a b
    rw [Bool.or_eq_true, decide_eq_true_iff, decide_eq_true_iff]
    exact String.le_total a b
  exact (List.pairwise_mergeSort htrans htotal _).imp of_decide_eq_true

theorem Tracker.settled_take (tracker : Tracker) :
    tracker.take.settled = (tracker.settled || tracker.take.isOver) := by
  have hheld : tracker.take.isOver = false := Bool.and_eq_false_iff.mpr (.inr rfl)
  rw [hheld, Bool.or_false]
  rfl

namespace Workshop

variable {x y : Workshop} {move : Move}

/-- The tracker is as far as the shutdown, and has taken note of what it was to note. -/
structure Flagged (x : Workshop) : Prop where
  closed : x.roster.tracker.closed = x.phase.isClosed
  awaited : x.roster.tracker.awaited = x.phase.isAwaited
  noted : x.roster.tracker.isOver = true → x.roster.tracker.settled = true

theorem flagged_opened (grace : Duration) : (opened grace).Flagged where
  closed := rfl
  awaited := rfl
  noted := nofun

/-- A step settles the tracker if it leaves nothing that somebody waits for. -/
theorem Flagged.settled (flagged : x.Flagged) (takes : Takes x move y) :
    y.roster.tracker.settled = (x.roster.tracker.settled || y.roster.tracker.isOver) := by
  have hsame : y.roster.tracker = x.roster.tracker →
      y.roster.tracker.settled = (x.roster.tracker.settled || y.roster.tracker.isOver) := by
    intro h
    rw [h]
    cases hover : x.roster.tracker.isOver with
    | true => rw [flagged.noted hover, Bool.true_or]
    | false => rw [Bool.or_false]
  cases takes with
  | spawn n known new => exact Tracker.settled_take _
  | release n holds gone => rfl
  | close phase => rfl
  | await phase => rfl
  | _ => exact hsame rfl

theorem Flagged.takes (flagged : x.Flagged) (takes : Takes x move y) : y.Flagged := by
  have hnoted : y.roster.tracker.isOver = true → y.roster.tracker.settled = true := by
    intro hover
    rw [flagged.settled takes, hover, Bool.or_true]
  -- The shutdown goes on from one phase to the next, and the tracker with it.
  have hnext : ∀ {phase}, x.phase = phase → y.roster.tracker.closed = y.phase.isClosed ∨
      y.roster.tracker.closed = x.roster.tracker.closed ∧ y.phase.isClosed = phase.isClosed →
      y.roster.tracker.awaited = y.phase.isAwaited ∨
      y.roster.tracker.awaited = x.roster.tracker.awaited ∧ y.phase.isAwaited = phase.isAwaited →
      y.Flagged := by
    rintro _ rfl hclosed hawaited
    refine ⟨hclosed.elim id fun h => ?_, hawaited.elim id fun h => ?_, hnoted⟩
    · rw [h.1, h.2, flagged.closed]
    · rw [h.1, h.2, flagged.awaited]
  cases takes with
  | request phase => exact hnext phase (.inr ⟨rfl, rfl⟩) (.inr ⟨rfl, rfl⟩)
  | cancel phase => exact hnext phase (.inr ⟨rfl, rfl⟩) (.inr ⟨rfl, rfl⟩)
  | close phase => exact hnext phase (.inl rfl) (.inr ⟨rfl, rfl⟩)
  | await phase => exact hnext phase (.inr ⟨rfl, rfl⟩) (.inl rfl)
  | settle elapsed phase settled => exact hnext phase (.inr ⟨rfl, rfl⟩) (.inr ⟨rfl, rfl⟩)
  | expire phase unsettled => exact hnext phase (.inr ⟨rfl, rfl⟩) (.inr ⟨rfl, rfl⟩)
  | survey phase => exact hnext phase (.inr ⟨rfl, rfl⟩) (.inr ⟨rfl, rfl⟩)
  | tell verdict phase => exact hnext phase (.inr ⟨rfl, rfl⟩) (.inr ⟨rfl, rfl⟩)
  | _ => exact ⟨flagged.closed, flagged.awaited, hnoted⟩

theorem flagged_run (grace : Duration) (moves : List Move) : ((opened grace).run moves).Flagged :=
  run_keeps Flagged.takes (flagged_opened grace) moves

/-! ## 2. The moments of the wait -/

theorem Phase.isClosed_of_isAwaited {phase : Phase} (h : phase.isAwaited = true) :
    phase.isClosed = true := by
  cases phase with
  | running => cases h
  | requested => cases h
  | cancelled => cases h
  | _ => rfl

theorem Phase.eq_waiting {phase : Phase} (h : phase.isAwaited = true)
    (hpast : phase.isPast = false) : phase = .waiting := by
  cases phase with
  | waiting => rfl
  | overdue => cases hpast
  | decided verdict => cases hpast
  | concluded verdict => cases hpast
  | _ => cases h

/-- Nothing is left of what the shutdown waits for if it waits and nobody holds a token. -/
theorem isOver_iff (tracks : x.Tracks) (flagged : x.Flagged) :
    x.roster.tracker.isOver = true ↔ x.phase.isAwaited = true ∧ x.holders = [] := by
  unfold Tracker.isOver
  rw [Bool.and_eq_true, Bool.and_eq_true, beq_iff_eq, flagged.awaited, flagged.closed, tracks.held,
    List.length_eq_zero_iff]
  exact and_congr_left' (and_iff_left_of_imp Phase.isClosed_of_isAwaited)

/-- The tracker is settled from the first moment of the wait on at which nobody holds a token. -/
theorem settled_run (grace : Duration) (moves : List Move) :
    ((opened grace).run moves).roster.tracker.settled = true ↔
      ∃ early late, moves = early ++ late ∧ ((opened grace).run early).phase.isAwaited = true ∧
        ((opened grace).run early).holders = [] := by
  induction moves using List.reverseRecOn with
  | nil =>
    refine ⟨nofun, ?_⟩
    rintro ⟨early, late, hsplit, hawaited, -⟩
    obtain ⟨rfl, -⟩ := List.nil_eq_append_iff.mp hsplit
    cases hawaited
  | append_singleton moves move ih =>
    have hlast := run_concat (opened grace) moves move
    have hsettled := (flagged_run grace moves).settled (takes_step _ move)
    rw [← hlast] at hsettled
    rw [hsettled, Bool.or_eq_true, ih, isOver_iff (tracks_run grace _) (flagged_run grace _)]
    -- The moment is the one after the last step, or it came before that step.
    constructor
    · rintro (⟨early, late, hsplit, h⟩ | h)
      · exact ⟨early, late ++ [move], by rw [hsplit, List.append_assoc], h⟩
      · exact ⟨moves ++ [move], [], (List.append_nil _).symm, h⟩
    · rintro ⟨early, late, hsplit, h⟩
      rcases List.eq_nil_or_concat late with rfl | ⟨late, last, rfl⟩
      · rw [List.append_nil] at hsplit
        exact .inr (hsplit ▸ h)
      · rw [List.concat_eq_append, ← List.append_assoc] at hsplit
        exact .inl ⟨early, late, (List.append_inj' hsplit rfl).1, h⟩

theorem isPast_takes (h : x.phase.isPast = true) (takes : Takes x move y) :
    y.phase.isPast = true := by
  have hearly : ∀ {phase : Phase}, x.phase = phase → phase.isPast = true := by
    rintro _ rfl
    exact h
  cases takes with
  | request phase => cases hearly phase
  | cancel phase => cases hearly phase
  | close phase => cases hearly phase
  | await phase => cases hearly phase
  | settle elapsed phase settled => rfl
  | expire phase unsettled => rfl
  | survey phase => rfl
  | tell verdict phase => rfl
  | _ => exact h

/-- During the wait, the tracker is settled if there was a moment of it at which nobody held a
token. -/
theorem settled_waiting {grace : Duration} {moves : List Move}
    (h : ((opened grace).run moves).phase = .waiting) :
    ((opened grace).run moves).roster.tracker.settled = true ↔
      ∃ early late, moves = early ++ late ∧ ((opened grace).run early).phase = .waiting ∧
        ((opened grace).run early).holders = [] := by
  rw [settled_run]
  constructor
  · rintro ⟨early, late, rfl, hawaited, hnobody⟩
    refine ⟨early, late, rfl, Phase.eq_waiting hawaited (Bool.eq_false_iff.mpr fun hpast => ?_),
      hnobody⟩
    -- The wait would be over by now.
    have hover := run_keeps isPast_takes hpast late
    rw [← run_append, h] at hover
    cases hover
  · rintro ⟨early, late, hsplit, hphase, hnobody⟩
    exact ⟨early, late, hsplit, by rw [hphase]; rfl, hnobody⟩

theorem busy_waiting {grace : Duration} {moves : List Move}
    (hwaiting : ((opened grace).run moves).phase = .waiting)
    (hunsettled : ((opened grace).run moves).roster.tracker.settled = false)
    (early late : List Move) (hsplit : moves = early ++ late)
    (hphase : ((opened grace).run early).phase = .waiting) :
    ((opened grace).run early).holders ≠ [] := fun hnobody =>
  Bool.eq_false_iff.mp hunsettled
    ((settled_waiting hwaiting).mpr ⟨early, late, hsplit, hphase, hnobody⟩)

/-! ## 3. What was spawned and what has ended -/

theorem hasEnded_takes {n : Nat} (h : x.hasEnded n = true) (takes : Takes x move y) :
    y.hasEnded n = true := by
  cases takes with
  | finish m ending holds running => rw [hasEnded_concat, h, Bool.true_or]
  | _ => exact h

theorem wasSpawned_takes {n : Nat} (h : x.wasSpawned n = true) (takes : Takes x move y) :
    y.wasSpawned n = true := by
  rw [wasSpawned_iff] at h ⊢
  refine h.elim (fun hholder => ?_) fun hended => .inr (hasEnded_takes hended takes)
  cases takes with
  | spawn m known new => exact .inl (List.mem_append_left _ hholder)
  | release m holds gone =>
    -- Whoever drops the token has ended.
    by_cases hsame : n = m
    · exact .inr (hsame ▸ gone)
    · exact .inl ((List.mem_erase_of_ne hsame).mpr hholder)
  | _ => exact .inl hholder

/-- Once nobody holds a token, whatever is unfinished later is spawned later. -/
theorem spawned_after (h : x.holders = []) (moves : List Move) {job : Job} {n : Nat}
    (hmem : (job, n) ∈ (x.run moves).unfinished) : x.wasSpawned n = false := by
  refine Bool.eq_false_iff.mpr fun hspawned => ?_
  -- What was spawned and holds no token has ended, and what has ended never comes back.
  rcases wasSpawned_iff.mp hspawned with hholder | hended
  · rw [h] at hholder
    cases hholder
  · have hrunning := (mem_unfinished.mp hmem).2
    rw [run_keeps hasEnded_takes hended moves] at hrunning
    cases hrunning

/-- Work that was spawned and has not ended has its name on the list. -/
theorem Tracks.hasEnded_of_names (tracks : x.Tracks) (hnames : x.roster.names = []) {n : Nat}
    (hspawned : x.wasSpawned n = true) : x.hasEnded n = true := by
  by_contra hrunning
  obtain ⟨job, hmem⟩ : ∃ job, (job, n) ∈ x.unfinished :=
    ⟨_, mem_unfinished.mpr ⟨List.getElem?_eq_getElem (tracks.known n hspawned),
      Bool.eq_false_iff.mpr hrunning⟩⟩
  have hperm := x.roster.names_perm
  rw [hnames, tracks.names] at hperm
  rw [List.map_eq_nil_iff.mp (List.nil_perm.mp hperm)] at hmem
  cases hmem

/-- At rest, whoever holds a token has not ended. -/
theorem AtRest.exists_running (rest : x.AtRest) (hbusy : x.holders ≠ []) :
    ∃ n ∈ x.holders, x.hasEnded n = false := by
  obtain ⟨n, hholder⟩ := List.exists_mem_of_ne_nil _ hbusy
  exact ⟨n, hholder, ((rest n).mp hholder).2⟩

/-! ## 4. The shutdown -/

/-- Of what is done, the shutdown does what belongs to its phase, in order. -/
theorem deeds_takes (h : x.log.filter Deed.isOwn = x.phase.deeds) (takes : Takes x move y) :
    y.log.filter Deed.isOwn = y.phase.deeds := by
  -- A deed of the shutdown takes it to the phase to which it belongs, and no other deed does.
  have hown : ∀ {before : Phase} {deed : Deed}, x.phase = before → deed.isOwn = true →
      (x.log ++ [deed]).filter Deed.isOwn = before.deeds ++ [deed] := by
    rintro _ deed rfl hown
    rw [List.filter_append, h, List.filter_cons_of_pos hown, List.filter_nil]
  have hother : ∀ {deed : Deed}, deed.isOwn = false →
      (x.log ++ [deed]).filter Deed.isOwn = x.phase.deeds := by
    intro deed hother
    rw [List.filter_append, h, List.filter_cons_of_neg (by rw [hother]; exact nofun),
      List.filter_nil, List.append_nil]
  cases takes with
  | publish event => exact hother rfl
  | interrupt => exact hother rfl
  | request phase => exact hown phase rfl
  | cancel phase => exact hown phase rfl
  | close phase => exact hown phase rfl
  | await phase => exact h.trans (by rw [phase]; rfl)
  | settle elapsed phase settled => exact h.trans (by rw [phase]; rfl)
  | expire phase unsettled => exact h.trans (by rw [phase]; rfl)
  | survey phase => exact h.trans (by rw [phase]; rfl)
  | tell verdict phase => exact hown phase rfl
  | _ => exact h

theorem grace_takes {grace : Duration} (h : x.grace = grace) (takes : Takes x move y) :
    y.grace = grace := by
  cases takes <;> exact h

/-- How a verdict comes about: the tracker is found settled, or the work that is left is looked
up. -/
inductive Decides (x : Workshop) (verdict : Shutdown.Verdict) : Prop where
  | inTime (waiting : x.phase = .waiting) (settled : x.roster.tracker.settled = true)
      (verdict : verdict = Shutdown.inTime)
  | exceeded (overdue : x.phase = .overdue)
      (verdict : verdict = Shutdown.exceeded x.grace x.roster)

theorem verdict_takes {verdict : Shutdown.Verdict} (h : y.phase.verdict? = some verdict)
    (takes : Takes x move y) :
    x.phase.verdict? = some verdict ∨ y.phase = .decided verdict ∧ x.Decides verdict := by
  cases takes with
  | settle elapsed phase settled =>
    cases h
    exact .inr ⟨rfl, .inTime phase settled rfl⟩
  | survey phase =>
    cases h
    exact .inr ⟨rfl, .exceeded phase rfl⟩
  | tell other phase =>
    cases h
    exact .inl (by rw [phase]; rfl)
  | request phase => cases h
  | cancel phase => cases h
  | close phase => cases h
  | await phase => cases h
  | expire phase unsettled => cases h
  | _ => exact .inl h

theorem verdict_run {grace : Duration} {moves : List Move} {verdict : Shutdown.Verdict}
    (h : ((opened grace).run moves).phase.verdict? = some verdict) :
    ∃ before move after, moves = before ++ move :: after ∧
      (((opened grace).run before).step move).phase = .decided verdict ∧
      ((opened grace).run before).Decides verdict := by
  induction moves using List.reverseRecOn with
  | nil => cases h
  | append_singleton moves move ih =>
    rw [run_concat] at h
    rcases verdict_takes h (takes_step _ move) with hearlier | ⟨hphase, decides⟩
    · obtain ⟨before, first, after, rfl, hdecided⟩ := ih hearlier
      refine ⟨before, first, after ++ [move], ?_, hdecided⟩
      rw [List.append_assoc, List.cons_append]
    · exact ⟨moves, move, [], rfl, hphase, decides⟩

theorem overdue_takes (h : y.phase = .overdue) (takes : Takes x move y) :
    x.phase = .overdue ∨
      move = .look true ∧ x.phase = .waiting ∧ x.roster.tracker.settled = false := by
  cases takes with
  | expire phase unsettled => exact .inr ⟨rfl, phase, unsettled⟩
  | request phase => cases h
  | cancel phase => cases h
  | close phase => cases h
  | await phase => cases h
  | settle elapsed phase settled => cases h
  | survey phase => cases h
  | tell verdict phase => cases h
  | _ => exact .inl h

theorem overdue_run {grace : Duration} {moves : List Move}
    (h : ((opened grace).run moves).phase = .overdue) :
    ∃ first between, moves = first ++ .look true :: between ∧
      ((opened grace).run first).phase = .waiting ∧
      ((opened grace).run first).roster.tracker.settled = false := by
  induction moves using List.reverseRecOn with
  | nil => cases h
  | append_singleton moves move ih =>
    rw [run_concat] at h
    rcases overdue_takes h (takes_step _ move) with hearlier | ⟨rfl, hwaiting, hunsettled⟩
    · obtain ⟨first, between, rfl, hfirst⟩ := ih hearlier
      refine ⟨first, between ++ [move], ?_, hfirst⟩
      rw [List.append_assoc, List.cons_append]
    · exact ⟨moves, [], rfl, hwaiting, hunsettled⟩

theorem look_waiting (hphase : x.phase = .waiting) (elapsed : Bool) :
    (x.run [.look elapsed, .survey]).phase =
      (Shutdown.verdict? x.grace x.roster elapsed).elim .waiting .decided := by
  show ((x.look elapsed).step .survey).phase = _
  unfold look Shutdown.verdict?
  rw [hphase]
  cases Shutdown.look x.roster.tracker elapsed with
  | none => simp only [step, hphase, Option.map_none, Option.elim_none]
  | some wait => cases wait <;> rfl

theorem hasEnded_look (x : Workshop) (elapsed : Bool) (n : Nat) :
    (x.look elapsed).hasEnded n = x.hasEnded n := by
  unfold look
  split <;> rfl

/-- A wait that is not over ends if the grace period is over or nobody holds a token. -/
theorem exists_verdict {grace : Duration} {moves : List Move} {elapsed : Bool}
    (hwaiting : ((opened grace).run moves).phase = .waiting)
    (h : elapsed = true ∨ ((opened grace).run moves).holders = []) :
    ∃ verdict, Shutdown.verdict? ((opened grace).run moves).grace ((opened grace).run moves).roster
      elapsed = some verdict := by
  unfold Shutdown.verdict? Shutdown.look
  by_cases hsettled : ((opened grace).run moves).roster.tracker.settled = true
  · exact ⟨_, by rw [if_pos hsettled]; rfl⟩
  · -- Somebody holds a token, so it is the grace period that is over.
    have hbusy : ((opened grace).run moves).holders ≠ [] := fun hnobody =>
      hsettled ((settled_waiting hwaiting).mpr
        ⟨moves, [], (List.append_nil _).symm, hwaiting, hnobody⟩)
    exact ⟨_, by rw [if_neg hsettled, if_pos (h.resolve_right hbusy)]; rfl⟩

end Workshop

namespace Stage

/-! ## 5. The roster of a stage -/

/-- A token is cancelled, and the tasks that wait for those it reaches are woken. -/
theorem cancel_eq (stage : Stage) (token : Nat) :
    ∃ agenda, stage.cancel token =
      { stage with cancellation := (stage.cancellation.cancel token).1, agenda } := by
  have hwakes : ∀ (reached : List Nat) (stage : Stage),
      ∃ agenda, reached.foldl (fun stage t => stage.wake (.token t)) stage =
        { stage with agenda } := by
    intro reached
    induction reached with
    | nil => exact fun _ => ⟨_, rfl⟩
    | cons t reached ih =>
      intro stage
      obtain ⟨agenda, h⟩ := ih (stage.wake (.token t))
      exact ⟨agenda, h⟩
  obtain ⟨agenda, h⟩ := hwakes (stage.cancellation.cancel token).2
    { stage with cancellation := (stage.cancellation.cancel token).1 }
  exact ⟨agenda, h⟩

theorem roster_cancel (stage : Stage) (token : Nat) :
    (stage.cancel token).roster = stage.roster := by
  obtain ⟨agenda, h⟩ := stage.cancel_eq token
  rw [h]

theorem roster_leaveRoster (stage : Stage) (entry : Nat) :
    (stage.leaveRoster entry).roster = stage.roster.leave entry := by
  unfold leaveRoster
  simp only
  split <;> rfl

/-- A rehearsal does with its roster what a workshop does.  Work is entered in one go when its task
is spawned, and taken out in one go when the task gives a value, when it panics and when it is
aborted.  The shutdown begins in one go, and looks at the tokens and at the registrations in one
go. -/
structure Follows (stage : Stage) (x : Workshop) : Prop where
  started : stage.hosted = true → ∀ (job : Workshop.Job) frame,
    (stage.spawnBackground job.name frame).1.roster =
      (x.run [.enlist job, .spawn x.jobs.length]).roster
  finished : ∀ n ∈ x.holders, x.hasEnded n = false → ∀ value below,
    (stage.giveFrame value below (.enrolled n)).1.roster =
      (x.run [.finish n .finished, .release n]).roster
  panicked : ∀ n ∈ x.holders, x.hasEnded n = false → ∀ payload below,
    (stage.unwindFrame payload below (.enrolled n)).1.roster =
      (x.run [.finish n .panicked, .release n]).roster
  aborted : ∀ n ∈ x.holders, x.hasEnded n = false →
    (stage.discard (.enrolled n)).roster = (x.run [.finish n .aborted, .release n]).roster
  stopping : x.phase = .running → ∀ below,
    (stage.beginShutdown below).1.roster =
      (x.run [.request, .cancel, .close, .await]).roster
  judged : x.phase = .waiting → stage.config.grace = x.grace → ∀ elapsed,
    Shutdown.verdict? stage.config.grace stage.roster elapsed =
      (x.run [.look elapsed, .survey]).phase.verdict?

theorem follows_of_roster {stage : Stage} {x : Workshop} (tracks : x.Tracks)
    (h : stage.roster = x.roster) : stage.Follows x := by
  have hleave : ∀ n ∈ x.holders, x.hasEnded n = false → ∀ ending,
      (stage.leaveRoster n).roster = (x.run [.finish n ending, .release n]).roster := by
    intro n hholds hrunning ending
    rw [roster_leaveRoster, h, Workshop.run_end ending hholds hrunning]
  refine ⟨?_, fun n hholds hrunning _ _ => hleave n hholds hrunning _,
    fun n hholds hrunning _ _ => hleave n hholds hrunning _,
    fun n hholds hrunning => hleave n hholds hrunning _, ?_, ?_⟩
  · intro hhosted job frame
    rw [tracks.run_start]
    unfold spawnBackground
    rw [if_pos hhosted, h]
    rfl
  · intro hphase below
    have hcancelled := roster_cancel (stage.announce Shutdown.requestedEvent) stage.root
    have hrun : (x.run [.request, .cancel, .close, .await]).roster =
        { x.roster with tracker := x.roster.tracker.close.await } := by
      simp only [Workshop.run, List.foldl_cons, List.foldl_nil, Workshop.step, hphase,
        Workshop.proceed]
    rw [hrun, ← h]
    exact congrArg (fun roster : Roster => { roster with tracker := roster.tracker.close.await })
      hcancelled
  · intro hphase hgrace elapsed
    rw [Workshop.look_waiting hphase, hgrace, h]
    cases Shutdown.verdict? x.grace x.roster elapsed <;> rfl

end Stage

/-- Whatever background work is started through a host and whenever it ends, however its steps,
those of the shutdown and those of others come: the registrations are exactly those of the work that
has not ended, and the tokens are as many as the tasks that hold one; the two are in step whenever
no work is half-way in or half-way out, as it never is between starts and ends that each come in one
go.  The shutdown tells that it begins, then cancels everything, then closes the tracker and waits,
and then tells one verdict, each once.  The wait ends if the grace period is over or nobody holds a
token.  At the moment at which it ends with the verdict that all work has stopped, whatever is
unfinished was spawned after an earlier moment of the wait, at which nobody held a token.  Otherwise
there was no such moment up to the look that found the grace period over, and the verdict has the
names of what is unfinished at the moment at which it comes about, one for each piece of work, and
sorted.  They are none only if all the work that held a token at that look has ended since, and so
never if nothing was half-way then and nothing came between.  A rehearsal goes the same way. -/
theorem shutdown_tells_what_stopped (grace : Duration) (moves : List Workshop.Move) :
    let run := (Workshop.opened grace).run
    let x := run moves
    x.roster.entries = (x.unfinished.map fun (job, n) => (n, job.name)) ∧
    x.roster.tracker.held = x.holders.length ∧
    (Workshop.opened grace).AtRest ∧
    (x.AtRest → x.roster.tracker.held = x.roster.entries.length ∧
      (∀ job, (x.run [.enlist job, .spawn x.jobs.length]).AtRest) ∧
      (∀ n ending, (x.run [.finish n ending, .release n]).AtRest) ∧
      ∀ move, move.isOfWork = false → (x.step move).AtRest) ∧
    x.log.filter (·.isOwn) = x.phase.deeds ∧
    (x.phase = .waiting → ∀ elapsed, elapsed = true ∨ x.holders = [] →
      ∃ verdict, (x.run [.look elapsed, .survey]).phase = .decided verdict) ∧
    (∀ verdict, x.phase.verdict? = some verdict → ∃ before move after,
      moves = before ++ move :: after ∧ ((run before).step move).phase = .decided verdict ∧
      ((verdict = ⟨{ kind := .allStoppedWithin }, .ok ()⟩ ∧
          ∃ early late, before = early ++ late ∧ (run early).phase = .waiting ∧
            (run early).holders = [] ∧
            ∀ job n, (job, n) ∈ (run before).unfinished → (run early).wasSpawned n = false) ∨
        ∃ first between, before = first ++ .look true :: between ∧ (run first).phase = .waiting ∧
          (∀ early late, first = early ++ late → (run early).phase = .waiting →
            (run early).holders ≠ []) ∧
          ∃ stuck, verdict =
            ⟨{ kind := .graceExceeded, reason := some (Text.separated "," stuck) },
              .error (.graceExceeded grace stuck)⟩ ∧
            stuck.Pairwise (· ≤ ·) ∧
            stuck.Perm ((run before).unfinished.map fun (job, _) => job.name) ∧
            (stuck = [] → ∀ n ∈ (run first).holders, (run before).hasEnded n = true) ∧
            ((run first).AtRest → between = [] → stuck ≠ []))) ∧
    ∀ stage : Stage, stage.roster = x.roster → stage.Follows x := by
  intro run x
  have tracks : x.Tracks := Workshop.tracks_run grace moves
  refine ⟨tracks.entries, tracks.held, Workshop.atRest_opened grace,
    fun rest => ⟨tracks.held_eq rest, Workshop.atRest_start tracks rest,
      Workshop.atRest_end tracks rest, fun move hother =>
        Workshop.atRest_takes rest hother (Workshop.takes_step x move)⟩,
    Workshop.run_keeps Workshop.deeds_takes rfl moves, ?_, ?_,
    fun stage h => Stage.follows_of_roster tracks h⟩
  · intro hwaiting elapsed hend
    obtain ⟨verdict, hverdict⟩ := Workshop.exists_verdict hwaiting hend
    exact ⟨verdict, by rw [Workshop.look_waiting hwaiting, hverdict]; rfl⟩
  · intro verdict hverdict
    obtain ⟨before, move, after, rfl, hphase, decides⟩ := Workshop.verdict_run hverdict
    refine ⟨before, move, after, rfl, hphase, ?_⟩
    cases decides with
    | inTime waiting settled hinTime =>
      obtain ⟨early, late, rfl, hwaiting, hnobody⟩ := (Workshop.settled_waiting waiting).mp settled
      refine .inl ⟨hinTime, early, late, rfl, hwaiting, hnobody, fun job n hmem => ?_⟩
      have hrun : run (early ++ late) = (run early).run late := Workshop.run_append _ _ _
      rw [hrun] at hmem
      exact Workshop.spawned_after hnobody late hmem
    | exceeded overdue hexceeded =>
      obtain ⟨first, between, rfl, hwaiting, hunsettled⟩ := Workshop.overdue_run overdue
      have hgrace : (run (first ++ .look true :: between)).grace = grace :=
        Workshop.run_keeps Workshop.grace_takes rfl _
      have hbusy := Workshop.busy_waiting hwaiting hunsettled
      have later : (run (first ++ .look true :: between)).Tracks := Workshop.tracks_run grace _
      have hperm := (run (first ++ .look true :: between)).roster.names_perm
      rw [later.names] at hperm
      -- Whoever held a token at the look has been spawned, and is left unless it has ended.
      have hgone : (run (first ++ .look true :: between)).roster.names = [] →
          ∀ n ∈ (run first).holders,
            (run (first ++ .look true :: between)).hasEnded n = true := by
        intro hnames n hholder
        apply later.hasEnded_of_names hnames
        have hrun : run (first ++ .look true :: between) =
            (run first).run (.look true :: between) := Workshop.run_append _ _ _
        rw [hrun]
        exact Workshop.run_keeps Workshop.wasSpawned_takes
          (Workshop.wasSpawned_iff.mpr (.inl hholder)) _
      refine .inr ⟨first, between, rfl, hwaiting, hbusy, _, ?_, Roster.names_sorted _, hperm, hgone,
        ?_⟩
      · rw [hexceeded, hgrace]
        rfl
      · rintro rest rfl hnames
        obtain ⟨n, hholder, hrunning⟩ :=
          rest.exists_running (hbusy first [] (List.append_nil _).symm hwaiting)
        have hended := hgone hnames n hholder
        have hlook : run (first ++ [.look true]) = (run first).look true :=
          Workshop.run_concat _ _ _
        rw [hlook, Workshop.hasEnded_look, hrunning] at hended
        cases hended

/-- Two loops of one name, a machine and its monitor, and one of the loops panics meanwhile. -/
example :
    let moves : List Workshop.Move :=
      [.enlist (.loop "b"), .spawn 0, .enlist (.loop "b"), .spawn 1, .enlist (.machine "a"),
        .spawn 2, .enlist (.monitor { key := "k", shape := .text } "a"), .spawn 3, .request,
        .cancel, .close, .await, .look false, .finish 1 .panicked, .release 1, .look true, .survey,
        .tell]
    ((Workshop.opened .zero).run moves).log =
      [.told Shutdown.requestedEvent, .cancelled, .closed,
        .told { kind := .graceExceeded, reason := some "a,a/k,b" }] := by
  cbv

/-- A monitor that is started when the last token was dropped is not waited for.  And work that has
ended but has not dropped its token yet is waited for, but is on no list. -/
theorem late_work_is_left_unfinished :
    let run := (Workshop.opened .zero).run
    let stopping : List Workshop.Move :=
      [.enlist (.machine "m"), .spawn 0, .request, .cancel, .close, .await, .finish 0 .finished]
    let late := stopping ++
      [.release 0, .enlist (.monitor { key := "k", shape := .i64 } "m"), .spawn 1]
    ((run late).unfinished.map fun (job, n) => (job.name, n)) = [("m/k", 1)] ∧
      ((run late).step (.look false)).phase = .decided ⟨{ kind := .allStoppedWithin }, .ok ()⟩ ∧
      (run (stopping ++ [.look true])).holders = [0] ∧
      ((run (stopping ++ [.look true])).step .survey).phase =
        .decided ⟨{ kind := .graceExceeded, reason := some "" },
          .error (.graceExceeded .zero [])⟩ := by
  intro run stopping late
  have hnone : (run (stopping ++ [.look true])).roster.names = [] := by
    have hentries : (run (stopping ++ [.look true])).roster.entries = [] := rfl
    rw [Roster.names, hentries, List.map_nil, List.mergeSort_nil]
  have hphase : ((run (stopping ++ [.look true])).step .survey).phase =
      .decided (Shutdown.exceeded .zero (run (stopping ++ [.look true])).roster) := rfl
  refine ⟨rfl, rfl, rfl, ?_⟩
  rw [hphase, Shutdown.exceeded, hnone]
  rfl

end Sequencer
