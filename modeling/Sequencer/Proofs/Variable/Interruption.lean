import Sequencer.Proofs.Machine.Delays
import Sequencer.Proofs.Variable.Watches

/-!
# Interruption — a wait that is cancelled

A standing subscription waits for its next sample, and the logic of a machine waits before a
transition.  Either wait may be cancelled just when what it waits for has come.  If it sees its
cancellation first it is over, and nothing comes of it; otherwise it goes on with what has come, as
if nobody had cancelled it.
-/

namespace Sequencer

namespace Intake

variable {intake : Intake} {v : Variable} {machine : String} {polled : Polled}
  {expired : Option Duration} {cancelFirst : Bool}

/-! ## 1. A subscription that looks at its stream and at its cancellation -/

theorem look_seen (herrand : intake.errand = .watch) (hstance : intake.stance = .waiting)
    (hseen : (cancelFirst || polled.isPending) = true) :
    intake.look v machine polled expired true cancelFirst = (.finished .cancelled, none) := by
  simp only [look, hstance, herrand, Variable.monitor, Bool.true_and, hseen, if_true]

/-- A cancellation that is not seen makes no difference. -/
theorem look_overlooked (hseen : (cancelFirst || polled.isPending) = false) :
    intake.look v machine polled expired true cancelFirst =
      intake.look v machine polled expired false cancelFirst := by
  simp only [look, Variable.monitor, Bool.true_and, Bool.false_and, hseen]

/-- A look that gives no sample is the last one. -/
theorem look_last (herrand : intake.errand = .watch) (hstance : intake.stance = .waiting)
    (h : (cancelFirst || polled.sample?.isNone) = true) :
    ∃ finish, intake.look v machine polled expired true cancelFirst = (.finished finish, none) ∧
      (finish = .cancelled ↔ (cancelFirst || polled.isPending) = true) := by
  cases hseen : cancelFirst || polled.isPending with
  | true => exact ⟨.cancelled, look_seen herrand hstance hseen, by simp⟩
  | false =>
    -- It does not see the cancellation, and its stream is over.
    rw [look_overlooked hseen]
    cases polled with
    | sample sample stream =>
      rw [Bool.or_eq_false_iff] at hseen
      rw [hseen.1] at h
      cases h
    | ended => exact ⟨.exhausted, look_ended herrand hstance, by simp⟩
    | pending =>
      rw [Bool.or_eq_false_iff] at hseen
      cases hseen.2
    | panicked payload => exact ⟨.panicked payload, look_panicked herrand hstance payload, by simp⟩

theorem sample_proceed (intake : Intake) (meets : String → Except Failure Unit) :
    (intake.proceed meets).2.bind Deed.sample? = none := by
  unfold proceed
  cases intake.stance <;> rfl

end Intake

namespace Supply

variable {x : Supply} {p : Nat} {name : String} {store : Nat → Variable}

/-- The sample at which the intake `p` looks, if it would not see a cancellation first. -/
def Move.overlooking? (p : Nat) : Move → Option Sample
  | look q polled _ cancelFirst => if q = p && !cancelFirst then polled.sample? else none
  | _ => none

/-! ## 2. A subscription that is cancelled -/

theorem cancelled_step (h : x.traffic.cancelled = true) (move : Move) :
    (x.step move).traffic.cancelled = true := by
  rcases traffic_change (change_step x move) with hchange | ⟨event, htold⟩
  · exact Traffic.cancelled_change hchange h
  · rw [htold, Traffic.tell]
    split <;> exact h

/-- A standing subscription that was told to end is told so for good. -/
theorem dismissed_step (herrand : (x.intakes p).errand = .watch)
    (hmade : (x.intakes p).stance ≠ .unmade) (h : (x.intakes p).dismissed = true) (move : Move) :
    ((x.step move).intakes p).dismissed = true := by
  by_cases hown : move.intake? = some p
  · cases move with
    | make q errand i fault =>
      cases hown
      have hsame : x.step (.make p errand i fault) = x := by simp only [step]
      rw [hsame]
      exact h
    | look q polled expired cancelFirst =>
      cases hown
      rw [step, intakes_act_self]
      exact h
    | proceed q =>
      cases hown
      rw [step, intakes_act_self]
      exact h
    | dismiss q =>
      cases hown
      rw [step, intakes_place]
      exact decide_eq_true herrand
    | assign i value => cases hown
    | traffic move => cases hown
  · rw [(step_of_ne hown).1]
    exact h

/-- The standing subscription `p` is to end. -/
structure Recalled (name : String) (store : Nat → Variable) (p : Nat) (x : Supply) : Prop where
  sound : x.Sound name store
  errand : (x.intakes p).errand = .watch
  cancelled : x.isCancelled p = true

theorem Recalled.made (recalled : x.Recalled name store p) : (x.intakes p).stance ≠ .unmade := by
  intro hunmade
  cases recalled.errand.symm.trans ((recalled.sound.follows p).fresh hunmade).2

theorem Recalled.step (recalled : x.Recalled name store p) (move : Move) :
    (x.step move).Recalled name store p where
  sound := sound_change recalled.sound (change_step x move)
  errand := (errand_change (change_step x move) recalled.made).1.trans recalled.errand
  cancelled := by
    rcases Bool.or_eq_true_iff.mp recalled.cancelled with hcancelled | hdismissed
    · exact Bool.or_eq_true_iff.mpr (.inl (cancelled_step hcancelled move))
    · exact Bool.or_eq_true_iff.mpr
        (.inr (dismissed_step recalled.errand recalled.made hdismissed move))

theorem Recalled.run (recalled : x.Recalled name store p) (moves : List Move) :
    (x.run moves).Recalled name store p ∧
      ((x.run moves).intakes p).target = (x.intakes p).target := by
  refine List.foldlRecOn (motive := fun y => Recalled name store p y ∧
    (y.intakes p).target = (x.intakes p).target) moves Supply.step ⟨recalled, rfl⟩ ?_
  rintro y ⟨hstill, htarget⟩ move -
  exact ⟨hstill.step move, (errand_change (change_step y move) hstill.made).2.trans htarget⟩

/-- What it did beyond its wait at `x` are the courses of the samples that it took there. -/
theorem Recalled.course_of_taken (recalled : x.Recalled name store p)
    (hstance : (x.intakes p).stance = .waiting) (moves : List Move) {further : List Sample}
    (htaken : (x.run moves).taken p = x.taken p ++ further) :
    (x.run moves).trail p ++ Intake.left ((x.run moves).intakes p).stance =
      x.trail p ++ further.flatMap (Intake.course .watch name (store (x.intakes p).target)) := by
  obtain ⟨later, htarget⟩ := recalled.run moves
  have hhere := (recalled.sound.follows p).course
  have hthere := (later.sound.follows p).course
  rw [recalled.errand, hstance] at hhere
  rw [later.errand, htarget, htaken, List.flatMap_append, ← hhere] at hthere
  have hidle : Intake.left .waiting = [] := rfl
  rw [hthere, hidle, List.append_nil]

theorem step_waiting {move : Move} (hstance : (x.intakes p).stance = .waiting)
    (hlook : ∀ polled expired cancelFirst, move ≠ .look p polled expired cancelFirst) :
    ((x.step move).intakes p).stance = .waiting ∧ (x.step move).trail p = x.trail p := by
  by_cases hproceed : move = .proceed p
  · subst hproceed
    have hnothing : (x.intakes p).proceed x.meets = (.waiting, none) := by
      rw [Intake.proceed, hstance]
    rw [Supply.step, hnothing]
    exact ⟨stance_act .., (trail_act_self ..).trans (List.append_nil _)⟩
  · have hmade : (x.intakes p).stance ≠ .unmade := by simp [hstance]
    have hstill := step_still hmade hlook hproceed
    exact ⟨hstill.1.trans hstance, hstill.2⟩

theorem run_waiting {moves : List Move} (hstance : (x.intakes p).stance = .waiting)
    (hlook : ∀ polled expired cancelFirst, .look p polled expired cancelFirst ∉ moves) :
    ((x.run moves).intakes p).stance = .waiting ∧ (x.run moves).trail p = x.trail p := by
  refine List.foldlRecOn (motive := fun y => (y.intakes p).stance = .waiting ∧
    trail y p = x.trail p) moves Supply.step ⟨hstance, rfl⟩ ?_
  rintro y ⟨hwaits, htrail⟩ move hmem
  have hother : ∀ polled expired cancelFirst, move ≠ .look p polled expired cancelFirst :=
    fun polled expired cancelFirst h => hlook polled expired cancelFirst (h ▸ hmem)
  obtain ⟨hstill, hsame⟩ := step_waiting hwaits hother
  exact ⟨hstill, hsame.trans htrail⟩

theorem run_finished {finish : Finish} (h : (x.intakes p).stance = .finished finish)
    (moves : List Move) :
    ((x.run moves).intakes p).stance = .finished finish ∧ (x.run moves).trail p = x.trail p := by
  refine List.foldlRecOn (motive := fun y => (y.intakes p).stance = .finished finish ∧
    trail y p = x.trail p) moves Supply.step ⟨h, rfl⟩ ?_
  rintro y ⟨hover, htrail⟩ move -
  obtain ⟨hstill, hsame⟩ := step_finished hover move
  exact ⟨hstill, hsame.trans htrail⟩

/-- A look that sees the cancellation first, or no sample, ends it and does nothing else. -/
theorem Recalled.look_last (recalled : x.Recalled name store p)
    (hstance : (x.intakes p).stance = .waiting) {polled : Polled} {cancelFirst : Bool}
    (h : (cancelFirst || polled.sample?.isNone) = true) (expired : Option Duration) :
    ∃ finish, x.step (.look p polled expired cancelFirst) = x.act p (.finished finish, none) ∧
      (finish = .cancelled ↔ (cancelFirst || polled.isPending) = true) := by
  obtain ⟨finish, hlook, hfinish⟩ := Intake.look_last recalled.errand hstance h
  exact ⟨finish, by rw [Supply.step, recalled.cancelled, hlook], hfinish⟩

/-- Any other look takes the sample, as if nobody had cancelled it. -/
theorem Recalled.look_sample (recalled : x.Recalled name store p)
    (hstance : (x.intakes p).stance = .waiting) (sample : Sample) (stream : Stream)
    (expired : Option Duration) :
    ∃ stance, x.step (.look p (.sample sample stream) expired false) =
      x.act p (stance, some (.took sample)) := by
  obtain ⟨stance, hlook, -⟩ := Intake.look_sample recalled.errand hstance sample stream
  exact ⟨stance, by rw [Supply.step, recalled.cancelled, Intake.look_overlooked rfl, hlook]⟩

theorem taken_act (x : Supply) (p : Nat) (turn : Stance × Option Intake.Deed) :
    (x.act p turn).taken p = x.taken p ++ (turn.2.bind Intake.Deed.sample?).toList := by
  rw [taken, trail_act_self, List.filterMap_append]
  cases turn.2 with
  | none => rfl
  | some deed => cases deed <;> rfl

theorem Recalled.taken_step (recalled : x.Recalled name store p) (move : Move) :
    ∃ further, (x.step move).taken p = x.taken p ++ further ∧
      further.Sublist (Move.overlooking? p move).toList := by
  have hnone : (x.step move).taken p = x.taken p → ∃ further,
      (x.step move).taken p = x.taken p ++ further ∧
        further.Sublist (Move.overlooking? p move).toList := fun h =>
    ⟨[], h.trans (List.append_nil _).symm, List.nil_sublist _⟩
  by_cases hlook : ∃ polled expired cancelFirst, move = .look p polled expired cancelFirst
  · obtain ⟨polled, expired, cancelFirst, rfl⟩ := hlook
    by_cases hstance : (x.intakes p).stance = .waiting
    · -- It takes a sample only if it does not see its cancellation first.
      cases hlast : cancelFirst || polled.sample?.isNone with
      | true =>
        obtain ⟨finish, hstep, -⟩ := recalled.look_last hstance hlast expired
        apply hnone
        rw [hstep, taken_act]
        exact List.append_nil _
      | false =>
        obtain ⟨rfl, hsome⟩ := Bool.or_eq_false_iff.mp hlast
        cases polled with
        | sample sample stream =>
          obtain ⟨stance, hstep⟩ := recalled.look_sample hstance sample stream expired
          refine ⟨[sample], by rw [hstep, taken_act]; rfl, ?_⟩
          simp [Move.overlooking?, Polled.sample?]
        | _ => cases hsome
    · apply hnone
      rw [Supply.step, taken_act, Intake.look_busy hstance]
      exact List.append_nil _
  · by_cases hproceed : move = .proceed p
    · subst hproceed
      apply hnone
      rw [Supply.step, taken_act, Intake.sample_proceed]
      exact List.append_nil _
    · apply hnone
      rw [taken, (step_still recalled.made
        (fun polled expired cancelFirst h => hlook ⟨polled, expired, cancelFirst, h⟩) hproceed).2]
      rfl

theorem Recalled.taken_run (recalled : x.Recalled name store p) (moves : List Move) :
    ∃ further, (x.run moves).taken p = x.taken p ++ further ∧
      further.Sublist (moves.filterMap (Move.overlooking? p)) := by
  -- By induction on the moves, from the first one on, as it is to end at every point of the run.
  induction moves generalizing x with
  | nil => exact ⟨[], (List.append_nil _).symm, List.nil_sublist _⟩
  | cons move moves ih =>
    obtain ⟨first, hfirst, hhere⟩ := recalled.taken_step move
    obtain ⟨rest, hrest, hthere⟩ := ih (recalled.step move)
    refine ⟨first ++ rest, ?_, ?_⟩
    · rw [← List.append_assoc, ← hfirst]
      exact hrest
    · have hsplit : (move :: moves).filterMap (Move.overlooking? p) =
          (Move.overlooking? p move).toList ++ moves.filterMap (Move.overlooking? p) := by
        rw [List.filterMap_cons]
        cases Move.overlooking? p move <;> rfl
      rw [hsplit]
      exact hhere.append hthere

/-- What becomes of the standing subscription `p`, for the variable that began as `v`, if it waits
for a sample and is cancelled. -/
structure Ceases (name : String) (v : Variable) (p : Nat) (x : Supply) : Prop where
  /-- It waits until it looks at its stream, whatever happens around it. -/
  waits : ∀ during, (∀ polled expired cancelFirst, .look p polled expired cancelFirst ∉ during) →
    ((x.run during).intakes p).stance = .waiting ∧ (x.run during).isCancelled p = true ∧
      (x.run during).trail p = x.trail p
  /-- It is over by a look that sees the cancellation first or that sees no sample, and does nothing
  by this look or after it. -/
  ends : ∀ polled expired cancelFirst, (cancelFirst || polled.sample?.isNone) = true →
    let z := x.step (.look p polled expired cancelFirst)
    z.traffic = x.traffic ∧ z.store = x.store ∧ z.chronicle = x.chronicle ∧
      ∃ finish, (finish = .cancelled ↔ (cancelFirst || polled.isPending) = true) ∧
        ∀ later, ((z.run later).intakes p).stance = .finished finish ∧
          (z.run later).trail p = x.trail p
  /-- Any other look takes the sample, with all that comes of it. -/
  overlooks : ∀ sample stream expired,
    let z := x.step (.look p (.sample sample stream) expired false)
    z.trail p = x.trail p ++ [.took sample] ∧
      z.trail p ++ Intake.left (z.intakes p).stance =
        x.trail p ++ Intake.course .watch name v sample
  /-- Whatever comes later, it does nothing but the courses of samples at which it looked without
  seeing its cancellation first. -/
  further : ∀ later, ∃ samples : List Sample,
    samples.Sublist (later.filterMap (Move.overlooking? p)) ∧
    (x.run later).trail p ++ Intake.left ((x.run later).intakes p).stance =
      x.trail p ++ samples.flatMap (Intake.course .watch name v)

theorem ceases_run (config : Config) (name initial : String) (hosted : Bool)
    (store : Nat → Variable) (moves : List Move) (p : Nat) :
    let x := (start config name initial hosted store).run moves
    (x.intakes p).errand = .watch → (x.intakes p).stance = .waiting → x.isCancelled p = true →
      x.Ceases name (store (x.intakes p).target) p := by
  intro x herrand hstance hcancelled
  have sound : x.Sound name store := sound_run config name initial hosted store moves
  have recalled : x.Recalled name store p := ⟨sound, herrand, hcancelled⟩
  constructor
  case waits =>
    intro during hlook
    obtain ⟨hwaits, htrail⟩ := run_waiting hstance hlook
    exact ⟨hwaits, (recalled.run during).1.cancelled, htrail⟩
  case ends =>
    intro polled expired cancelFirst hlast z
    obtain ⟨finish, hstep, hfinish⟩ := recalled.look_last hstance hlast expired
    have hplaced : z = x.act p (.finished finish, none) := hstep
    have hover : (z.intakes p).stance = .finished finish := by rw [hplaced, stance_act]
    have htrail : z.trail p = x.trail p := by rw [hplaced]; rfl
    refine ⟨by rw [hplaced]; rfl, by rw [hplaced]; rfl, by rw [hplaced]; rfl, finish, hfinish,
      fun later => ?_⟩
    obtain ⟨hstill, hsame⟩ := run_finished hover later
    exact ⟨hstill, hsame.trans htrail⟩
  case overlooks =>
    intro sample stream expired z
    obtain ⟨stance, hstep⟩ := recalled.look_sample hstance sample stream expired
    have hplaced : z = x.act p (stance, some (.took sample)) := hstep
    have htaken : z.taken p = x.taken p ++ [sample] := by rw [hplaced, taken_act]; rfl
    have hcourse := recalled.course_of_taken hstance
      [.look p (.sample sample stream) expired false] htaken
    rw [List.flatMap_singleton] at hcourse
    exact ⟨by rw [hplaced, trail_act_self]; rfl, hcourse⟩
  case further =>
    intro later
    obtain ⟨samples, htaken, hsublist⟩ := recalled.taken_run later
    exact ⟨samples, hsublist, recalled.course_of_taken hstance later htaken⟩

end Supply

/-- Whatever is asked of a machine, and whatever is fetched, monitored and assigned beside it: a
standing subscription that is cancelled while it waits, by itself or with its machine, ends by its
next look unless this look gives a sample and does not see the cancellation first; then it handles
the sample as if nobody had cancelled it.  A delay of the logic that waits when the machine is
cancelled is over by its next look, and no transition opens and no state is queued for it, unless
its time is over and is seen first. -/
theorem cancelled_wait_ends_if_seen_first (config : Config) (name initial : String)
    (hosted : Bool) :
    (∀ store moves p,
      let x := (Supply.start config name initial hosted store).run moves
      (x.intakes p).errand = .watch → (x.intakes p).stance = .waiting → x.isCancelled p = true →
        x.Ceases name (store (x.intakes p).target) p) ∧
    ∀ moves,
      let x := (Enactment.start config name initial hosted).run moves
      x.delayed = true → x.traffic.cancelled = true → x.Interrupts :=
  ⟨fun store moves p => Supply.ceases_run config name initial hosted store moves p,
    fun moves => Enactment.interrupts_run config name initial hosted moves⟩

/-- A subscription that is dismissed just when a sample comes, and a machine that is stopped just
when its delay is over, with either outcome. -/
theorem cancelled_wait_ends_if_seen_first_both :
    let x := (Supply.start {} "m" "A" true fun _ => { key := "k", shape := .bool }).run
      [.make 0 .watch 3 none, .dismiss 0]
    let y := (Enactment.start {} "m" "A" true).run
      [.traffic (.notify (.trigger "go")), .traffic (.turn false), .delay, .traffic .cancel]
    (∀ sample stream later,
      (((x.step (.look 0 (.sample sample stream) none true)).run later).trail 0 = [] ∧
        (x.step (.look 0 (.sample sample stream) none false)).trail 0 = [.took sample])) ∧
    (y.step (.resume true true)).opened = 0 ∧ (y.step (.resume true false)).opened = 1 := by
  intro x y
  obtain ⟨hwatches, hdelays⟩ := cancelled_wait_ends_if_seen_first {} "m" "A" true
  have ceases := hwatches (fun _ => { key := "k", shape := .bool })
    [.make 0 .watch 3 none, .dismiss 0] 0 rfl rfl rfl
  have interrupts := hdelays
    [.traffic (.notify (.trigger "go")), .traffic (.turn false), .delay, .traffic .cancel] rfl rfl
  refine ⟨fun sample stream later => ⟨?_, ?_⟩, ?_, ?_⟩
  · obtain ⟨-, -, -, finish, -, hover⟩ := ceases.ends (.sample sample stream) none true rfl
    exact (hover later).2
  · exact (ceases.overlooks sample stream none).1
  · rw [interrupts.resumes]
    rfl
  · rw [interrupts.resumes]
    rfl

end Sequencer
