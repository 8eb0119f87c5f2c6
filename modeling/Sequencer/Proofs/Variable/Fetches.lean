import Sequencer.Proofs.Machine.Likeness
import Sequencer.Proofs.Machine.Updates
import Sequencer.Proofs.Variable.Courses

/-!
# Fetches — what a fetch leaves behind that comes back with a failure

A fetch that fails before it has a value leaves everything as if it had never been made.  One that
has a value has stored and told it when it meets a machine that takes no requests any more: it fails
then, and what it stored stays.
-/

namespace Sequencer

namespace Supply

variable {x x' y : Supply} {p : Nat} {name : String} {store : Nat → Variable} {v : Variable}
  {stance : Stance} {deed : Option Intake.Deed}

/-! ## 1. A single sample -/

/-- A fetch for the variable that began as `v` takes one sample at most, and fails before it, with
it, or after all that it does with a value. -/
structure Single (name : String) (v : Variable) (p : Nat) (x : Supply) : Prop where
  waits : (x.intakes p).stance = .waiting → x.trail p = []
  reads : ∀ event, (x.intakes p).stance ≠ .rejecting event
  once : (x.taken p).length ≤ 1
  failed : ∀ failure, (x.intakes p).stance = .finished (.failed failure) →
    x.trail p = [] ∨
    (∃ sample, x.trail p = [.took sample] ∧ sample.decode v.shape = .error failure) ∨
    (failure = .machineStopped name ∧ x.traffic.actor.mailbox.closed = true ∧
      ∃ sample value, sample.decode v.shape = .ok value ∧ x.trail p =
        [.took sample, .wrote (v.assign value), .told (v.updatedEvent name), .asked v.key])

theorem Single.keep (single : x.Single name v p)
    (hstance : (x'.intakes p).stance = (x.intakes p).stance) (htrail : x'.trail p = x.trail p)
    (hclosed : x.traffic.actor.mailbox.closed = true →
      x'.traffic.actor.mailbox.closed = true) : x'.Single name v p where
  waits := by rw [hstance, htrail]; exact single.waits
  reads := by rw [hstance]; exact single.reads
  once := by rw [taken, htrail]; exact single.once
  failed failure h := by
    rw [htrail]
    rcases single.failed failure (hstance ▸ h) with hnothing | hunread | ⟨hrefused, hshut, htook⟩
    · exact .inl hnothing
    · exact .inr (.inl hunread)
    · exact .inr (.inr ⟨hrefused, hclosed hshut, htook⟩)

theorem closed_change {slots : Nat} (seats : x.traffic.Seats slots) (hchange : x.Change x')
    (h : x.traffic.actor.mailbox.closed = true) : x'.traffic.actor.mailbox.closed = true := by
  have seats' := seats_change seats hchange
  rw [seats'.closed]
  rw [seats.closed] at h
  rcases traffic_change hchange with hchange | ⟨event, htold⟩
  · exact Traffic.ended_change hchange h
  · rw [htold, Traffic.tell]
    split <;> exact h

theorem notify_closed {t : Traffic} (h : t.actor.mailbox.closed = true) (source : String) :
    t.notify source = (t, .error t.actor.core.stopped) := by
  simp only [Traffic.notify, Actor.notify, Mailbox.post, h, if_true, Traffic.conduct_nothing]

/-- A request that meets a failure meets a closed mailbox, and changes nothing. -/
theorem meets_error {source : String} {failure : Failure} (h : x.meets source = .error failure) :
    failure = .machineStopped x.traffic.actor.core.name ∧
      x.traffic.actor.mailbox.closed = true ∧ (x.traffic.notify source).1 = x.traffic := by
  unfold meets at h
  cases hclosed : x.traffic.actor.mailbox.closed with
  | true =>
    rw [notify_closed hclosed] at h ⊢
    cases h
    exact ⟨rfl, rfl, rfl⟩
  | false =>
    unfold Traffic.notify Actor.notify Mailbox.post at h
    cases hroom : x.traffic.actor.mailbox.hasRoom <;> simp [hclosed, hroom] at h

/-- A fetch that is about to ask for a refresh has done everything else with its one sample. -/
theorem Follows.told_once (follows : x.Follows name store p)
    (herrand : (x.intakes p).errand = .fetch) (hstance : (x.intakes p).stance = .told v)
    (honce : (x.taken p).length ≤ 1) :
    ∃ sample value, sample.decode (store (x.intakes p).target).shape = .ok value ∧
      x.trail p ++ [.asked v.key] = [.took sample,
        .wrote ((store (x.intakes p).target).assign value),
        .told ((store (x.intakes p).target).updatedEvent name),
        .asked (store (x.intakes p).target).key] := by
  have hcourse := follows.course
  rw [hstance, herrand] at hcourse
  match htaken : x.taken p with
  | [] => simp [htaken, Intake.left] at hcourse
  | [sample] =>
    rw [htaken, List.flatMap_singleton, Intake.course] at hcourse
    cases hdecode : sample.decode (store (x.intakes p).target).shape with
    | ok value =>
      rw [hdecode] at hcourse
      exact ⟨sample, value, hdecode, hcourse⟩
    | error failure =>
      -- Its trail would end with the sample.
      rw [hdecode] at hcourse
      have hends := congrArg List.getLast? hcourse
      simp [Intake.left] at hends
  | sample :: next :: rest =>
    rw [htaken] at honce
    simp at honce

theorem single_act (sound : x.Sound name store) (herrand : (x.intakes p).errand = .fetch)
    (single : x.Single name (store (x.intakes p).target) p)
    (hturn : (x.intakes p).Turn (x.store (x.intakes p).target) x.traffic.actor.core.name x.meets
      stance deed) : (x.act p (stance, deed)).Single name (store (x.intakes p).target) p := by
  have hstands : ((x.act p (stance, deed)).intakes p).stance = stance := stance_act ..
  have htrail : (x.act p (stance, deed)).trail p = x.trail p ++ deed.toList := trail_act_self ..
  have htaken : (x.act p (stance, deed)).taken p =
      x.taken p ++ deed.toList.filterMap Intake.Deed.sample? := by
    rw [taken, htrail, List.filterMap_append, taken]
  have hshape := (sound.replayed.akin (x.intakes p).target).shape
  cases hturn with
  | rest stance hstance =>
    exact single.keep (hstands.trans hstance.symm) (htrail.trans (List.append_nil _)) id
  | close finish hstance hfinish =>
    have hnothing := single.waits hstance
    have hstill : (x.act p (.finished finish, none)).trail p = [] := hnothing
    exact ⟨fun _ => hstill, by simp, single.once,
      fun _ _ => .inl hstill⟩
  | read sample value hstance hvalue =>
    have hnothing := single.waits hstance
    refine ⟨?_, by simp, ?_, ?_⟩
    · simp
    · rw [htaken, taken, hnothing]
      exact Nat.le_refl 1
    · rw [hstands]
      exact fun _ h => by cases h
  | reject sample failure hstance hwatch hfailure => cases herrand.symm.trans hwatch
  | spoil sample failure hstance hfetch hfailure =>
    have hnothing := single.waits hstance
    refine ⟨?_, by simp, ?_, ?_⟩
    · simp
    · rw [htaken, taken, hnothing]
      exact Nat.le_refl 1
    · rw [hstands, htrail, hnothing]
      intro other h
      cases h
      exact .inr (.inl ⟨sample, rfl, hshape ▸ hfailure⟩)
  | write w event hstance =>
    refine ⟨?_, by simp, ?_, ?_⟩
    · simp
    · rw [htaken]
      exact (congrArg List.length (List.append_nil _)).trans_le single.once
    · rw [hstands]
      exact fun _ h => by cases h
  | tell w event hstance =>
    refine ⟨?_, by simp, ?_, ?_⟩
    · simp
    · rw [htaken]
      exact (congrArg List.length (List.append_nil _)).trans_le single.once
    · rw [hstands]
      exact fun _ h => by cases h
  | skip event hstance => exact absurd hstance (single.reads event)
  | ask w hstance =>
    -- A fetch is over once it has asked, with a failure only if the mailbox is closed.
    have hover : ∃ finish,
        Intake.asking (x.intakes p).errand w (x.meets w.key) = .finished finish := by
      rw [herrand]
      cases x.meets w.key with
      | ok done => exact ⟨_, rfl⟩
      | error failure => exact ⟨_, rfl⟩
    obtain ⟨finish, hfinish⟩ := hover
    refine ⟨?_, by simp [hfinish], ?_, ?_⟩
    · simp [hfinish]
    · rw [htaken]
      exact (congrArg List.length (List.append_nil _)).trans_le single.once
    · rw [hstands, herrand]
      intro failure h
      cases hmeets : x.meets w.key with
      | ok done =>
        rw [hmeets] at h
        cases h
      | error other =>
        rw [hmeets] at h
        cases h
        obtain ⟨hrefused, hclosed, hsame⟩ := meets_error hmeets
        obtain ⟨sample, value, hvalue, hdone⟩ :=
          (sound.follows p).told_once herrand hstance single.once
        refine .inr (.inr ⟨sound.called ▸ hrefused, ?_, sample, value, hvalue, ?_⟩)
        · rw [traffic_act]
          exact (congrArg (·.actor.mailbox.closed) hsame).trans hclosed
        · exact htrail.trans hdone

theorem single_of_nothing (hnothing : x.trail p = [])
    (hreads : ∀ event, (x.intakes p).stance ≠ .rejecting event) : x.Single name v p where
  waits _ := hnothing
  reads := hreads
  once := by rw [taken, hnothing]; exact Nat.zero_le 1
  failed _ _ := .inl hnothing

theorem single_change {slots : Nat} (seats : x.traffic.Seats slots) (sound : x.Sound name store)
    (single : (x.intakes p).errand = .fetch → x.Single name (store (x.intakes p).target) p)
    (hchange : x.Change x') (herrand : (x'.intakes p).errand = .fetch) :
    x'.Single name (store (x'.intakes p).target) p := by
  have hclosed := closed_change seats hchange
  have hkeep : ∀ dismissed, x'.intakes p = { x.intakes p with dismissed } →
      x'.trail p = x.trail p → x'.Single name (store (x'.intakes p).target) p := by
    intro dismissed hintake htrail
    rw [hintake] at herrand ⊢
    exact (single herrand).keep (by rw [hintake]) htrail hclosed
  cases hchange with
  | make q errand i fault hunmade =>
    by_cases hq : p = q
    · subst hq
      apply single_of_nothing ((trail_place ..).trans ((sound.follows p).fresh hunmade).1)
      intro event
      rw [intakes_place]
      rcases Intake.opening_eq fault with hopened | ⟨finish, hopened⟩ <;> rw [hopened] <;> nofun
    · exact hkeep _ (Function.update_of_ne hq ..) rfl
  | act q stance deed hturn =>
    by_cases hq : p = q
    · subst hq
      rw [intakes_act, Function.update_self] at herrand ⊢
      exact single_act sound herrand (single herrand) hturn
    · refine hkeep (x.intakes p).dismissed ?_ ?_
      · rw [intakes_act, Function.update_of_ne hq]
      · rw [trail_act, if_neg (Ne.symm hq), List.append_nil]
  | dismiss q dismissed =>
    by_cases hq : p = q
    · subst hq
      exact hkeep _ (intakes_place ..) rfl
    · exact hkeep _ (Function.update_of_ne hq ..) rfl
  | assign i value =>
    exact hkeep (x.intakes p).dismissed rfl (trail_note_assigned ..)
  | _ => exact hkeep (x.intakes p).dismissed rfl rfl

theorem single_run (config : Config) (name initial : String) (hosted : Bool)
    (store : Nat → Variable) (moves : List Move) (p : Nat) :
    let x := (start config name initial hosted store).run moves
    (x.intakes p).errand = .fetch → x.Single name (store (x.intakes p).target) p := by
  have hunmade : ((start config name initial hosted store).intakes p).stance = .unmade := rfl
  have hrun := run_induction (x := start config name initial hosted store)
    (P := fun x => (x.Sound name store ∧ x.traffic.Seats config.mailboxSlots) ∧
      ((x.intakes p).errand = .fetch → x.Single name (store (x.intakes p).target) p))
    (fun x x' h hchange => ⟨⟨sound_change h.1.1 hchange, seats_change h.1.2 hchange⟩,
      single_change h.1.2 h.1.1 h.2 hchange⟩)
    ⟨⟨sound_start config name initial hosted store,
      Traffic.seats_start config name initial hosted⟩,
      fun _ => single_of_nothing rfl fun _ => by rw [hunmade]; nofun⟩ moves
  exact hrun.2

/-! ## 2. With the fetch and without it -/

/-- The steps of everybody but the intake `p`. -/
def without (p : Nat) (moves : List Move) : List Move :=
  moves.filter fun move => move.intake? ≠ some p

/-- `x` came about with the intake `p`, and `y` without it: the machine goes on alike, and as long
as the intake has done nothing but take samples, it goes on the same. -/
structure Beside (p : Nat) (x y : Supply) : Prop where
  intakes : ∀ q, q ≠ p → x.intakes q = y.intakes q
  akin : ∀ i, (x.store i).Akin (y.store i)
  alike : x.traffic.Alike y.traffic
  dispatches : x.traffic.dispatches = y.traffic.dispatches
  same : (∀ deed ∈ x.trail p, ∃ sample, deed = .took sample) →
    x.store = y.store ∧ x.traffic = y.traffic

variable {q : Nat}

theorem beside_refl (p : Nat) (x : Supply) : x.Beside p x where
  intakes _ _ := rfl
  akin _ := .refl _
  alike := .refl _
  dispatches := rfl
  same _ := ⟨rfl, rfl⟩

theorem aside_tell (t : Traffic) (event : Event) : t.Aside (t.tell event) := by
  unfold Traffic.tell
  split
  · exact Traffic.aside_record rfl
  · exact ⟨rfl, rfl, fun _ => rfl, rfl⟩

theorem Beside.act (beside : x.Beside p y) (hq : q ≠ p) (stance : Stance)
    (deed : Option Intake.Deed) : (x.act q (stance, deed)).Beside p (y.act q (stance, deed)) where
  intakes r hr := by
    rw [intakes_act, intakes_act, beside.intakes q hq]
    by_cases h : r = q
    · rw [h, Function.update_self, Function.update_self]
    · rw [Function.update_of_ne h, Function.update_of_ne h, beside.intakes r hr]
  akin i := by
    rw [store_act, store_act, beside.intakes q hq]
    cases deed.bind Intake.Deed.written? with
    | none => exact beside.akin i
    | some v => exact Variable.akin_update beside.akin _ (.refl v) i
  alike := by
    rw [traffic_act, traffic_act]
    match deed with
    | none => exact beside.alike
    | some (.took sample) => exact beside.alike
    | some (.wrote v) => exact beside.alike
    | some (.told event) => exact (aside_tell _ event).alike beside.alike (aside_tell _ event)
    | some (.asked source) => exact (beside.alike.notify source).alike
  dispatches := by
    rw [traffic_act, traffic_act]
    match deed with
    | none => exact beside.dispatches
    | some (.took sample) => exact beside.dispatches
    | some (.wrote v) => exact beside.dispatches
    | some (.told event) =>
      exact (aside_tell _ event).dispatches.trans
        (beside.dispatches.trans (aside_tell _ event).dispatches.symm)
    | some (.asked source) =>
      obtain ⟨started, hstarted, hstarted'⟩ := (beside.alike.notify source).dispatches
      rw [hstarted, hstarted', beside.dispatches]
  same hquiet := by
    rw [trail_act, if_neg hq, List.append_nil] at hquiet
    obtain ⟨hstore, htraffic⟩ := beside.same hquiet
    rw [store_act, store_act, traffic_act, traffic_act, beside.intakes q hq, hstore, htraffic]
    exact ⟨rfl, rfl⟩

theorem Beside.place (beside : x.Beside p y) (q : Nat) (intake : Intake) :
    (x.place q intake).Beside p (y.place q intake) :=
  { beside with
    intakes := fun r hr => by
      by_cases h : r = q
      · rw [h, intakes_place, intakes_place]
      · rw [intakes_place_of_ne h, intakes_place_of_ne h, beside.intakes r hr] }

theorem Beside.meets (beside : x.Beside p y) : x.meets = y.meets := by
  funext source
  show (x.traffic.actor.notify source).2.2 = (y.traffic.actor.notify source).2.2
  rw [(beside.alike.actor.notify source).2]

/-- A step of somebody else is the same step with the intake and without it. -/
theorem Beside.other (beside : x.Beside p y) {move : Move} (h : move.intake? ≠ some p) :
    (x.step move).Beside p (y.step move) := by
  have hname : x.traffic.actor.core.name = y.traffic.actor.core.name := beside.alike.actor.core.name
  cases move with
  | make q errand i fault =>
    have hq : q ≠ p := fun hq => h (congrArg some hq)
    simp only [step, beside.intakes q hq]
    split
    · exact beside.place q _
    · exact beside
  | look q polled expired cancelFirst =>
    have hq : q ≠ p := fun hq => h (congrArg some hq)
    have hlook := Intake.look_akin (y.intakes q) (beside.akin (y.intakes q).target)
      y.traffic.actor.core.name polled expired (y.isCancelled q) cancelFirst
    have hcancelled : x.isCancelled q = y.isCancelled q := by
      rw [isCancelled, isCancelled, beside.intakes q hq, beside.alike.cancelled]
    rw [step, step, hcancelled, hname, beside.intakes q hq, hlook]
    exact beside.act hq _ _
  | proceed q =>
    have hq : q ≠ p := fun hq => h (congrArg some hq)
    rw [step, step, beside.intakes q hq, beside.meets]
    exact beside.act hq _ _
  | dismiss q =>
    have hq : q ≠ p := fun hq => h (congrArg some hq)
    rw [step, step, beside.intakes q hq]
    exact beside.place q _
  | assign i value =>
    have hvalue : (x.store i).assign value = (y.store i).assign value :=
      (beside.akin i).assign value
    refine { beside with akin := fun j => ?_, same := fun hquiet => ?_ }
    · simp only [step, note, hvalue]
      exact Variable.akin_update beside.akin i (.refl _) j
    · rw [step, trail_note_assigned] at hquiet
      obtain ⟨hstore, htraffic⟩ := beside.same hquiet
      simp only [step, note, hstore]
      exact ⟨trivial, htraffic⟩
  | traffic move =>
    have habreast := beside.alike.step move
    refine { beside with alike := habreast.alike, dispatches := ?_, same := fun hquiet => ?_ }
    · obtain ⟨started, hstarted, hstarted'⟩ := habreast.dispatches
      exact hstarted.trans (beside.dispatches ▸ hstarted'.symm)
    · obtain ⟨hstore, htraffic⟩ := beside.same hquiet
      exact ⟨hstore, congrArg (Traffic.step · move) htraffic⟩

/-- What the intake itself does leaves the machine alike, unless its request enters the mailbox. -/
theorem Beside.own (beside : x.Beside p y) (sound : x.Sound name store)
    (hturn : (x.intakes p).Turn (x.store (x.intakes p).target) x.traffic.actor.core.name x.meets
      stance deed)
    (hrefused : ∀ source, deed = some (.asked source) → (x.traffic.notify source).1 = x.traffic) :
    (x.act p (stance, deed)).Beside p y := by
  have hstore := store_act x p stance deed
  have htraffic := traffic_act x p stance deed
  have htrail := trail_act x p p stance deed
  rw [if_pos rfl] at htrail
  have hakin : ∀ i, ((x.act p (stance, deed)).store i).Akin (y.store i) := by
    intro i
    rw [hstore]
    cases hwritten : deed.bind Intake.Deed.written? with
    | none => exact beside.akin i
    | some w =>
      -- What it writes differs from the variable by its value at most.
      have hheld : w.Akin (store (x.intakes p).target) := by
        cases hturn with
        | write u event hstance =>
          cases hwritten
          obtain ⟨value, hvalue⟩ := (sound.follows p).held _ event hstance
          exact hvalue ▸ Variable.akin_assign _ value
        | _ => cases hwritten
      have hsame := (sound.replayed.akin (x.intakes p).target).symm.trans (beside.akin _)
      have hupdated := Variable.akin_update beside.akin (x.intakes p).target (hheld.trans hsame) i
      rw [Function.update_eq_self] at hupdated
      exact hupdated
  have halike : (x.act p (stance, deed)).traffic.Alike y.traffic ∧
      (x.act p (stance, deed)).traffic.dispatches = y.traffic.dispatches := by
    rw [htraffic]
    match deed with
    | none => exact ⟨beside.alike, beside.dispatches⟩
    | some (.took sample) => exact ⟨beside.alike, beside.dispatches⟩
    | some (.wrote w) => exact ⟨beside.alike, beside.dispatches⟩
    | some (.told event) =>
      have haside := aside_tell x.traffic event
      exact ⟨haside.alike beside.alike ⟨rfl, rfl, fun _ => rfl, rfl⟩,
        haside.dispatches.trans beside.dispatches⟩
    | some (.asked source) =>
      dsimp only
      rw [hrefused source rfl]
      exact ⟨beside.alike, beside.dispatches⟩
  refine ⟨fun q hq => ?_, hakin, halike.1, halike.2, fun hquiet => ?_⟩
  · rw [intakes_act, Function.update_of_ne hq]
    exact beside.intakes q hq
  · rw [htrail] at hquiet
    have hbefore := beside.same fun done hmem => hquiet done (List.mem_append_left _ hmem)
    rw [hstore, htraffic]
    match deed with
    | none => exact hbefore
    | some done =>
      obtain ⟨sample, rfl⟩ := hquiet done (List.mem_append_right _ (by simp))
      exact hbefore

/-- A fetch, made or not, that has not come back with a value. -/
def Unfetched (p : Nat) (x : Supply) : Prop :=
  (x.intakes p).errand = .fetch ∧ ∀ v, (x.intakes p).stance ≠ .finished (.fetched v)

theorem refused_of_unfetched
    (hturn : (x.intakes p).Turn (x.store (x.intakes p).target) x.traffic.actor.core.name x.meets
      stance deed) (h : (x.act p (stance, deed)).Unfetched p) (source : String)
    (hasked : deed = some (.asked source)) : (x.traffic.notify source).1 = x.traffic := by
  cases hturn with
  | ask w hstance =>
    cases hasked
    unfold Unfetched at h
    rw [intakes_act, Function.update_self] at h
    cases hmeets : x.meets w.key with
    | ok done =>
      have herrand : (x.intakes p).errand = .fetch := h.1
      exact absurd (by rw [herrand, hmeets]; rfl) (h.2 w)
    | error failure => exact (meets_error hmeets).2.2
  | _ => cases hasked

theorem Beside.own_step (beside : x.Beside p y) (sound : x.Sound name store) {move : Move}
    (hown : move.intake? = some p) (h : (x.step move).Unfetched p) :
    (x.step move).Beside p y := by
  have hplace : ∀ intake, (x.place p intake).Beside p y := fun intake =>
    { beside with
      intakes := fun q hq => (intakes_place_of_ne hq ..).trans (beside.intakes q hq) }
  cases move with
  | make q errand i fault =>
    cases hown
    simp only [step]
    split
    · exact hplace _
    · exact beside
  | look q polled expired cancelFirst =>
    cases hown
    exact beside.own sound (Intake.turn_look ..) (refused_of_unfetched (Intake.turn_look ..) h)
  | proceed q =>
    cases hown
    have hturn := Intake.turn_proceed (x.intakes p) (x.store (x.intakes p).target)
      x.traffic.actor.core.name x.meets
    exact beside.own sound hturn (refused_of_unfetched hturn h)
  | dismiss q =>
    cases hown
    exact hplace _
  | assign i value => cases hown
  | traffic move => cases hown

theorem unfetched_of_step (sound : x.Sound name store) {move : Move}
    (h : (x.step move).Unfetched p) : x.Unfetched p := by
  constructor
  · by_cases hmade : (x.intakes p).stance = .unmade
    · exact ((sound.follows p).fresh hmade).2
    · rw [← (errand_change (change_step x move) hmade).1]
      exact h.1
  · intro v hover
    exact h.2 v (step_finished hover move).1

/-- As long as the fetch has not come back with a value, the others go on as they do without it. -/
theorem beside_run (config : Config) (name initial : String) (hosted : Bool)
    (store : Nat → Variable) (moves : List Move) (p : Nat)
    (h : ((start config name initial hosted store).run moves).Unfetched p) :
    ((start config name initial hosted store).run moves).Beside p
      ((start config name initial hosted store).run (without p moves)) := by
  -- By induction from the last step on: if the fetch has no value in the end, it had none before.
  induction moves using List.reverseRecOn with
  | nil => exact beside_refl p _
  | append_singleton moves move ih =>
    have sound := sound_run config name initial hosted store moves
    rw [run_append] at h ⊢
    have hbefore : ((start config name initial hosted store).run moves).Unfetched p :=
      unfetched_of_step sound h
    have beside := ih hbefore
    have hwithout : without p (moves ++ [move]) = without p moves ++ without p [move] :=
      List.filter_append ..
    rw [hwithout]
    by_cases hown : move.intake? = some p
    · have hnone : without p [move] = [] := List.filter_cons_of_neg (by simp [hown])
      rw [hnone, List.append_nil]
      exact beside.own_step sound hown h
    · have hone : without p [move] = [move] := List.filter_cons_of_pos (by simp [hown])
      rw [hone, run_append]
      exact beside.other hown

end Supply

/-- A fetch that comes back with a failure, whatever its medium does and however the machine stands,
either did nothing but look at a sample, or met a closed mailbox after all that it does with a
value.  In the first case the machine and its variables are as if the fetch had never been made.  In
the second one its value is stored and told; the mailbox and the dispatches are still as without
it. -/
theorem failed_fetch_enqueues_nothing (config : Config) (name initial : String) (hosted : Bool)
    (store : Nat → Variable) (moves : List Supply.Move) (p : Nat) (failure : Failure) :
    let x := (Supply.start config name initial hosted store).run moves
    let y := (Supply.start config name initial hosted store).run (Supply.without p moves)
    let v := store (x.intakes p).target
    (x.intakes p).errand = .fetch → (x.intakes p).stance = .finished (.failed failure) →
    ((x.trail p = [] ∨
        ∃ sample, x.trail p = [.took sample] ∧ sample.decode v.shape = .error failure) ∧
      x.store = y.store ∧ x.traffic = y.traffic) ∨
    (failure = .machineStopped name ∧ x.traffic.actor.mailbox.closed = true ∧
      (∃ sample value, sample.decode v.shape = .ok value ∧ x.trail p =
        [.took sample, .wrote (v.assign value), .told (v.updatedEvent name), .asked v.key]) ∧
      x.traffic.actor.mailbox = y.traffic.actor.mailbox ∧
      x.traffic.dispatches = y.traffic.dispatches) := by
  intro x y v herrand hover
  have single : x.Single name v p :=
    Supply.single_run config name initial hosted store moves p herrand
  have beside : x.Beside p y := by
    apply Supply.beside_run
    refine ⟨herrand, fun w hfetched => ?_⟩
    cases hover.symm.trans hfetched
  rcases single.failed failure hover with hnothing | ⟨sample, htook, hunread⟩ |
    ⟨hrefused, hclosed, hdone⟩
  · exact .inl ⟨.inl hnothing, beside.same (by simp [hnothing])⟩
  · exact .inl ⟨.inr ⟨sample, htook, hunread⟩, beside.same (by simp [htook])⟩
  · exact .inr ⟨hrefused, hclosed, hdone, beside.alike.actor.mailbox, beside.dispatches⟩

/-- A fetch that cannot read its sample, while a subscription stores a value for the same
variable. -/
theorem failed_fetch_enqueues_nothing_unread :
    let moves : List Supply.Move :=
      [.make 0 .fetch 0 none, .make 1 .watch 0 none,
        .look 1 (.sample { key := "k", value := .bool true } (.feed [] .hang)) none false,
        .proceed 1,
        .look 0 (.sample { key := "k", value := .string "on" } (.feed [] .close)) none false,
        .proceed 1, .proceed 1]
    let x := (Supply.start {} "m" "A" true fun _ => { key := "k", shape := .bool }).run moves
    let y := (Supply.start {} "m" "A" true fun _ => { key := "k", shape := .bool }).run
      (Supply.without 0 moves)
    (x.store 0).value = some (.bool true) ∧ x.store = y.store ∧ x.traffic = y.traffic := by
  intro moves x y
  have hstored : (x.store 0).value = some (.bool true) := by rfl
  refine ⟨hstored, ?_⟩
  rcases failed_fetch_enqueues_nothing {} "m" "A" true (fun _ => { key := "k", shape := .bool })
    moves 0 _ rfl rfl with ⟨-, hsame⟩ | ⟨hrefused, -⟩
  · exact hsame
  · cases hrefused

/-- A fetch for a machine that was stopped: it fails, and the variable has changed. -/
theorem failed_fetch_stores_for_stopped_machine :
    let before := (Supply.start {} "m" "A" true
        fun _ => { key := "k", shape := .bool, value := some (.bool false) }).run
      [.traffic .cancel, .traffic (.turn false)]
    let x := before.run
      [.make 0 .fetch 0 none,
        .look 0 (.sample { key := "k", value := .bool true } (.feed [] .close)) none false,
        .proceed 0, .proceed 0, .proceed 0]
    (x.intakes 0).stance = .finished (.failed (.machineStopped "m")) ∧
    (before.store 0).value = some (.bool false) ∧ (x.store 0).value = some (.bool true) ∧
    x.traffic.log = .published { kind := .varUpdated, name := some "m", source := some "k" } ::
      before.traffic.log :=
  ⟨rfl, rfl, rfl, rfl⟩

end Sequencer
