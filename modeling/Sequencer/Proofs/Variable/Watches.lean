import Sequencer.Proofs.Machine.Previous
import Sequencer.Proofs.Variable.Courses

/-!
# Watches — a standing subscription handles every sample, one after another

A sample that can be read is stored, told, and a refresh is asked for; another one is only told.
The subscription goes on with the next sample whatever becomes of the request, unless the machine
takes no requests any more.
-/

namespace Sequencer

/-- The variable with the value of the sample, if that can be read. -/
def Variable.ofSample? (v : Variable) (sample : Sample) : Option Variable :=
  (sample.decode v.shape).toOption.map v.assign

namespace Intake

variable {errand : Errand} {machine : String} {v : Variable}

/-- The variable as it stores it next. -/
def held? : Stance → Option Variable
  | .holding v _ => some v
  | _ => none

/-! ## 1. What is written and told -/

theorem written_course (errand : Errand) (machine : String) (v : Variable) (sample : Sample) :
    (course errand machine v sample).filterMap Deed.written? = (v.ofSample? sample).toList := by
  unfold course Variable.ofSample?
  cases sample.decode v.shape with
  | ok value => rfl
  | error failure => cases errand <;> rfl

theorem written_left (stance : Stance) :
    (left stance).filterMap Deed.written? = (held? stance).toList := by
  cases stance <;> rfl

/-- All values that can be read are written, in the order of their samples. -/
theorem written_of_course {trail : List Deed} {stance : Stance} {samples : List Sample}
    (h : trail ++ left stance = samples.flatMap (course errand machine v)) :
    trail.filterMap Deed.written? ++ (held? stance).toList = samples.filterMap v.ofSample? := by
  have hwritten := congrArg (List.filterMap Deed.written?) h
  rw [List.filterMap_append, written_left, List.filterMap_flatMap] at hwritten
  rw [hwritten, List.filterMap_eq_flatMap_toList]
  congr 1
  exact funext fun sample => written_course errand machine v sample

theorem kind_of_course {sample : Sample} {event : Event}
    (h : .told event ∈ course errand machine v sample) :
    event.kind = .varUpdated ∨ event.kind = .varRejected := by
  unfold course at h
  cases hdecode : sample.decode v.shape with
  | ok value =>
    simp only [hdecode, List.mem_cons, reduceCtorEq, List.not_mem_nil, or_false, false_or,
      Deed.told.injEq] at h
    rw [h]
    exact .inl rfl
  | error failure =>
    cases errand with
    | fetch => simp [hdecode] at h
    | watch =>
      simp only [hdecode, List.mem_cons, reduceCtorEq, List.not_mem_nil, or_false, false_or,
        Deed.told.injEq] at h
      rw [h]
      exact .inr rfl

end Intake

/-! ## 2. Events of variables -/

def Event.ofVariable (event : Event) : Bool :=
  event.kind = .varUpdated || event.kind = .varRejected

def Occurrence.ofVariable? : Occurrence → Option Event
  | published event => if event.ofVariable then some event else none
  | _ => none

def Happening.told? : Happening → Option Event
  | done _ _ (.told event) => some event
  | _ => none

namespace Traffic

variable {t t' : Traffic}

/-- What is told of variables, the latest first. -/
def variableEvents (t : Traffic) : List Event := t.log.filterMap Occurrence.ofVariable?

theorem variableEvents_conduct (t : Traffic) (actor : Actor) {effects : List Effect}
    (h : ∀ event, Effect.publish event ∈ effects → event.ofVariable = false) :
    (t.conduct actor effects).variableEvents = t.variableEvents :=
  filterMap_untold actor (fun _ => rfl) fun event hmem => if_neg (by rw [h event hmem]; nofun)

theorem variableEvents_change (hchange : t.Change t') :
    t'.variableEvents = t.variableEvents := by
  -- The machine tells of its dispatches and of its mailbox, never of its variables.
  cases hchange with
  | overflow source hopen hfull =>
    exact variableEvents_conduct t _ (by simp [Core.overflowEvent, Event.ofVariable])
  | post source hopen hroom => exact variableEvents_conduct t _ (by simp)
  | enter c source mailbox hphase hsend => exact variableEvents_conduct t _ (by simp)
  | wait c source mailbox hphase hsend => exact variableEvents_conduct t _ (by simp)
  | refuse c source mailbox hphase hsend => exact variableEvents_conduct t _ (by simp)
  | giveUp c source hphase => exact variableEvents_conduct t _ (by simp)
  | serve request queue hidle hcancelled hqueue =>
    exact variableEvents_conduct (t.record (.taken request)) _
      (by simp [Core.tickEvent, Event.ofVariable])
  | cut request queue hidle hqueue =>
    refine variableEvents_conduct ({ t with cancelled := true }.record (.taken request)) _
      fun event hmem => ?_
    simp at hmem
  | finish service result final hservice hfinal =>
    refine variableEvents_conduct (t.record (.returned (t.round service result))) _
      fun event hmem => ?_
    have hkind := kind_of_told ((List.mem_append.mp hmem).resolve_right (by simp))
    unfold Event.ofVariable
    rcases hkind with hkind | hkind <;> rw [hkind] <;> rfl
  | next service state work hservice hcompleted hwork hcancelled =>
    exact variableEvents_conduct (t.record (.returned (t.round service (.ok ())))) _
      (by simp [Core.tickEvent, Event.ofVariable])
  | leave hidle =>
    exact variableEvents_conduct t _ (by simp [Actor.leave, Core.stoppedEvent, Event.ofVariable])
  | collapse service hservice =>
    exact variableEvents_conduct t _ (by simp [Actor.collapse, hservice])
  | _ => rfl

end Traffic

namespace Supply

variable {x x' : Supply} {p : Nat} {name : String} {store : Nat → Variable} {v : Variable}

theorem hosted_change (hchange : x.Change x') : x'.traffic.hosted = x.traffic.hosted := by
  rcases traffic_change hchange with hchange | ⟨event, htold⟩
  · exact Traffic.hosted_change hchange
  · rw [htold, Traffic.tell]
    split <;> rfl

theorem hosted_run (config : Config) (name initial : String) (hosted : Bool)
    (store : Nat → Variable) (moves : List Move) :
    ((start config name initial hosted store).run moves).traffic.hosted = hosted :=
  run_induction (P := fun x => x.traffic.hosted = hosted)
    (fun _ _ h hchange => (hosted_change hchange).trans h) rfl moves

/-- What is told of the variables is what their intakes tell, in this order. -/
def Voiced (x : Supply) : Prop :=
  x.traffic.variableEvents.reverse =
    if x.traffic.hosted then x.chronicle.filterMap Happening.told? else []

theorem Voiced.keep (voiced : x.Voiced) (hosted : x'.traffic.hosted = x.traffic.hosted)
    (hevents : x'.traffic.variableEvents = x.traffic.variableEvents)
    (hchronicle : x'.chronicle.filterMap Happening.told? =
      x.chronicle.filterMap Happening.told?) : x'.Voiced := by
  unfold Voiced
  rw [hevents, hosted, hchronicle]
  exact voiced

theorem Follows.ofVariable (follows : x.Follows name store p) {event : Event}
    (h : .told event ∈ Intake.left (x.intakes p).stance) : event.ofVariable = true := by
  have hmem := List.mem_append_right (x.trail p) h
  rw [follows.course] at hmem
  obtain ⟨sample, -, hcourse⟩ := List.mem_flatMap.mp hmem
  unfold Event.ofVariable
  rcases Intake.kind_of_course hcourse with hkind | hkind <;> rw [hkind] <;> rfl

theorem Voiced.tell (voiced : x.Voiced) {event : Event} (h : event.ofVariable = true)
    (hevents : x'.traffic = x.traffic.tell event)
    (hchronicle : x'.chronicle.filterMap Happening.told? =
      x.chronicle.filterMap Happening.told? ++ [event]) : x'.Voiced := by
  unfold Voiced at voiced ⊢
  rw [hevents, hchronicle, Traffic.tell]
  cases hosted : x.traffic.hosted with
  | false =>
    rw [hosted] at voiced
    simpa [hosted] using voiced
  | true =>
    rw [hosted, if_pos rfl] at voiced
    have hlatest : (x.traffic.record (.published event)).variableEvents =
        event :: x.traffic.variableEvents := List.filterMap_cons_some (if_pos h)
    have hstill : (x.traffic.record (.published event)).hosted = true := hosted
    rw [if_pos rfl, hlatest, hstill, if_pos rfl, List.reverse_cons, voiced]

theorem voiced_change (sound : x.Sound name store) (voiced : x.Voiced) (hchange : x.Change x') :
    x'.Voiced := by
  have hosted := hosted_change hchange
  cases hchange with
  | act p stance deed hturn =>
    have htraffic := traffic_act x p stance deed
    have hchronicle := congrArg (List.filterMap Happening.told?) (chronicle_act x p stance deed)
    rw [List.filterMap_append] at hchronicle
    match deed with
    | none => exact voiced.keep hosted rfl (hchronicle.trans (List.append_nil _))
    | some (.took sample) => exact voiced.keep hosted rfl (hchronicle.trans (List.append_nil _))
    | some (.wrote w) => exact voiced.keep hosted rfl (hchronicle.trans (List.append_nil _))
    | some (.asked source) =>
      refine voiced.keep hosted ?_ (hchronicle.trans (List.append_nil _))
      rw [htraffic]
      exact Traffic.variableEvents_change (Traffic.change_notify source)
    | some (.told event) =>
      -- Only what was left to be told is told.
      have hleft : .told event ∈ Intake.left (x.intakes p).stance := by
        cases hturn with
        | tell w event hstance => simp [hstance, Intake.left]
        | skip event hstance => simp [hstance, Intake.left]
      exact voiced.tell ((sound.follows p).ofVariable hleft) htraffic hchronicle
  | assign i value =>
    refine voiced.keep hosted rfl ?_
    show (x.chronicle ++ _).filterMap _ = _
    rw [List.filterMap_append]
    exact List.append_nil _
  | traffic t hchange =>
    exact voiced.keep hosted (Traffic.variableEvents_change hchange) rfl
  | _ => exact voiced.keep hosted rfl rfl

theorem voiced_run (config : Config) (name initial : String) (hosted : Bool)
    (store : Nat → Variable) (moves : List Move) :
    ((start config name initial hosted store).run moves).Voiced := by
  have hstart : (start config name initial hosted store).Voiced := by
    unfold Voiced
    split <;> rfl
  have hboth := run_induction (P := fun x => x.Sound name store ∧ x.Voiced)
    (fun _ _ h hchange => ⟨sound_change h.1 hchange, voiced_change h.1 h.2 hchange⟩)
    ⟨sound_start config name initial hosted store, hstart⟩ moves
  exact hboth.2

end Supply

/-! ## 3. What a standing subscription sees -/

namespace Intake

variable {intake : Intake} {v : Variable} {machine : String} {expired : Option Duration}
  {cancelFirst : Bool}

theorem look_sample (herrand : intake.errand = .watch) (hstance : intake.stance = .waiting)
    (sample : Sample) (stream : Stream) :
    ∃ stance, intake.look v machine (.sample sample stream) expired false cancelFirst =
      (stance, some (.took sample)) ∧ ∀ finish, stance ≠ .finished finish := by
  cases hdecode : sample.decode v.shape with
  | ok value =>
    refine ⟨.holding (v.assign value) (v.updatedEvent machine), ?_, by simp⟩
    simp only [look, hstance, herrand, Variable.monitor, Variable.accept, hdecode]
    rfl
  | error failure =>
    refine ⟨.rejecting (v.rejectedEvent machine failure), ?_, by simp⟩
    simp only [look, hstance, herrand, Variable.monitor, Variable.accept, hdecode]
    rfl

theorem look_ended (herrand : intake.errand = .watch) (hstance : intake.stance = .waiting) :
    intake.look v machine .ended expired false cancelFirst = (.finished .exhausted, none) := by
  simp only [look, hstance, herrand]
  rfl

theorem look_pending (herrand : intake.errand = .watch) (hstance : intake.stance = .waiting) :
    intake.look v machine .pending expired false cancelFirst = (.waiting, none) := by
  simp only [look, hstance, herrand]
  rfl

theorem look_panicked (herrand : intake.errand = .watch) (hstance : intake.stance = .waiting)
    (payload : Payload) :
    intake.look v machine (.panicked payload) expired false cancelFirst =
      (.finished (.panicked payload), none) := by
  simp only [look, hstance, herrand]
  rfl

end Intake

namespace Supply

variable {x : Supply} {p : Nat} {v : Variable}

/-! ## 4. The steps of a standing subscription -/

/-- A subscription that asks for a refresh goes on if its request enters, and if it is dropped
because every slot is taken; it ends if the mailbox is closed. -/
def Asks (slots : Nat) (name : String) (hosted : Bool) (p : Nat) (source : String)
    (x x' : Supply) : Prop :=
  (x.traffic.actor.mailbox.taken < slots ∧
    x'.traffic.actor.mailbox.queue = x.traffic.actor.mailbox.queue ++ [{ source := source }] ∧
    x'.traffic.log = .entered { source := source } :: x.traffic.log ∧
    (x'.intakes p).stance = .waiting) ∨
  (x.traffic.actor.mailbox.taken = slots ∧ x'.traffic.actor = x.traffic.actor ∧
    x'.traffic.log = (if hosted then
      [.published { kind := .mailboxOverflow, name := some name, source := some source }]
      else []) ++ x.traffic.log ∧
    (x'.intakes p).stance = .waiting) ∨
  (x.traffic.actor.mailbox.closed = true ∧ x'.traffic = x.traffic ∧
    (x'.intakes p).stance = .finished .refused)

theorem step_told (hstance : (x.intakes p).stance = .told v) :
    x.step (.proceed p) =
      x.act p (Intake.asking (x.intakes p).errand v (x.meets v.key), some (.asked v.key)) := by
  simp only [step, Intake.proceed, hstance]

theorem asks_proceed {slots : Nat} (seats : x.traffic.Seats slots)
    (herrand : (x.intakes p).errand = .watch) (hstance : (x.intakes p).stance = .told v) :
    x.Asks slots x.traffic.actor.core.name x.traffic.hosted p v.key (x.step (.proceed p)) := by
  unfold Asks
  rw [step_told hstance, stance_act, traffic_act, herrand]
  rcases Traffic.notify_cases seats v.key with ⟨hroom, hok, hqueue, hlog⟩ |
    ⟨hfull, hok, hactor, hlog⟩ | ⟨hclosed, hrefused⟩
  · exact .inl ⟨hroom, hqueue, hlog, by rw [meets, hok]; rfl⟩
  · exact .inr (.inl ⟨hfull, hactor, hlog, by rw [meets, hok]; rfl⟩)
  · exact .inr (.inr ⟨hclosed, congrArg Prod.fst hrefused, by rw [meets, hrefused]; rfl⟩)

/-- A request is refused by a closed mailbox, and by no other one. -/
theorem refused_iff (herrand : (x.intakes p).errand = .watch)
    (hstance : (x.intakes p).stance = .told v) (finish : Finish) :
    ((x.step (.proceed p)).intakes p).stance = .finished finish ↔
      x.traffic.actor.mailbox.closed = true ∧ finish = .refused := by
  rw [step_told hstance, stance_act, herrand]
  unfold meets Traffic.notify Actor.notify Mailbox.post
  cases hclosed : x.traffic.actor.mailbox.closed with
  | true => simp [Intake.asking, @eq_comm _ finish]
  | false => cases x.traffic.actor.mailbox.hasRoom <;> simp [Intake.asking]

/-- It ends by a look at a stream that has ended, or that panics, or by a request that a closed
mailbox refuses. -/
theorem finished_iff (herrand : (x.intakes p).errand = .watch)
    (hmade : (x.intakes p).stance ≠ .unmade) (hgoes : x.isCancelled p = false)
    (hnot : ∀ finish, (x.intakes p).stance ≠ .finished finish) (move : Move) (finish : Finish) :
    ((x.step move).intakes p).stance = .finished finish ↔
      (∃ expired cancelFirst, move = .look p .ended expired cancelFirst ∧
        (x.intakes p).stance = .waiting ∧ finish = .exhausted) ∨
      (∃ payload expired cancelFirst, move = .look p (.panicked payload) expired cancelFirst ∧
        (x.intakes p).stance = .waiting ∧ finish = .panicked payload) ∨
      (∃ w, move = .proceed p ∧ (x.intakes p).stance = .told w ∧
        x.traffic.actor.mailbox.closed = true ∧ finish = .refused) := by
  by_cases hlook : ∃ polled expired cancelFirst, move = .look p polled expired cancelFirst
  · obtain ⟨polled, expired, cancelFirst, rfl⟩ := hlook
    by_cases hstance : (x.intakes p).stance = .waiting
    · -- What it sees is what its stream gives, as nobody has cancelled it.
      rw [step, stance_act, hgoes]
      cases polled with
      | sample sample stream =>
        obtain ⟨stance, hlook, hgoes⟩ := Intake.look_sample herrand hstance sample stream
        rw [hlook]
        simp [hgoes]
      | ended =>
        rw [Intake.look_ended herrand hstance]
        simp [hstance, @eq_comm _ finish]
      | pending =>
        rw [Intake.look_pending herrand hstance]
        simp
      | panicked payload =>
        rw [Intake.look_panicked herrand hstance]
        simp [hstance, @eq_comm _ finish]
    · rw [step, Intake.look_busy hstance, stance_act]
      simp [hstance, hnot]
  · by_cases hproceed : move = .proceed p
    · subst hproceed
      cases hstance : (x.intakes p).stance with
      | told w =>
        rw [refused_iff herrand hstance]
        simp
      | finished finish => exact absurd hstance (hnot finish)
      | _ =>
        rw [step, stance_act]
        simp [Intake.proceed, hstance]
    · rw [(step_still hmade (fun polled expired cancelFirst h =>
        hlook ⟨polled, expired, cancelFirst, h⟩) hproceed).1]
      constructor
      · exact fun h => absurd h (hnot finish)
      · rintro (⟨expired, cancelFirst, rfl, -⟩ | ⟨payload, expired, cancelFirst, rfl, -⟩ |
          ⟨w, rfl, -⟩)
        · exact absurd ⟨_, _, _, rfl⟩ hlook
        · exact absurd ⟨_, _, _, rfl⟩ hlook
        · exact absurd rfl hproceed

/-- It writes to nothing but its variable, as it stores a value, and comes to the mailbox for
nothing but a refresh. -/
theorem spares_step {move : Move} (hown : move.intake? = some p) :
    ((∀ w event, (x.intakes p).stance ≠ .holding w event) → (x.step move).store = x.store) ∧
      ((∀ w, (x.intakes p).stance ≠ .told w) →
        (x.step move).traffic.actor = x.traffic.actor) := by
  have hact : ∀ stance deed, (x.intakes p).Turn (x.store (x.intakes p).target)
      x.traffic.actor.core.name x.meets stance deed →
      ((∀ w event, (x.intakes p).stance ≠ .holding w event) →
        (x.act p (stance, deed)).store = x.store) ∧
      ((∀ w, (x.intakes p).stance ≠ .told w) →
        (x.act p (stance, deed)).traffic.actor = x.traffic.actor) := by
    intro stance deed hturn
    rw [store_act, traffic_act]
    have htell : ∀ event, (x.traffic.tell event).actor = x.traffic.actor := by
      intro event
      unfold Traffic.tell
      split <;> rfl
    cases hturn with
    | write w event hstance => exact ⟨fun h => absurd hstance (h w event), fun _ => rfl⟩
    | tell w event hstance => exact ⟨fun _ => rfl, fun _ => htell event⟩
    | skip event hstance => exact ⟨fun _ => rfl, fun _ => htell event⟩
    | ask w hstance => exact ⟨fun _ => rfl, fun h => absurd hstance (h w)⟩
    | _ => exact ⟨fun _ => rfl, fun _ => rfl⟩
  cases move with
  | make q errand i fault =>
    simp only [step]
    split <;> exact ⟨fun _ => rfl, fun _ => rfl⟩
  | look q polled expired cancelFirst =>
    cases hown
    exact hact _ _ (Intake.turn_look ..)
  | proceed q =>
    cases hown
    exact hact _ _ (Intake.turn_proceed ..)
  | dismiss q => exact ⟨fun _ => rfl, fun _ => rfl⟩
  | assign i value => cases hown
  | traffic move => cases hown

/-- How the standing subscription `p` attends to its stream, for the variable that began as `v`. -/
structure Attends (config : Config) (name : String) (hosted : Bool) (v : Variable) (p : Nat)
    (x : Supply) : Prop where
  /-- What it did, and what is left to do with the latest sample, are the courses of all samples. -/
  course : x.trail p ++ Intake.left (x.intakes p).stance =
    (x.taken p).flatMap (Intake.course .watch name v)
  /-- It wrote every value that can be read, the latest one unless it still holds it. -/
  written : (x.trail p).filterMap Intake.Deed.written? ++
    (Intake.held? (x.intakes p).stance).toList = (x.taken p).filterMap v.ofSample?
  /-- If nobody has cancelled it, it takes every sample it waits for. -/
  takes : (x.intakes p).stance = .waiting → x.isCancelled p = false →
    ∀ sample stream expired cancelFirst,
      (x.step (.look p (.sample sample stream) expired cancelFirst)).taken p =
        x.taken p ++ [sample]
  /-- It does what is left one by one, and meanwhile nothing else. -/
  proceeds : ∀ deed deeds, Intake.left (x.intakes p).stance = deed :: deeds →
    (x.step (.proceed p)).trail p = x.trail p ++ [deed] ∧
      Intake.left ((x.step (.proceed p)).intakes p).stance = deeds ∧
      ∀ move, move ≠ .proceed p → (x.step move).trail p = x.trail p ∧
        ((x.step move).intakes p).stance = (x.intakes p).stance
  /-- A value overwrites the variable, whatever it holds. -/
  stores : ∀ w event, (x.intakes p).stance = .holding w event →
    (x.step (.proceed p)).store = Function.update x.store (x.intakes p).target w
  spares : ∀ move, move.intake? = some p →
    ((∀ w event, (x.intakes p).stance ≠ .holding w event) → (x.step move).store = x.store) ∧
      ((∀ w, (x.intakes p).stance ≠ .told w) →
        (x.step move).traffic.actor = x.traffic.actor)
  asks : ∀ w, (x.intakes p).stance = .told w →
    x.Asks config.mailboxSlots name hosted p w.key (x.step (.proceed p))
  /-- If nobody has cancelled it, it ends with its stream or with the mailbox. -/
  ends : x.isCancelled p = false → (∀ finish, (x.intakes p).stance ≠ .finished finish) →
    ∀ move finish, ((x.step move).intakes p).stance = .finished finish ↔
      (∃ expired cancelFirst, move = .look p .ended expired cancelFirst ∧
        (x.intakes p).stance = .waiting ∧ finish = .exhausted) ∨
      (∃ payload expired cancelFirst, move = .look p (.panicked payload) expired cancelFirst ∧
        (x.intakes p).stance = .waiting ∧ finish = .panicked payload) ∨
      (∃ w, move = .proceed p ∧ (x.intakes p).stance = .told w ∧
        x.traffic.actor.mailbox.closed = true ∧ finish = .refused)

theorem attends_run (config : Config) (name initial : String) (hosted : Bool)
    (store : Nat → Variable) (moves : List Move) (p : Nat) :
    let x := (start config name initial hosted store).run moves
    (x.intakes p).errand = .watch →
      x.Attends config name hosted (store (x.intakes p).target) p := by
  intro x herrand
  have sound : x.Sound name store := sound_run config name initial hosted store moves
  have follows := sound.follows p
  have seats : x.traffic.Seats config.mailboxSlots :=
    (ledger_run config name initial hosted store moves).1
  have hhosted : x.traffic.hosted = hosted := hosted_run config name initial hosted store moves
  have hmade : (x.intakes p).stance ≠ .unmade := by
    intro hunmade
    cases herrand.symm.trans (follows.fresh hunmade).2
  have hcourse := follows.course
  rw [herrand] at hcourse
  constructor
  case course => exact hcourse
  case written => exact Intake.written_of_course hcourse
  case takes =>
    intro hstance hgoes sample stream expired cancelFirst
    obtain ⟨stance, hlook, -⟩ := Intake.look_sample herrand hstance sample stream
    rw [taken, step, hgoes, hlook, trail_act_self, List.filterMap_append]
    rfl
  case proceeds =>
    intro deed deeds hleft
    obtain ⟨hdeed, hrest⟩ := Intake.proceed_left hleft x.meets
    have hbusy : (x.intakes p).stance ≠ .waiting := by
      intro hwaits
      rw [hwaits] at hleft
      cases hleft
    refine ⟨?_, ?_, fun move hmove => (step_busy hmade hbusy hmove).symm⟩
    · exact (trail_act_self ..).trans (by rw [hdeed]; rfl)
    · exact (congrArg Intake.left (stance_act ..)).trans hrest
  case stores =>
    intro w event hstance
    simp only [step, Intake.proceed, hstance, store_act]
    rfl
  case spares => exact fun move hown => spares_step hown
  case asks =>
    intro w hstance
    rw [← sound.called, ← hhosted]
    exact asks_proceed seats herrand hstance
  case ends => exact finished_iff herrand hmade

end Supply

/-- A standing subscription handles the samples of its stream one by one, in order, among any number
of fetches, subscriptions and assignments of the same and of other variables.  The variables are
what was written to them last, and what is told of them is what their intakes tell. -/
theorem watch_handles_every_sample (config : Config) (name initial : String) (hosted : Bool)
    (store : Nat → Variable) (moves : List Supply.Move) (p : Nat) :
    let x := (Supply.start config name initial hosted store).run moves
    (x.intakes p).errand = .watch →
    x.Attends config name hosted (store (x.intakes p).target) p ∧
    (∀ i, x.store i = (x.writes i).getLast?.getD (store i)) ∧
    x.traffic.variableEvents.reverse =
      if hosted then x.chronicle.filterMap Happening.told? else [] := by
  intro x herrand
  have sound : x.Sound name store := Supply.sound_run config name initial hosted store moves
  have hhosted : x.traffic.hosted = hosted :=
    Supply.hosted_run config name initial hosted store moves
  refine ⟨Supply.attends_run config name initial hosted store moves p herrand,
    sound.replayed.last, ?_⟩
  rw [← hhosted]
  exact Supply.voiced_run config name initial hosted store moves

/-- A value, a sample that cannot be read, and another value, for a mailbox with one slot: the
second request is dropped, and the subscription goes on. -/
theorem watch_handles_every_sample_overflow :
    let x := (Supply.start { mailboxCapacity := 1 } "m" "A" true
        fun _ => { key := "k", shape := .bool }).run
      [.make 0 .watch 3 none,
        .look 0 (.sample { key := "k", value := .bool true } (.feed [] .hang)) none false,
        .proceed 0, .proceed 0, .proceed 0,
        .look 0 (.sample { key := "k", value := .string "on" } (.feed [] .hang)) none false,
        .proceed 0,
        .look 0 (.sample { key := "k", value := .bool false } (.feed [] .hang)) none false,
        .proceed 0, .proceed 0]
    x.traffic.variableEvents.reverse.map (·.kind) = [.varUpdated, .varRejected, .varUpdated] ∧
    (x.step (.proceed 0)).traffic.log.head? = some (.published
      { kind := .mailboxOverflow, name := some "m", source := some "k" }) ∧
    ((x.step (.proceed 0)).intakes 0).stance = .waiting := by
  intro x
  obtain ⟨attends, -, hevents⟩ := watch_handles_every_sample { mailboxCapacity := 1 } "m" "A" true
    (fun _ => { key := "k", shape := .bool })
    [.make 0 .watch 3 none,
      .look 0 (.sample { key := "k", value := .bool true } (.feed [] .hang)) none false,
      .proceed 0, .proceed 0, .proceed 0,
      .look 0 (.sample { key := "k", value := .string "on" } (.feed [] .hang)) none false,
      .proceed 0,
      .look 0 (.sample { key := "k", value := .bool false } (.feed [] .hang)) none false,
      .proceed 0, .proceed 0] 0 rfl
  refine ⟨by rw [hevents]; rfl, ?_⟩
  rcases attends.asks { key := "k", shape := .bool, value := some (.bool false) } rfl with
    ⟨hroom, -⟩ | ⟨-, -, hlog, hwaits⟩ | ⟨hclosed, -⟩
  · exact absurd hroom (Nat.lt_irrefl 1)
  · exact ⟨by rw [hlog]; rfl, hwaits⟩
  · cases hclosed

end Sequencer
