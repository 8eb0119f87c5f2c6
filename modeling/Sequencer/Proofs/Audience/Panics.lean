import Sequencer.Proofs.Audience.Fates

/-!
# Panics — what becomes of an observer that panics on an event

An observer panics while it is at work on an event, or already in the call that hands the event to
it.  A panic at work is told once, unless the event is a report itself, and the observer goes on
with whatever waits for it.  A panic in the call is told by nobody: the observer is gone with all
that waits for it, and nothing is queued for it any more.
-/

namespace Sequencer

namespace Crowd

/-! ## 1. Observers that are gone -/

/-- A step of the calls and the observers, or a panic of the observer at the place `i` in the call
that hands an event to it. -/
inductive Turn where
  | move (move : Move)
  | collapse (i : Nat)

/-- The observer at the place `i` is gone, with the event that it was handed. -/
def collapse (x : Crowd) (i : Nat) : Crowd :=
  match x.busy i with
  | none => x
  | some _ => { x.finish i with audience := x.audience.collapse i }

def turn (x : Crowd) : Turn → Crowd
  | .move move => x.step move
  | .collapse i => x.collapse i

def endure (x : Crowd) (turns : List Turn) : Crowd := turns.foldl turn x

/-- A panic at work. -/
structure Panic where
  place : Nat
  event : Event
  payload : Payload

/-- The panic at work that a step is, if there is anything to panic on. -/
def panicked? (x : Crowd) : Turn → Option Panic
  | .move (.panic i payload) => (x.busy i).map fun event => ⟨i, event, payload⟩
  | _ => none

/-- The panics at work of a run, in order. -/
def panics (x : Crowd) : List Turn → List Panic
  | [] => []
  | turn :: turns => (x.panicked? turn).toList ++ (x.turn turn).panics turns

/-- What is to be published of a panic at work of the observer `name`. -/
def panicReports (name : String) (event : Event) (payload : Payload) : List Event :=
  if event.isReport then [] else [.panicOf name payload.reason]

/-! ## 2. What a step does to an observer -/

/-- An observer with what it has done and what was queued for it. -/
structure Post where
  observer : Observer
  busy : Option Event
  handled : List Event
  queued : List Event

/-- The post at the place `i`. -/
def post? (x : Crowd) (i : Nat) : Option Post :=
  (x.audience.observers[i]?).map fun observer => ⟨observer, x.busy i, x.handled i, x.queuedFor i⟩

namespace Post

/-- What a step can do to an observer. -/
inductive Change (p : Post) : Post → Prop where
  | nothing : Change p p
  | offered (event : Event) : Change p { p with
      observer := p.observer.offer event
      queued := p.queued ++ if p.observer.fate event = .queued then [event] else [] }
  | taken (event : Event) (queue : List Event) (hidle : p.busy = none)
      (hqueue : p.observer.queue = event :: queue) :
      Change p { p with observer := { p.observer with queue }, busy := some event }
  | ended : Change p { p with busy := none, handled := p.handled ++ p.busy.toList }
  | collapsed (event : Event) (hbusy : p.busy = some event) : Change p { p with
      observer := p.observer.collapse, busy := none, handled := p.handled ++ [event] }

/-- It works off what was queued for it, in order. -/
structure Serves (seat : String × Nat) (p : Post) : Prop where
  alive : p.observer.alive = true
  capacity : p.observer.capacity = max seat.2 1
  conserved : p.handled ++ p.busy.toList ++ p.observer.queue = p.queued

/-- It is gone. -/
structure Gone (p : Post) : Prop where
  alive : p.observer.alive = false
  queue : p.observer.queue = []
  busy : p.busy = none

variable {p q : Post} {seat : String × Nat}

theorem Change.name (change : p.Change q) : q.observer.name = p.observer.name := by
  cases change with
  | offered event => exact (Relay.queue_offer p.observer event).1
  | _ => rfl

theorem offer_of_queued {observer : Observer} {event : Event} :
    observer.offer event = { observer with
      queue := observer.queue ++ if observer.fate event = .queued then [event] else [] } := by
  unfold Observer.offer
  split
  · next h => rw [if_pos h]
  · next h => rw [if_neg h, List.append_nil]

/-- Whoever works off his queue goes on with it, unless he is gone. -/
theorem Serves.change (serves : p.Serves seat) (change : p.Change q)
    (halive : q.observer.alive = true) : q.Serves seat := by
  cases change with
  | nothing => exact serves
  | offered event =>
    refine ⟨halive, ?_, ?_⟩
    · rw [offer_of_queued]
      exact serves.capacity
    · show p.handled ++ p.busy.toList ++ (p.observer.offer event).queue = p.queued ++ _
      rw [offer_of_queued, ← serves.conserved, List.append_assoc _ p.observer.queue]
  | taken event queue hidle hqueue =>
    refine ⟨halive, serves.capacity, ?_⟩
    have hkept := serves.conserved
    rw [hidle, hqueue] at hkept
    rw [← hkept]
    simp
  | ended =>
    refine ⟨halive, serves.capacity, ?_⟩
    show p.handled ++ p.busy.toList ++ [] ++ p.observer.queue = p.queued
    rw [List.append_nil]
    exact serves.conserved
  | collapsed event hbusy => cases halive

/-- Whoever is gone does nothing any more, and nothing is queued for him. -/
theorem Gone.change (gone : p.Gone) (change : p.Change q) :
    q.Gone ∧ q.handled = p.handled ∧ q.queued = p.queued := by
  cases change with
  | nothing => exact ⟨gone, rfl, rfl⟩
  | offered event =>
    have hfate : p.observer.fate event ≠ .queued := by
      unfold Observer.fate
      rw [gone.alive]
      split <;> exact nofun
    rw [if_neg hfate, List.append_nil]
    refine ⟨⟨?_, ?_, gone.busy⟩, rfl, rfl⟩
    · rw [offer_of_queued]
      exact gone.alive
    · rw [offer_of_queued, if_neg hfate, List.append_nil]
      exact gone.queue
  | taken event queue hidle hqueue => cases hqueue.symm.trans gone.queue
  | ended =>
    rw [gone.busy]
    exact ⟨⟨gone.alive, gone.queue, rfl⟩, List.append_nil _, rfl⟩
  | collapsed event hbusy => cases hbusy.symm.trans gone.busy

end Post

variable {x y : Crowd} {i : Nat} {p : Post} {observer : Observer} {seats : List (String × Nat)}

theorem post?_of_getElem? (h : x.audience.observers[i]? = some observer) :
    x.post? i = some ⟨observer, x.busy i, x.handled i, x.queuedFor i⟩ := by
  unfold post?
  rw [h]
  rfl

theorem getElem?_of_post? (h : x.post? i = some p) :
    x.audience.observers[i]? = some p.observer ∧ p.busy = x.busy i ∧ p.handled = x.handled i ∧
      p.queued = x.queuedFor i := by
  obtain ⟨observer, hplace, rfl⟩ := Option.map_eq_some_iff.mp h
  exact ⟨hplace, rfl, rfl, rfl⟩

theorem post?_aside (h : x.post? i = some p)
    (hobservers : y.audience.observers[i]? = x.audience.observers[i]?)
    (hbusy : y.busy i = x.busy i) (hhandled : y.handled i = x.handled i)
    (hqueued : y.queuedFor i = x.queuedFor i) : y.post? i = some p := by
  rw [← h]
  unfold post?
  rw [hobservers, hbusy, hhandled, hqueued]

theorem queuedFor_offered {offer : Offer} (h : y.offers = x.offers ++ [offer]) (i : Nat) :
    y.queuedFor i = x.queuedFor i ++
      if offer.place = i ∧ offer.fate = .queued then [offer.event] else [] := by
  unfold queuedFor
  rw [h, List.filter_append, List.map_append]
  congr 1
  by_cases hmine : offer.place = i ∧ offer.fate = .queued
  · simp [hmine]
  · simp [hmine]

theorem observers_offerAt {audience : Audience} (h : audience.observers[i]? = some observer)
    (event : Event) :
    (audience.offerAt event i).observers = audience.observers.set i (observer.offer event) := by
  rw [Audience.offerAt_of_getElem? h, Audience.observers_announces]

theorem post_offer (h : x.post? i = some p) (k : Nat) :
    ∃ q, (x.offer k).post? i = some q ∧ p.Change q ∧ q.observer.alive = p.observer.alive := by
  obtain ⟨hplace, hbusy, hhandled, hqueued⟩ := getElem?_of_post? h
  unfold offer
  split
  · exact ⟨p, h, .nothing, rfl⟩
  · next call hcall =>
    split
    · exact ⟨p, h, .nothing, rfl⟩
    · next other hother =>
      have hset := observers_offerAt hother call.event
      by_cases hi : call.next = i
      · -- The call comes to this observer.
        subst hi
        obtain rfl : p.observer = other := Option.some.inj (hplace.symm.trans hother)
        refine ⟨_, ?_, .offered call.event, by rw [Post.offer_of_queued]⟩
        have hoffered : (x.audience.offerAt call.event call.next).observers[call.next]? =
            some (p.observer.offer call.event) := by
          rw [hset]
          exact List.getElem?_set_self (List.getElem?_eq_some_iff.mp hplace).1
        refine (post?_of_getElem? hoffered).trans ?_
        rw [queuedFor_offered rfl, if_congr (and_iff_right rfl) rfl rfl, hqueued, hbusy, hhandled]
      · refine ⟨p, post?_aside h ?_ rfl rfl ?_, .nothing, rfl⟩
        · rw [hset]
          exact List.getElem?_set_ne hi
        · rw [queuedFor_offered rfl, if_neg (fun hmine => hi hmine.1), List.append_nil]

theorem post_take (h : x.post? i = some p) (j : Nat) :
    ∃ q, (x.take j).post? i = some q ∧ p.Change q ∧ q.observer.alive = p.observer.alive := by
  obtain ⟨hplace, hbusy, hhandled, hqueued⟩ := getElem?_of_post? h
  unfold take
  split
  · next audience event hidle htake =>
    rcases x.audience.take_cases j with hnothing | ⟨other, first, queue, hother, hqueue, hcase⟩
    · rw [htake] at hnothing
      exact absurd rfl (hnothing event)
    · cases hcase.symm.trans htake
      by_cases hj : j = i
      · subst hj
        obtain rfl : p.observer = other := Option.some.inj (hplace.symm.trans hother)
        refine ⟨_, ?_, .taken event queue (hbusy.trans hidle) hqueue, rfl⟩
        have hset := List.getElem?_set_self (a := { p.observer with queue })
          (List.getElem?_eq_some_iff.mp hplace).1
        rw [post?_of_getElem? hset, hhandled, hqueued]
        show some (Post.mk _ (Function.update x.busy j (some event) j) _ _) = _
        rw [Function.update_self]
        rfl
      · refine ⟨p, post?_aside h ?_ ?_ rfl rfl, .nothing, rfl⟩
        · exact List.getElem?_set_ne hj
        · exact Function.update_of_ne (Ne.symm hj) _ _
  · exact ⟨p, h, .nothing, rfl⟩

theorem post_finish (h : x.post? i = some p) (j : Nat) :
    ∃ q, (x.finish j).post? i = some q ∧ p.Change q ∧ q.observer.alive = p.observer.alive := by
  obtain ⟨hplace, hbusy, hhandled, hqueued⟩ := getElem?_of_post? h
  by_cases hj : j = i
  · subst hj
    refine ⟨_, ?_, .ended, rfl⟩
    rw [post?_of_getElem? (x := x.finish j) hplace, hhandled, hqueued, hbusy]
    show some (Post.mk _ (Function.update x.busy j none j) (Function.update x.handled j _ j) _) = _
    rw [Function.update_self, Function.update_self]
    rfl
  · refine ⟨p, post?_aside h rfl ?_ ?_ rfl, .nothing, rfl⟩
    · exact Function.update_of_ne (Ne.symm hj) _ _
    · exact Function.update_of_ne (Ne.symm hj) _ _

theorem post_panic (h : x.post? i = some p) (j : Nat) (payload : Payload) :
    ∃ q, (x.panic j payload).post? i = some q ∧ p.Change q ∧
      q.observer.alive = p.observer.alive := by
  unfold panic
  split
  · exact ⟨p, h, .nothing, rfl⟩
  · split
    · exact post_finish h j
    · exact post_finish h j

/-- Whoever is not at work can take what waits for him. -/
theorem busy_take {event : Event} {queue : List Event}
    (hplace : x.audience.observers[i]? = some observer) (hidle : x.busy i = none)
    (hqueue : observer.queue = event :: queue) : (x.take i).busy i = some event := by
  simp only [take, hidle, Audience.take, hplace, Option.bind_some, Observer.take, hqueue,
    Function.update_self]

theorem collapse_of_busy {event : Event} (h : x.busy i = some event) :
    x.collapse i = { x.finish i with audience := x.audience.collapse i } := by
  unfold collapse
  rw [h]

/-- Whoever panics in the call is gone with it. -/
theorem post_collapsed {event : Event} (h : x.post? i = some p) (hevent : p.busy = some event) :
    (x.collapse i).post? i = some { p with
      observer := p.observer.collapse, busy := none, handled := p.handled ++ [event] } := by
  obtain ⟨hplace, hbusy, hhandled, hqueued⟩ := getElem?_of_post? h
  rw [hbusy] at hevent
  have hgone : (x.audience.collapse i).observers[i]? = some p.observer.collapse := by
    rw [Audience.getElem?_collapse, hplace]
    exact congrArg some (if_pos rfl)
  rw [collapse_of_busy hevent,
    post?_of_getElem? (x := { x.finish i with audience := x.audience.collapse i }) hgone,
    hhandled, hqueued]
  show some (Post.mk _ (Function.update x.busy i none i)
    (Function.update x.handled i (x.handled i ++ (x.busy i).toList) i) _) = _
  rw [Function.update_self, Function.update_self, hevent]
  rfl

theorem post_collapse (h : x.post? i = some p) (j : Nat) :
    ∃ q, (x.collapse j).post? i = some q ∧ p.Change q ∧
      (q.observer.alive = p.observer.alive ∨ j = i) := by
  obtain ⟨hplace, hbusy, -, -⟩ := getElem?_of_post? h
  cases hevent : x.busy j with
  | none =>
    have hsame : x.collapse j = x := by
      unfold collapse
      rw [hevent]
    rw [hsame]
    exact ⟨p, h, .nothing, .inl rfl⟩
  | some event =>
    by_cases hj : j = i
    · subst hj
      have hworks := hbusy.trans hevent
      exact ⟨_, post_collapsed h hworks, .collapsed event hworks, .inr rfl⟩
    · rw [collapse_of_busy hevent]
      refine ⟨p, post?_aside h ?_ ?_ ?_ rfl, .nothing, .inl rfl⟩
      · show (x.audience.collapse j).observers[i]? = _
        rw [Audience.getElem?_collapse, hplace]
        exact congrArg some (if_neg hj)
      · exact Function.update_of_ne (Ne.symm hj) _ _
      · exact Function.update_of_ne (Ne.symm hj) _ _

/-- A step does one of a few things to an observer, and only a panic in the call ends it. -/
theorem post_turn (h : x.post? i = some p) (turn : Turn) :
    ∃ q, (x.turn turn).post? i = some q ∧ p.Change q ∧
      (q.observer.alive = p.observer.alive ∨ turn = .collapse i) := by
  have hmove : ∀ move, ∃ q, (x.step move).post? i = some q ∧ p.Change q ∧
      q.observer.alive = p.observer.alive := by
    intro move
    cases move with
    | emit event => exact ⟨p, h, .nothing, rfl⟩
    | offer k => exact post_offer h k
    | take j => exact post_take h j
    | finish j => exact post_finish h j
    | panic j payload => exact post_panic h j payload
  cases turn with
  | move move =>
    obtain ⟨q, hq, change, halive⟩ := hmove move
    exact ⟨q, hq, change, .inl halive⟩
  | collapse j =>
    obtain ⟨q, hq, change, halive⟩ := post_collapse h j
    exact ⟨q, hq, change, halive.imp_right (congrArg Turn.collapse)⟩

/-! ## 3. What a run does to an observer -/

/-- The observer at the place `i` has the name of its seat. -/
def Seated (x : Crowd) (i : Nat) (seat : String × Nat) (p : Post) : Prop :=
  x.post? i = some p ∧ p.observer.name = seat.1

theorem post_start (slots : Nat) {seat : String × Nat} (h : seats[i]? = some seat) :
    ∃ p, (start slots seats).Seated i seat p ∧ p.Serves seat := by
  have hplace : (start slots seats).audience.observers[i]? =
      some (Observer.ofCapacity seat.1 seat.2) := by
    show (seats.map fun seat => Observer.ofCapacity seat.1 seat.2)[i]? = _
    rw [List.getElem?_map, h]
    rfl
  exact ⟨_, ⟨post?_of_getElem? hplace, rfl⟩, rfl, rfl, rfl⟩

/-- An observer that never panics in a call works off what is queued for it. -/
theorem serves_endure {seat : String × Nat} (turns : List Turn) (hnever : .collapse i ∉ turns)
    (seated : x.Seated i seat p) (serves : p.Serves seat) :
    ∃ q, (x.endure turns).Seated i seat q ∧ q.Serves seat := by
  induction turns generalizing x p with
  | nil => exact ⟨p, seated, serves⟩
  | cons turn turns ih =>
    rw [List.mem_cons, not_or] at hnever
    obtain ⟨q, hq, change, halive⟩ := post_turn seated.1 turn
    have hstill : q.observer.alive = true :=
      (halive.resolve_right (Ne.symm hnever.1)).trans serves.alive
    exact ih hnever.2 ⟨hq, change.name.trans seated.2⟩ (serves.change change hstill)

theorem seated_endure {seat : String × Nat} (turns : List Turn) (seated : x.Seated i seat p) :
    ∃ q, (x.endure turns).Seated i seat q := by
  induction turns generalizing x p with
  | nil => exact ⟨p, seated⟩
  | cons turn turns ih =>
    obtain ⟨q, hq, change, -⟩ := post_turn seated.1 turn
    exact ih ⟨hq, change.name.trans seated.2⟩

theorem gone_endure {seat : String × Nat} (turns : List Turn) (seated : x.Seated i seat p)
    (gone : p.Gone) : ∃ q, (x.endure turns).Seated i seat q ∧ q.Gone ∧
      q.handled = p.handled ∧ q.queued = p.queued := by
  induction turns generalizing x p with
  | nil => exact ⟨p, seated, gone, rfl, rfl⟩
  | cons turn turns ih =>
    obtain ⟨q, hq, change, -⟩ := post_turn seated.1 turn
    obtain ⟨hgone, hhandled, hqueued⟩ := gone.change change
    obtain ⟨r, hr, hlast, hrhandled, hrqueued⟩ := ih ⟨hq, change.name.trans seated.2⟩ hgone
    exact ⟨r, hr, hlast, hrhandled.trans hhandled, hrqueued.trans hqueued⟩

theorem Seated.fate {seat : String × Nat} (seated : x.Seated i seat p) (serves : p.Serves seat)
    (event : Event) : p.observer.fate event = due seat p.observer.queue.length event := by
  unfold Observer.fate due
  rw [serves.alive, serves.capacity, seated.2]
  simp only [Event.about?_iff]
  rfl

theorem Seated.fate_gone {seat : String × Nat} (seated : x.Seated i seat p) (gone : p.Gone)
    (event : Event) : p.observer.fate event =
      if event.isReport = true ∧ event.name = some seat.1 then .skipped else .lost "closed" := by
  unfold Observer.fate
  rw [gone.alive, seated.2]
  simp only [Event.about?_iff]
  rfl

/-! ## 4. What is told of panics -/

/-- What is to be published of a panic at work. -/
def Panic.told (seats : List (String × Nat)) (panic : Panic) : List Event :=
  (seats[panic.place]?).toList.flatMap fun seat =>
    panicReports seat.1 panic.event panic.payload

/-- Everybody is in his place, and the bus has what was published. -/
structure Placed (seats : List (String × Nat)) (x : Crowd) : Prop where
  bus : x.audience.bus.Keeps x.published
  names : x.audience.observers.map (·.name) = seats.map Prod.fst

theorem placed_start (slots : Nat) (seats : List (String × Nat)) :
    (start slots seats).Placed seats where
  bus := Ring.keeps_ofCapacity _
  names := by
    show (seats.map _).map _ = _
    rw [List.map_map]
    rfl

theorem step_panic {event : Event} (hplace : x.audience.observers[i]? = some observer)
    (hbusy : x.busy i = some event) (payload : Payload) :
    x.step (.panic i payload) = { x.finish i with
      audience := (panicReports observer.name event payload).foldl Audience.announce x.audience
      published := x.published ++ panicReports observer.name event payload } := by
  unfold panicReports
  simp only [step, panic, hbusy, hplace, Option.bind_some, Observer.panicReport?]
  cases event.isReport with
  | true =>
    simp only [if_true, List.append_nil]
    rfl
  | false => rfl

theorem Placed.aside (placed : x.Placed seats) (hbus : y.audience.bus = x.audience.bus)
    (hpublished : y.published = x.published)
    (hnames : y.audience.observers.map (·.name) = x.audience.observers.map (·.name)) :
    y.Placed seats where
  bus := by rw [hbus, hpublished]; exact placed.bus
  names := hnames.trans placed.names

/-- A step that publishes nothing and is no panic at work. -/
theorem Placed.quiet {turn : Turn} (placed : x.Placed seats) (hpanic : x.panicked? turn = none)
    (hbus : y.audience.bus = x.audience.bus) (hpublished : y.published = x.published)
    (hnames : y.audience.observers.map (·.name) = x.audience.observers.map (·.name)) :
    y.Placed seats ∧ ∃ more, y.published = x.published ++ more ∧
      more.filter (fun event => event.kind = .subscriberPanicked) =
        (x.panicked? turn).toList.flatMap (Panic.told seats) := by
  refine ⟨placed.aside hbus hpublished hnames, [], ?_, ?_⟩
  · rw [hpublished, List.append_nil]
  · rw [hpanic]
    rfl

theorem filter_report (observer : Observer) (event : Event) :
    (observer.report? event).toList.filter (fun event => event.kind = .subscriberPanicked) =
      [] := by
  unfold Observer.report?
  split
  · split <;> rfl
  · rfl

theorem placed_offer (placed : x.Placed seats) (k : Nat) :
    (x.offer k).Placed seats ∧ ∃ more, (x.offer k).published = x.published ++ more ∧
      more.filter (fun event => event.kind = .subscriberPanicked) = [] := by
  unfold offer
  split
  · exact ⟨placed, [], (List.append_nil _).symm, rfl⟩
  · next call hcall =>
    split
    · exact ⟨placed, [], (List.append_nil _).symm, rfl⟩
    · next observer hplace =>
      refine ⟨⟨?_, ?_⟩, _, rfl, filter_report observer call.event⟩
      · rw [Audience.offerAt_of_getElem? hplace]
        exact Audience.keeps_announces _ placed.bus
      · rw [observers_offerAt hplace]
        exact (Relay.names_set hplace (Relay.queue_offer observer call.event).1).trans placed.names

theorem names_take (x : Crowd) (i : Nat) :
    (x.take i).audience.bus = x.audience.bus ∧ (x.take i).published = x.published ∧
      (x.take i).audience.observers.map (·.name) = x.audience.observers.map (·.name) := by
  unfold take
  split
  · next audience event hidle htake =>
    rcases x.audience.take_cases i with hnothing | ⟨observer, first, queue, hplace, -, hcase⟩
    · rw [htake] at hnothing
      exact absurd rfl (hnothing event)
    · cases hcase.symm.trans htake
      exact ⟨rfl, rfl, Relay.names_set hplace rfl⟩
  · exact ⟨rfl, rfl, rfl⟩

theorem placed_panic (placed : x.Placed seats) (i : Nat) (payload : Payload) :
    (x.step (.panic i payload)).Placed seats ∧
      ∃ more, (x.step (.panic i payload)).published = x.published ++ more ∧
        more.filter (fun event => event.kind = .subscriberPanicked) =
          (x.panicked? (.move (.panic i payload))).toList.flatMap (Panic.told seats) := by
  have hseat : (x.audience.observers[i]?).map (·.name) = (seats[i]?).map Prod.fst := by
    rw [← List.getElem?_map, placed.names, List.getElem?_map]
  cases hbusy : x.busy i with
  | none =>
    have hidle : x.step (.panic i payload) = x := by simp only [step, panic, hbusy]
    rw [hidle]
    exact placed.quiet (by rw [panicked?, hbusy]; rfl) rfl rfl rfl
  | some event =>
    have hpanicked : x.panicked? (.move (.panic i payload)) = some ⟨i, event, payload⟩ := by
      rw [panicked?, hbusy]
      rfl
    rw [hpanicked]
    cases hplace : x.audience.observers[i]? with
    | none =>
      -- Nobody sits there who could be told of.
      rw [hplace] at hseat
      have hnobody : seats[i]? = none := Option.map_eq_none_iff.mp hseat.symm
      have hfinish : x.step (.panic i payload) = x.finish i := by
        simp only [step, panic, hbusy, hplace, Option.bind_none]
      rw [hfinish]
      refine ⟨placed.aside rfl rfl rfl, [], (List.append_nil _).symm, ?_⟩
      simp [Panic.told, hnobody]
    | some observer =>
      rw [hplace] at hseat
      obtain ⟨seat, hseat, hname⟩ := Option.map_eq_some_iff.mp hseat.symm
      rw [step_panic hplace hbusy]
      refine ⟨⟨Audience.keeps_announces _ placed.bus, ?_⟩, _, rfl, ?_⟩
      · show (Audience.observers (List.foldl _ _ _)).map _ = _
        rw [Audience.observers_announces]
        exact placed.names
      · simp only [Option.toList_some, List.flatMap_singleton, Panic.told, hseat, hname]
        unfold panicReports
        split <;> rfl

/-- What is published of panics is what is to be published of them. -/
theorem placed_turn (placed : x.Placed seats) (turn : Turn) :
    (x.turn turn).Placed seats ∧ ∃ more, (x.turn turn).published = x.published ++ more ∧
      more.filter (fun event => event.kind = .subscriberPanicked) =
        (x.panicked? turn).toList.flatMap (Panic.told seats) := by
  cases turn with
  | move move =>
    cases move with
    | emit event => exact placed.quiet rfl rfl rfl rfl
    | offer k => exact placed_offer placed k
    | take i =>
      obtain ⟨hbus, hpublished, hnames⟩ := names_take x i
      exact placed.quiet rfl hbus hpublished hnames
    | finish i => exact placed.quiet rfl rfl rfl rfl
    | panic i payload => exact placed_panic placed i payload
  | collapse i =>
    simp only [turn, collapse]
    split
    · exact placed.quiet rfl rfl rfl rfl
    · exact placed.quiet rfl rfl rfl (Audience.names_collapse x.audience i)

theorem placed_endure (placed : x.Placed seats) (turns : List Turn) :
    (x.endure turns).Placed seats ∧ ∃ more, (x.endure turns).published = x.published ++ more ∧
      more.filter (fun event => event.kind = .subscriberPanicked) =
        (x.panics turns).flatMap (Panic.told seats) := by
  induction turns generalizing x with
  | nil => exact ⟨placed, [], (List.append_nil _).symm, rfl⟩
  | cons turn turns ih =>
    obtain ⟨hnext, first, hfirst, htold⟩ := placed_turn placed turn
    obtain ⟨hlast, rest, hrest, hothers⟩ := ih hnext
    refine ⟨hlast, first ++ rest, ?_, ?_⟩
    · show ((x.turn turn).endure turns).published = _
      rw [hrest, hfirst, List.append_assoc]
    · show _ = ((x.panicked? turn).toList ++ (x.turn turn).panics turns).flatMap _
      rw [List.filter_append, List.flatMap_append, htold, hothers]

end Crowd

/-- Whatever is emitted when and by how many calls at once, and however the observers take, finish
and panic: what is published of panics is one report for each panic of an observer at work on an
event that is no report itself, with its name and what it panicked with, in order.  Such a panic
takes away nothing but the event: as long as an observer never panics in the call that hands an
event to it, what it has handled, what it is at work on and what waits for it are together what was
queued for it, in order, whatever comes next to it is queued as long as there is room, and an
observer that is not at work can take what waits for it.  A panic in the call is not told.  The
observer is gone then, with all that waits for it, and whatever comes to it later is lost. -/
theorem panic_at_work_is_isolated (slots : Nat) (seats : List (String × Nat))
    (turns : List Crowd.Turn) :
    let start := Crowd.start slots seats
    let x := start.endure turns
    x.audience.bus.Keeps x.published ∧
    x.published.filter (fun event => event.kind = .subscriberPanicked) =
      (start.panics turns).flatMap (fun panic => (seats[panic.place]?).toList.flatMap fun seat =>
        Crowd.panicReports seat.1 panic.event panic.payload) ∧
    ∀ i seat, seats[i]? = some seat → ∃ observer, x.audience.observers[i]? = some observer ∧
      (∀ event payload, x.busy i = some event →
        let told := Crowd.panicReports seat.1 event payload
        x.turn (.move (.panic i payload)) = { x with
          audience := told.foldl Audience.announce x.audience
          busy := Function.update x.busy i none
          handled := Function.update x.handled i (x.handled i ++ [event])
          published := x.published ++ told }) ∧
      (∀ event queue, x.busy i = none → observer.queue = event :: queue →
        (x.turn (.move (.take i))).busy i = some event) ∧
      (.collapse i ∉ turns →
        x.handled i ++ (x.busy i).toList ++ observer.queue = x.queuedFor i ∧
        ∀ event, observer.fate event = Crowd.due seat observer.queue.length event) ∧
      (∀ event, x.busy i = some event →
        (x.turn (.collapse i)).published = x.published ∧
        ∀ more, let y := (x.turn (.collapse i)).endure more
          y.handled i = x.handled i ++ [event] ∧ y.busy i = none ∧
          y.queuedFor i = x.queuedFor i ∧
          ∃ gone, y.audience.observers[i]? = some gone ∧ gone.queue = [] ∧
            ∀ event, gone.fate event =
              if event.isReport = true ∧ event.name = some seat.1 then .skipped
              else .lost "closed") := by
  intro start x
  obtain ⟨placed, more, hpublished, htold⟩ :=
    Crowd.placed_endure (Crowd.placed_start slots seats) turns
  refine ⟨placed.bus, ?_, ?_⟩
  · have hall : x.published = more := hpublished
    rw [hall]
    exact htold
  · intro i seat hseat
    obtain ⟨p, hstart, hserves⟩ := Crowd.post_start slots hseat
    obtain ⟨q, hseated⟩ := Crowd.seated_endure turns hstart
    obtain ⟨hplace, hbusy, hhandled, hqueued⟩ := Crowd.getElem?_of_post? hseated.1
    refine ⟨q.observer, hplace, ?_, ?_, ?_, ?_⟩
    · intro event payload hevent
      have hpanic := Crowd.step_panic hplace hevent payload
      rw [hseated.2, Crowd.finish] at hpanic
      rw [hevent] at hpanic
      exact hpanic
    · intro event queue hidle hqueue
      exact Crowd.busy_take hplace hidle hqueue
    · intro hnever
      obtain ⟨r, hr, hworks⟩ := Crowd.serves_endure turns hnever hstart hserves
      obtain rfl : q = r := Option.some.inj (hseated.1.symm.trans hr.1)
      exact ⟨hbusy ▸ hhandled ▸ hqueued ▸ hworks.conserved, hr.fate hworks⟩
    · intro event hevent
      have hcollapsed := Crowd.post_collapsed hseated.1 (hbusy.trans hevent)
      have hgone : Crowd.Post.Gone { q with
          observer := q.observer.collapse, busy := none, handled := q.handled ++ [event] } :=
        ⟨rfl, rfl, rfl⟩
      refine ⟨by rw [Crowd.turn, Crowd.collapse_of_busy hevent]; rfl, fun more => ?_⟩
      obtain ⟨r, hr, hlast, hrhandled, hrqueued⟩ :=
        Crowd.gone_endure more ⟨hcollapsed, hseated.2⟩ hgone
      obtain ⟨hrplace, hrbusy, hrhandled', hrqueued'⟩ := Crowd.getElem?_of_post? hr.1
      refine ⟨?_, hrbusy ▸ hlast.busy, ?_, r.observer, hrplace, hlast.queue, hr.fate_gone hlast⟩
      · rw [← hhandled]
        exact hrhandled'.symm.trans hrhandled
      · rw [← hqueued]
        exact hrqueued'.symm.trans hrqueued

/-- An observer that panics on the first of three events, then in the call on the second one. -/
theorem panic_at_work_is_isolated_twice :
    let turns : List Crowd.Turn :=
      [.move (.emit { kind := .machineTick }), .move (.offer 0),
        .move (.emit { kind := .loopStopped }), .move (.offer 1),
        .move (.emit { kind := .loopFailed }), .move (.offer 2),
        .move (.take 0), .move (.panic 0 (.text "boom")), .move (.take 0)]
    let x := (Crowd.start 4 [("a", 3)]).endure turns
    x.published = [.panicOf "a" "boom"] ∧ x.busy 0 = some { kind := .loopStopped } ∧
      (x.turn (.collapse 0)).published = [.panicOf "a" "boom"] ∧
      ∀ more, ((x.turn (.collapse 0)).endure more).handled 0 =
        [{ kind := .machineTick }, { kind := .loopStopped }] := by
  intro turns x
  have hbusy : x.busy 0 = some { kind := .loopStopped } := by decide +kernel
  have hpublished : x.published = [.panicOf "a" "boom"] := by decide +kernel
  have hhandled : x.handled 0 = [{ kind := .machineTick }] := by decide +kernel
  obtain ⟨-, -, hplaces⟩ := panic_at_work_is_isolated 4 [("a", 3)] turns
  obtain ⟨observer, -, -, -, -, hgone⟩ := hplaces 0 ("a", 3) rfl
  obtain ⟨hsilent, hlater⟩ := hgone _ hbusy
  refine ⟨hpublished, hbusy, hsilent.trans hpublished, fun more => ?_⟩
  rw [(hlater more).1]
  exact congrArg (· ++ [_]) hhandled

end Sequencer
