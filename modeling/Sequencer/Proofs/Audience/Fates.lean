import Sequencer.Proofs.Audience.Delivery

/-!
# Fates — what becomes of an event that is emitted to observers

A call that emits an event comes to one observer after the other, and never waits for any of them.
Several calls may be under way at once, and the observers go on with their work meanwhile: they
take, they finish, and they panic on what they have taken.  Every call leaves every observer with
one offer, and the room in the queue of that observer alone decides what becomes of it.
-/

namespace Sequencer

/-! ## 1. One offer after the other -/

namespace Audience

/-- An event is offered to the observer at the place `i`, and a loss is told on the bus. -/
def offerAt (audience : Audience) (event : Event) (i : Nat) : Audience :=
  match audience.observers[i]? with
  | none => audience
  | some observer =>
    (observer.report? event).toList.foldl announce
      { audience with observers := audience.observers.set i (observer.offer event) }

theorem offerAt_of_getElem? {audience : Audience} {i : Nat} {observer : Observer}
    (h : audience.observers[i]? = some observer) (event : Event) :
    audience.offerAt event i = (observer.report? event).toList.foldl announce
      { audience with observers := audience.observers.set i (observer.offer event) } := by
  unfold offerAt
  rw [h]

theorem observers_announces (events : List Event) (audience : Audience) :
    (events.foldl announce audience).observers = audience.observers := by
  induction events generalizing audience with
  | nil => rfl
  | cons event events ih => exact ih (audience.announce event)

theorem keeps_announces {log : List Event} (events : List Event) {audience : Audience}
    (keeps : audience.bus.Keeps log) :
    (events.foldl announce audience).bus.Keeps (log ++ events) := by
  induction events generalizing audience log with
  | nil => rwa [List.append_nil]
  | cons event events ih =>
    have hsent : (audience.announce event).bus.Keeps (log ++ [event]) := Ring.keeps_send keeps event
    have hrest := ih hsent
    rwa [List.append_assoc] at hrest

theorem with_announces (events : List Event) (audience : Audience) (observers : List Observer) :
    { events.foldl announce audience with observers } =
      events.foldl announce { audience with observers } := by
  induction events generalizing audience with
  | nil => rfl
  | cons event events ih => exact ih (audience.announce event)

theorem length_offerAt (audience : Audience) (event : Event) (i : Nat) :
    (audience.offerAt event i).observers.length = audience.observers.length := by
  unfold offerAt
  split
  · rfl
  · rw [observers_announces]
    exact List.length_set

theorem offers_rest {audience : Audience} {ready rest : List Observer} (event : Event)
    (h : audience.observers = ready ++ rest) :
    (List.range' ready.length rest.length).foldl (·.offerAt event ·) audience =
      (rest.filterMap (·.report? event)).foldl announce
        { audience with observers := ready ++ rest.map (·.offer event) } := by
  induction rest generalizing audience ready with
  | nil =>
    rw [List.map_nil, ← h]
    rfl
  | cons observer rest ih =>
    -- The observer at the head has its offer, and then counts among those that are ready.
    have hplace : audience.observers[ready.length]? = some observer := by
      rw [h, List.getElem?_append_right (Nat.le_refl _), Nat.sub_self]
      rfl
    have hset : audience.observers.set ready.length (observer.offer event) =
        (ready ++ [observer.offer event]) ++ rest := by
      rw [h, List.set_append_right _ _ (Nat.le_refl _), Nat.sub_self, List.set_cons_zero,
        List.append_assoc, List.singleton_append]
    have hnext : (audience.offerAt event ready.length).observers =
        (ready ++ [observer.offer event]) ++ rest := by
      rw [offerAt_of_getElem? hplace, observers_announces]
      exact hset
    have hlength : (ready ++ [observer.offer event]).length = ready.length + 1 := by
      rw [List.length_append, List.length_singleton]
    have hreports : (observer :: rest).filterMap (·.report? event) =
        (observer.report? event).toList ++ rest.filterMap (·.report? event) := by
      rw [List.filterMap_cons]
      cases observer.report? event <;> rfl
    have hrest := ih hnext
    rw [hlength] at hrest
    rw [List.length_cons, List.range'_succ, List.foldl_cons, hrest, hreports, List.foldl_append,
      offerAt_of_getElem? hplace, with_announces, List.map_cons, List.append_assoc,
      List.singleton_append]

/-- If nothing happens between its offers, a call comes to what an audience does in one go. -/
theorem offerAt_all (audience : Audience) (event : Event) :
    (List.range audience.observers.length).foldl (·.offerAt event ·) audience =
      audience.offer event := by
  have hall : audience.observers = [] ++ audience.observers := rfl
  have h := offers_rest event hall
  rwa [List.length_nil, ← List.range_eq_range'] at h

theorem take_cases (audience : Audience) (i : Nat) :
    (∀ event, (audience.take i).2 ≠ .handle event) ∨
      ∃ observer event queue, audience.observers[i]? = some observer ∧
        observer.queue = event :: queue ∧
        audience.take i =
          ({ audience with observers := audience.observers.set i { observer with queue } },
            .handle event) := by
  unfold take
  cases hfound : audience.observers[i]?.bind Observer.take with
  | none =>
    left
    intro event
    cases audience.dismissed <;> exact nofun
  | some found =>
    right
    obtain ⟨observer, hplace, htake⟩ := Option.bind_eq_some_iff.mp hfound
    unfold Observer.take at htake
    split at htake
    · cases htake
    · next event queue hqueue =>
      cases htake
      exact ⟨observer, event, queue, hplace, hqueue, rfl⟩

end Audience

/-! ## 2. Calls and observers -/

namespace Crowd

/-- A call that emits an event. -/
structure Call where
  event : Event
  /-- The place of the observer that it comes to next. -/
  next : Nat := 0
  deriving DecidableEq

/-- An offer that a call made. -/
structure Offer where
  call : Nat
  place : Nat
  event : Event
  fate : Observer.Fate

end Crowd

/-- Observers, the calls that emit events to them, and what became of the events. -/
structure Crowd where
  audience : Audience
  calls : List Crowd.Call := []
  /-- The events on which the observers are at work, by their places. -/
  busy : Nat → Option Event := fun _ => none
  /-- The events on which they have finished their work or panicked. -/
  handled : Nat → List Event := fun _ => []
  /-- Everything that was published, in order. -/
  published : List Event := []
  /-- Every offer, in order. -/
  offers : List Crowd.Offer := []

namespace Crowd

/-- Observers of these names and capacities, on a bus with room for `slots` events. -/
def start (slots : Nat) (seats : List (String × Nat)) : Crowd :=
  { audience := Audience.ofObservers slots
      (seats.map fun seat => Observer.ofCapacity seat.1 seat.2) }

def emit (x : Crowd) (event : Event) : Crowd := { x with calls := x.calls ++ [{ event }] }

/-- The call `k` comes to its next observer; one that has come to all of them is over. -/
def offer (x : Crowd) (k : Nat) : Crowd :=
  match x.calls[k]? with
  | none => x
  | some call =>
    match x.audience.observers[call.next]? with
    | none => x
    | some observer =>
      { x with
        audience := x.audience.offerAt call.event call.next
        calls := x.calls.set k { call with next := call.next + 1 }
        published := x.published ++ (observer.report? call.event).toList
        offers := x.offers ++ [⟨k, call.next, call.event, observer.fate call.event⟩] }

def take (x : Crowd) (i : Nat) : Crowd :=
  match x.busy i, x.audience.take i with
  | none, (audience, .handle event) =>
    { x with audience, busy := Function.update x.busy i (some event) }
  | _, _ => x

def finish (x : Crowd) (i : Nat) : Crowd :=
  { x with
    busy := Function.update x.busy i none
    handled := Function.update x.handled i (x.handled i ++ (x.busy i).toList) }

/-- The work of the observer at the place `i` panics, and it goes on with the next event. -/
def panic (x : Crowd) (i : Nat) (payload : Payload) : Crowd :=
  match x.busy i with
  | none => x
  | some event =>
    match x.audience.observers[i]?.bind fun observer => observer.panicReport? event payload with
    | some report =>
      { x.finish i with
        audience := x.audience.announce report
        published := x.published ++ [report] }
    | none => x.finish i

inductive Move where
  | emit (event : Event)
  | offer (k : Nat)
  | take (i : Nat)
  | finish (i : Nat)
  | panic (i : Nat) (payload : Payload)

/-- A step; one that cannot be taken changes nothing. -/
def step (x : Crowd) : Move → Crowd
  | .emit event => x.emit event
  | .offer k => x.offer k
  | .take i => x.take i
  | .finish i => x.finish i
  | .panic i payload => x.panic i payload

def run (x : Crowd) (moves : List Move) : Crowd := moves.foldl step x

/-! ## 3. What is due -/

/-- What is to become of an event for an observer of this name and capacity, if that many events
wait for it. -/
def due (seat : String × Nat) (waiting : Nat) (event : Event) : Observer.Fate :=
  if event.isReport = true ∧ event.name = some seat.1 then .skipped
  else if waiting < max seat.2 1 then .queued
  else .lost "full"

/-- What is to be published of an event with this fate. -/
def reports (seat : String × Nat) (event : Event) (fate : Observer.Fate) : List Event :=
  if fate = .lost "full" ∧ event.isOverflow = false then [.overflowOf seat.1 "full"] else []

/-- The events that were queued for the observer at the place `i`, in order. -/
def queuedFor (x : Crowd) (i : Nat) : List Event :=
  (x.offers.filter fun offer => offer.place = i ∧ offer.fate = .queued).map (·.event)

/-- The call `k` has come to the observer at the place `i`. -/
def Passed (x : Crowd) (k i : Nat) : Prop := ∃ call, x.calls[k]? = some call ∧ i < call.next

variable {x y : Crowd} {seats : List (String × Nat)}

/-- Every observer is the one that was seated, and every offer is accounted for. -/
structure Fair (seats : List (String × Nat)) (x : Crowd) : Prop where
  bus : x.audience.bus.Keeps x.published
  seated : x.audience.observers.map (fun observer =>
    (observer.name, observer.capacity, observer.alive)) =
      seats.map fun seat => (seat.1, max seat.2 1, true)
  known : ∀ offer ∈ x.offers, ∃ call, x.calls[offer.call]? = some call ∧
    call.event = offer.event ∧ offer.place < call.next
  once : ∀ k call, x.calls[k]? = some call → ∀ i,
    x.offers.countP (fun offer => offer.call = k ∧ offer.place = i) =
      if i < call.next then 1 else 0
  conserved : ∀ i observer, x.audience.observers[i]? = some observer →
    x.handled i ++ (x.busy i).toList ++ observer.queue = x.queuedFor i
  reported : x.published.filter (·.isOverflow) = x.offers.flatMap fun offer =>
    (seats[offer.place]?).toList.flatMap fun seat => reports seat offer.event offer.fate

theorem fair_start (slots : Nat) (seats : List (String × Nat)) :
    (start slots seats).Fair seats where
  bus := Ring.keeps_ofCapacity _
  seated := by
    show (seats.map _).map _ = _
    rw [List.map_map]
    rfl
  known _ h := by cases h
  once _ _ h := by cases h
  conserved i observer h := by
    replace h : (seats.map fun seat => Observer.ofCapacity seat.1 seat.2)[i]? = some observer := h
    rw [List.getElem?_map, Option.map_eq_some_iff] at h
    obtain ⟨seat, -, rfl⟩ := h
    rfl
  reported := rfl

theorem Fair.fate (fair : x.Fair seats) {i : Nat} {observer : Observer}
    (hplace : x.audience.observers[i]? = some observer) :
    ∃ seat, seats[i]? = some seat ∧ observer.name = seat.1 ∧
      ∀ event, observer.fate event = due seat observer.queue.length event := by
  have hseat := congrArg (·[i]?) fair.seated
  simp only [List.getElem?_map, hplace, Option.map_some] at hseat
  obtain ⟨seat, hseat, hsame⟩ := Option.map_eq_some_iff.mp hseat.symm
  obtain ⟨hname, hcapacity, halive⟩ : seat.1 = observer.name ∧ max seat.2 1 = observer.capacity ∧
      true = observer.alive := by
    simpa using hsame
  refine ⟨seat, hseat, hname.symm, fun event => ?_⟩
  -- Nobody dies here, so what is left of the fate is the name and the room in the queue.
  unfold Observer.fate due
  rw [← halive, ← hcapacity, ← hname]
  simp only [Event.about?_iff]
  rfl

theorem due_cases (seat : String × Nat) (waiting : Nat) (event : Event) :
    due seat waiting event = .skipped ∨ due seat waiting event = .queued ∨
      due seat waiting event = .lost "full" := by
  unfold due
  split
  · exact .inl rfl
  · split
    · exact .inr (.inl rfl)
    · exact .inr (.inr rfl)

theorem report_of_fate {seat : String × Nat} {observer : Observer} {event : Event}
    (hname : observer.name = seat.1)
    (hfate : observer.fate event = due seat observer.queue.length event) :
    (observer.report? event).toList =
      reports seat event (due seat observer.queue.length event) := by
  unfold Observer.report? reports
  rw [hfate, hname]
  rcases due_cases seat observer.queue.length event with h | h | h
  · rw [h]
    rfl
  · rw [h]
    rfl
  · rw [h]
    cases event.isOverflow <;> rfl

theorem offer_of_fate {seat : String × Nat} {observer : Observer} {event : Event}
    (hfate : observer.fate event = due seat observer.queue.length event) :
    observer.offer event = { observer with
      queue := observer.queue ++
        if due seat observer.queue.length event = .queued then [event] else [] } := by
  unfold Observer.offer
  rw [hfate]
  split
  · next h => rw [if_pos h]
  · next h => rw [if_neg h, List.append_nil]

/-- A call makes its next offer, unless it has made all of them. -/
theorem Fair.offer_cases (fair : x.Fair seats) (k : Nat) :
    x.offer k = x ∧ (∀ call, x.calls[k]? = some call → seats[call.next]? = none) ∨
      ∃ call seat observer, x.calls[k]? = some call ∧ seats[call.next]? = some seat ∧
        x.audience.observers[call.next]? = some observer ∧
        x.offer k =
          let fate := due seat observer.queue.length call.event
          { x with
            audience := (reports seat call.event fate).foldl Audience.announce
              { x.audience with observers := x.audience.observers.set call.next { observer with
                  queue := observer.queue ++ if fate = .queued then [call.event] else [] } }
            calls := x.calls.set k { call with next := call.next + 1 }
            published := x.published ++ reports seat call.event fate
            offers := x.offers ++ [⟨k, call.next, call.event, fate⟩] } := by
  unfold offer
  cases hcall : x.calls[k]? with
  | none =>
    simp only
    refine .inl ⟨trivial, fun call h => ?_⟩
    cases h
  | some call =>
    simp only
    cases hplace : x.audience.observers[call.next]? with
    | none =>
      -- Every seat has its observer, so the call has come to the end of the row.
      refine .inl ⟨rfl, fun other h => ?_⟩
      cases h
      have hseat := congrArg (·[call.next]?) fair.seated
      simp only [List.getElem?_map, hplace, Option.map_none] at hseat
      exact Option.map_eq_none_iff.mp hseat.symm
    | some observer =>
      obtain ⟨seat, hseat, hname, hfate⟩ := fair.fate hplace
      refine .inr ⟨call, seat, observer, rfl, hseat, hplace, ?_⟩
      simp only [Audience.offerAt_of_getElem? hplace, report_of_fate hname (hfate _),
        offer_of_fate (hfate _), hfate]

/-! ## 4. What every step keeps -/

theorem map_set_self {α β : Type} {list : List α} {i : Nat} {a b : α} {f : α → β}
    (h : list[i]? = some a) (hsame : f b = f a) : (list.set i b).map f = list.map f := by
  obtain ⟨hlt, hget⟩ := List.getElem?_eq_some_iff.mp h
  have hlt' : i < (list.map f).length := by rwa [List.length_map]
  have hkept : (list.map f)[i] = f b := by rw [List.getElem_map, hget, hsame]
  rw [List.map_set, ← hkept]
  exact List.set_getElem_self hlt'

theorem filter_reports (seat : String × Nat) (event : Event) (fate : Observer.Fate) :
    (reports seat event fate).filter (·.isOverflow) = reports seat event fate := by
  unfold reports
  split <;> rfl

theorem fair_emit (fair : x.Fair seats) (event : Event) : (x.emit event).Fair seats := by
  refine ⟨fair.bus, fair.seated, ?_, ?_, fair.conserved, fair.reported⟩
  · intro offer hoffer
    obtain ⟨call, hcall, hrest⟩ := fair.known offer hoffer
    have hlt := (List.getElem?_eq_some_iff.mp hcall).1
    exact ⟨call, (List.getElem?_append_left hlt).trans hcall, hrest⟩
  · intro k call hcall i
    replace hcall : (x.calls ++ [({ event } : Call)])[k]? = some call := hcall
    by_cases hk : k < x.calls.length
    · rw [List.getElem?_append_left hk] at hcall
      exact fair.once k call hcall i
    · -- The call has just begun, and nothing was offered in its name.
      rw [List.getElem?_append_right (Nat.le_of_not_lt hk)] at hcall
      obtain rfl : call = { event } := by
        rcases hk' : k - x.calls.length with _ | _
        · rw [hk'] at hcall
          exact (Option.some.inj hcall).symm
        · rw [hk'] at hcall
          cases hcall
      rw [if_neg (Nat.not_lt_zero _)]
      refine List.countP_eq_zero.mpr fun offer hoffer hsame => hk ?_
      obtain ⟨call, hcall, -⟩ := fair.known offer hoffer
      rw [← (of_decide_eq_true hsame).1]
      exact (List.getElem?_eq_some_iff.mp hcall).1

theorem call_advance {k m : Nat} {call other : Call} (hcall : x.calls[k]? = some call)
    (hother : x.calls[m]? = some other) :
    (x.calls.set k { call with next := call.next + 1 })[m]? =
      some { other with next := if m = k then other.next + 1 else other.next } := by
  by_cases hm : m = k
  · subst hm
    obtain rfl : call = other := Option.some.inj (hcall.symm.trans hother)
    rw [List.getElem?_set_self (List.getElem?_eq_some_iff.mp hcall).1, if_pos rfl]
  · rw [List.getElem?_set_ne (Ne.symm hm), if_neg hm, hother]

theorem fair_offer (fair : x.Fair seats) (k : Nat) : (x.offer k).Fair seats := by
  rcases fair.offer_cases k with ⟨hsame, -⟩ | ⟨call, seat, observer, hcall, hseat, hplace, hoffer⟩
  · rw [hsame]
    exact fair
  rw [hoffer]
  simp only
  generalize hfate : due seat observer.queue.length call.event = fate
  refine ⟨Audience.keeps_announces _ fair.bus, ?_, ?_, ?_, ?_, ?_⟩
  · -- The observer has its name, its capacity and its life as before.
    show (Audience.observers (List.foldl _ _ _)).map _ = _
    rw [Audience.observers_announces]
    refine (map_set_self hplace ?_).trans fair.seated
    rfl
  · intro offer hmem
    rcases List.mem_append.mp hmem with hold | hnew
    · obtain ⟨other, hother, hevent, hlt⟩ := fair.known offer hold
      refine ⟨_, call_advance hcall hother, hevent, ?_⟩
      show offer.place < if offer.call = k then other.next + 1 else other.next
      split <;> omega
    · cases List.mem_singleton.mp hnew
      refine ⟨_, call_advance hcall hcall, rfl, ?_⟩
      show call.next < if k = k then call.next + 1 else call.next
      rw [if_pos rfl]
      exact Nat.lt_succ_self _
  · -- Only the call `k` has one offer more, and only at the place to which it had come.
    intro m other hother i
    rw [List.countP_append]
    by_cases hm : m = k
    · subst hm
      obtain rfl : { call with next := call.next + 1 } = other := by
        rw [List.getElem?_set_self (List.getElem?_eq_some_iff.mp hcall).1] at hother
        exact Option.some.inj hother
      have honce := fair.once m call hcall i
      by_cases hi : call.next = i
      · subst hi
        rw [honce]
        simp
      · rw [honce]
        simp [hi]
        split <;> split <;> omega
    · replace hother : (x.calls.set k { call with next := call.next + 1 })[m]? = some other :=
        hother
      rw [List.getElem?_set_ne (Ne.symm hm)] at hother
      rw [fair.once m other hother i]
      simp [Ne.symm hm]
  · -- The event ends up behind all that the observer had, and that is where its offer stands.
    intro i other h
    replace h : (Audience.observers (List.foldl Audience.announce _ _))[i]? = some other := h
    rw [Audience.observers_announces] at h
    by_cases hi : call.next = i
    · subst hi
      rw [List.getElem?_set_self (List.getElem?_eq_some_iff.mp hplace).1] at h
      cases h
      have hkept := fair.conserved _ observer hplace
      show x.handled _ ++ (x.busy _).toList ++ (observer.queue ++ _) = _
      rw [← List.append_assoc, hkept, queuedFor, queuedFor, List.filter_append, List.map_append]
      congr 1
      by_cases hqueued : fate = .queued
      · simp [hqueued]
      · simp [hqueued]
    · rw [List.getElem?_set_ne hi] at h
      refine (fair.conserved i other h).trans ?_
      rw [queuedFor, queuedFor, List.filter_append]
      simp [hi]
  · rw [List.filter_append, filter_reports, fair.reported, List.flatMap_append]
    simp [hseat]

theorem fair_take (fair : x.Fair seats) (i : Nat) : (x.take i).Fair seats := by
  unfold take
  split
  · next audience event hbusy htake =>
    rcases x.audience.take_cases i with hnothing | ⟨observer, first, queue, hplace, hqueue, h⟩
    · rw [htake] at hnothing
      exact absurd rfl (hnothing event)
    · cases h.symm.trans htake
      -- The event changes from the queue to the hands, between what is handled and what waits.
      have hseated := (map_set_self (b := { observer with queue }) hplace rfl).trans fair.seated
      refine ⟨fair.bus, hseated, fair.known, fair.once, fun j other hother => ?_, fair.reported⟩
      by_cases hj : i = j
      · subst hj
        rw [List.getElem?_set_self (List.getElem?_eq_some_iff.mp hplace).1] at hother
        cases hother
        have hkept := fair.conserved i observer hplace
        rw [hbusy, hqueue] at hkept
        show x.handled i ++ (Function.update x.busy i (some event) i).toList ++ queue = _
        rw [Function.update_self]
        exact (by simp : _ = _).trans hkept
      · rw [List.getElem?_set_ne hj] at hother
        show x.handled j ++ (Function.update x.busy i (some event) j).toList ++ other.queue = _
        rw [Function.update_of_ne (Ne.symm hj)]
        exact fair.conserved j other hother
  · exact fair

theorem fair_finish (fair : x.Fair seats) (i : Nat) : (x.finish i).Fair seats := by
  refine ⟨fair.bus, fair.seated, fair.known, fair.once, fun j observer hplace => ?_, fair.reported⟩
  have hkept := fair.conserved j observer hplace
  show Function.update x.handled i (x.handled i ++ (x.busy i).toList) j ++
    (Function.update x.busy i none j).toList ++ observer.queue = _
  by_cases hj : j = i
  · subst hj
    rw [Function.update_self, Function.update_self, Option.toList_none, List.append_nil]
    exact hkept
  · rw [Function.update_of_ne hj, Function.update_of_ne hj]
    exact hkept

theorem fair_panic (fair : x.Fair seats) (i : Nat) (payload : Payload) :
    (x.panic i payload).Fair seats := by
  unfold panic
  split
  · exact fair
  · next event hbusy =>
    split
    · next report hreport =>
      have hfinished := fair_finish fair i
      obtain ⟨observer, -, htold⟩ := Option.bind_eq_some_iff.mp hreport
      -- A panic is no loss.
      have hkind : report.isOverflow = false := by
        unfold Observer.panicReport? at htold
        split at htold
        · cases htold
        · cases htold
          rfl
      refine ⟨Ring.keeps_send fair.bus report, hfinished.seated, hfinished.known, hfinished.once,
        hfinished.conserved, ?_⟩
      show (x.published ++ [report]).filter _ = _
      rw [List.filter_append, List.filter_cons_of_neg (by rw [hkind]; exact Bool.false_ne_true),
        List.filter_nil, List.append_nil]
      exact fair.reported
    · exact fair_finish fair i

theorem fair_step (fair : x.Fair seats) (move : Move) : (x.step move).Fair seats := by
  cases move with
  | emit event => exact fair_emit fair event
  | offer k => exact fair_offer fair k
  | take i => exact fair_take fair i
  | finish i => exact fair_finish fair i
  | panic i payload => exact fair_panic fair i payload

theorem fair_run (fair : x.Fair seats) (moves : List Move) : (x.run moves).Fair seats := by
  induction moves generalizing x with
  | nil => exact fair
  | cons move moves ih => exact ih (fair_step fair move)

/-! ## 5. The order of the offers -/

theorem offers_step (x : Crowd) (move : Move) : x.offers <+: (x.step move).offers := by
  cases move with
  | emit event => exact List.prefix_rfl
  | offer k =>
    simp only [step, offer]
    split
    · exact List.prefix_rfl
    · split
      · exact List.prefix_rfl
      · exact List.prefix_append _ _
  | take i =>
    simp only [step, take]
    split <;> exact List.prefix_rfl
  | finish i => exact List.prefix_rfl
  | panic i payload =>
    simp only [step, panic]
    split
    · exact List.prefix_rfl
    · split <;> exact List.prefix_rfl

theorem offers_run (x : Crowd) (moves : List Move) : x.offers <+: (x.run moves).offers := by
  induction moves generalizing x with
  | nil => exact List.prefix_rfl
  | cons move moves ih => exact (offers_step x move).trans (ih (x.step move))

theorem Fair.passed_iff (fair : x.Fair seats) {k i : Nat} :
    x.Passed k i ↔ ∃ offer ∈ x.offers, offer.call = k ∧ offer.place = i := by
  constructor
  · rintro ⟨call, hcall, hlt⟩
    have honce := fair.once k call hcall i
    rw [if_pos hlt] at honce
    obtain ⟨offer, hmem, hsame⟩ := List.countP_pos_iff.mp (honce ▸ Nat.one_pos)
    exact ⟨offer, hmem, of_decide_eq_true hsame⟩
  · rintro ⟨offer, hmem, rfl, rfl⟩
    obtain ⟨call, hcall, -, hlt⟩ := fair.known offer hmem
    exact ⟨call, hcall, hlt⟩

/-- If nothing happens between its offers, a call leaves the audience as one offer after the other
does. -/
theorem audience_run_offers {k next : Nat} {event : Event} (n : Nat)
    (hcall : x.calls[k]? = some ⟨event, next⟩) (hlength : next + n = x.audience.observers.length) :
    (x.run (List.replicate n (.offer k))).audience =
      (List.range' next n).foldl (·.offerAt event ·) x.audience := by
  induction n generalizing x next with
  | zero => rfl
  | succ n ih =>
    obtain ⟨observer, hplace⟩ : ∃ observer, x.audience.observers[next]? = some observer :=
      ⟨_, List.getElem?_eq_getElem (by omega)⟩
    have haudience : (x.offer k).audience = x.audience.offerAt event next := by
      unfold offer
      simp only [hcall, hplace]
    have hnext : (x.offer k).calls[k]? = some ⟨event, next + 1⟩ := by
      have hcalls : (x.offer k).calls = x.calls.set k ⟨event, next + 1⟩ := by
        unfold offer
        simp only [hcall, hplace]
      rw [hcalls, List.getElem?_set_self (List.getElem?_eq_some_iff.mp hcall).1]
    have hrest := ih hnext (by rw [haudience, Audience.length_offerAt]; omega)
    rw [haudience] at hrest
    rw [List.range'_succ, List.foldl_cons, ← hrest]
    rfl

/-- A call that nothing interrupts does what an audience does in one go. -/
theorem audience_run_call (x : Crowd) (event : Event) :
    (x.run (.emit event :: List.replicate x.audience.observers.length
      (.offer x.calls.length))).audience = x.audience.offer event := by
  have hcall : (x.emit event).calls[x.calls.length]? = some ⟨event, 0⟩ :=
    List.getElem?_concat_length
  have hrun := audience_run_offers x.audience.observers.length hcall (Nat.zero_add _)
  rw [← List.range_eq_range'] at hrun
  exact hrun.trans (Audience.offerAt_all x.audience event)

/-- What was offered before a call began was offered before what that call offers. -/
theorem Fair.precedes {after : List Move} (before : x.Fair seats) (later : (x.run after).Fair seats)
    {i k l : Nat} (hk : x.Passed k i) (hbegun : x.calls.length ≤ l)
    (hl : (x.run after).Passed l i) :
    [k, l].Sublist (((x.run after).offers.filter (·.place = i)).map (·.call)) := by
  obtain ⟨more, hmore⟩ := offers_run x after
  obtain ⟨first, hfirst, hfirstcall, hfirstplace⟩ := before.passed_iff.mp hk
  obtain ⟨second, hsecond, hsecondcall, hsecondplace⟩ := later.passed_iff.mp hl
  -- The second one was not there when its call had not begun.
  have hlater : second ∈ more := by
    rw [← hmore] at hsecond
    rcases List.mem_append.mp hsecond with hold | hnew
    · obtain ⟨call, hcall, -⟩ := before.known second hold
      have hlt := (List.getElem?_eq_some_iff.mp hcall).1
      omega
    · exact hnew
  -- So the first one stands in the part up to then, and the second one in the part since then.
  have hmem : ∀ {offer : Offer} {offers : List Offer}, offer ∈ offers → offer.place = i →
      offer.call ∈ (offers.filter (·.place = i)).map (·.call) := by
    intro offer offers hmem hplace
    exact List.mem_map_of_mem (List.mem_filter.mpr ⟨hmem, decide_eq_true hplace⟩)
  rw [← hmore, List.filter_append, List.map_append, ← hfirstcall, ← hsecondcall]
  exact (List.singleton_sublist.mpr (hmem hfirst hfirstplace)).append
    (List.singleton_sublist.mpr (hmem hlater hsecondplace))

end Crowd

/-- Whatever is emitted when and by how many calls at once, and whatever the observers do with it
meanwhile: an offer of an event to an observer skips it exactly if the event reports on that
observer, queues it if the queue then has room, and else loses it, which is told once unless the
event tells of a loss itself; nobody else is affected.  A call makes one offer to each observer that
it has come to and none to the others, and nothing else tells of a loss.  What an observer has
handled, what it is at work on and what waits for it are together the events that were queued for
it, in their order, and a call that begins after another one has come to an observer comes there
after it.  A call that nothing interrupts does what an audience does in one go. -/
theorem each_event_has_one_fate (slots : Nat) (seats : List (String × Nat))
    (before after : List Crowd.Move) :
    let w := (Crowd.start slots seats).run before
    let x := w.run after
    (∀ k event i seat, w.calls[k]? = some ⟨event, i⟩ → seats[i]? = some seat →
      ∃ observer, w.audience.observers[i]? = some observer ∧
        let fate := Crowd.due seat observer.queue.length event
        w.step (.offer k) = { w with
          audience := (Crowd.reports seat event fate).foldl Audience.announce
            { w.audience with observers := w.audience.observers.set i { observer with
                queue := observer.queue ++ if fate = .queued then [event] else [] } }
          calls := w.calls.set k ⟨event, i + 1⟩
          published := w.published ++ Crowd.reports seat event fate
          offers := w.offers ++ [⟨k, i, event, fate⟩] }) ∧
    (∀ offer ∈ x.offers, ∃ call, x.calls[offer.call]? = some call ∧ call.event = offer.event) ∧
    (∀ k call, x.calls[k]? = some call → ∀ i,
      x.offers.countP (fun offer => offer.call = k ∧ offer.place = i) =
        if i < call.next then 1 else 0) ∧
    x.audience.bus.Keeps x.published ∧
    (x.published.filter (·.isOverflow) = x.offers.flatMap fun offer =>
      (seats[offer.place]?).toList.flatMap fun seat =>
        Crowd.reports seat offer.event offer.fate) ∧
    (∀ i < seats.length, ∃ observer, x.audience.observers[i]? = some observer ∧
      x.handled i ++ (x.busy i).toList ++ observer.queue = x.queuedFor i) ∧
    (∀ i k l, w.Passed k i → w.calls.length ≤ l → x.Passed l i →
      [k, l].Sublist ((x.offers.filter (·.place = i)).map (·.call))) ∧
    ∀ event, (w.run (.emit event :: List.replicate w.audience.observers.length
      (.offer w.calls.length))).audience = w.audience.offer event := by
  intro w x
  have before : w.Fair seats := Crowd.fair_run (Crowd.fair_start slots seats) before
  have later : x.Fair seats := Crowd.fair_run before after
  refine ⟨?_, ?_, later.once, later.bus, later.reported, ?_, ?_, w.audience_run_call⟩
  · intro k event i seat hcall hseat
    rcases before.offer_cases k with ⟨-, hover⟩ | ⟨call, other, observer, hsame, hother, hplace, h⟩
    · -- A call at a seat is not over.
      cases (hover _ hcall).symm.trans hseat
    · cases hcall.symm.trans hsame
      cases hseat.symm.trans hother
      exact ⟨observer, hplace, h⟩
  · intro offer hoffer
    obtain ⟨call, hcall, hevent, -⟩ := later.known offer hoffer
    exact ⟨call, hcall, hevent⟩
  · intro i hi
    have hlength := congrArg List.length later.seated
    rw [List.length_map, List.length_map] at hlength
    obtain ⟨observer, hplace⟩ : ∃ observer, x.audience.observers[i]? = some observer :=
      ⟨_, List.getElem?_eq_getElem (hlength ▸ hi)⟩
    exact ⟨observer, hplace, later.conserved i observer hplace⟩
  · intro i k l hk hbegun hl
    exact before.precedes later hk hbegun hl

/-- Two calls overlap, and the second one finds no room where the first one has been. -/
theorem each_event_has_one_fate_overlap :
    let w := (Crowd.start 4 [("a", 0), ("b", 2)]).run
      [.emit { kind := .loopStopped }, .offer 0, .emit (.panicOf "b" "boom")]
    w.calls[1]? = some ⟨.panicOf "b" "boom", 0⟩ ∧
      (w.step (.offer 1)).published = [.overflowOf "a" "full"] := by
  intro w
  have hcall : w.calls[1]? = some ⟨.panicOf "b" "boom", 0⟩ := rfl
  obtain ⟨hfate, -⟩ := each_event_has_one_fate 4 [("a", 0), ("b", 2)]
    [.emit { kind := .loopStopped }, .offer 0, .emit (.panicOf "b" "boom")] []
  obtain ⟨observer, hplace, hstep⟩ := hfate 1 _ 0 ("a", 0) hcall rfl
  have hwaiting : w.audience.observers[0]?.map (·.queue.length) = some 1 := by decide +kernel
  rw [hplace] at hwaiting
  have hfull : observer.queue.length = 1 := Option.some.inj hwaiting
  rw [hfull] at hstep
  refine ⟨hcall, (congrArg Crowd.published hstep).trans ?_⟩
  show w.published ++ Crowd.reports ("a", 0) (.panicOf "b" "boom")
    (Crowd.due ("a", 0) 1 (.panicOf "b" "boom")) = _
  decide +kernel

end Sequencer
