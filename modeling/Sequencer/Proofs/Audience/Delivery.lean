import Sequencer.Proofs.Audience.Relay
import Sequencer.Proofs.Broadcast

/-!
# Delivery — what the observers of a host get of what is published

Every observer gets events in the order in which they were published, each at most once, and none
about itself.  Two things make it miss an event: a listener that fell behind its bus, and a queue
without room.  Without them it gets whatever the listener has taken, and a listener that is told to
stop takes everything that was published before that.
-/

namespace Sequencer

/-- The events that are not about the observer `name` itself. -/
def meantFor (name : String) (events : List Event) : List Event :=
  events.filter fun event => event.about? ≠ some name

theorem Event.about?_iff {event : Event} {name : String} :
    event.about? = some name ↔ event.isReport = true ∧ event.name = some name := by
  unfold about?
  split <;> simp [*]

theorem meantFor_append (name : String) (events more : List Event) :
    meantFor name (events ++ more) = meantFor name events ++ meantFor name more :=
  List.filter_append _ _

namespace Relay

variable {x y : Relay} {names : List String}

/-! ## 1. How far the listener is -/

/-- How many of the published events the listener has passed by, as the observer at the place `i`
sees it. -/
def reached (x : Relay) (i : Nat) : Nat :=
  match x.offering with
  | some (_, next) => if next ≤ i then x.audience.cursor - 1 else x.audience.cursor
  | none => x.audience.cursor

theorem reached_le (x : Relay) (i : Nat) : x.reached i ≤ x.audience.cursor := by
  unfold reached
  split
  · split
    · exact Nat.sub_le _ _
    · exact Nat.le_refl _
  · exact Nat.le_refl _

/-- Every observer gets, in order, events that the listener has passed by, and all of them as long
as nothing was missed and nothing was lost. -/
structure Delivers (names : List String) (x : Relay) : Prop where
  bus : x.audience.bus.Keeps x.published
  cursor : x.audience.cursor ≤ x.published.length
  offering : ∀ event next, x.offering = some (event, next) →
    ∃ n, x.audience.cursor = n + 1 ∧ x.published[n]? = some event
  names : x.audience.observers.map (·.name) = names
  order : ∀ i observer, x.audience.observers[i]? = some observer →
    (x.handed i ++ observer.queue).Sublist
      (meantFor observer.name (x.published.take (x.reached i)))
  whole : x.lagged = false → x.overflowed = false →
    ∀ i observer, x.audience.observers[i]? = some observer →
      x.handed i ++ observer.queue =
        meantFor observer.name (x.published.take (x.reached i))

theorem delivers_start (config : Config) (seats : List (String × Nat)) :
    (start config seats).Delivers (seats.map Prod.fst) where
  bus := Ring.keeps_ofCapacity _
  cursor := Nat.le_refl _
  offering _ _ h := by cases h
  names := by
    show (seats.map _).map _ = _
    rw [List.map_map]
    rfl
  order i observer h := by
    replace h : (seats.map fun seat => Observer.ofCapacity seat.1 seat.2)[i]? = some observer := h
    rw [List.getElem?_map, Option.map_eq_some_iff] at h
    obtain ⟨seat, -, rfl⟩ := h
    exact List.nil_sublist _
  whole _ _ i observer h := by
    replace h : (seats.map fun seat => Observer.ofCapacity seat.1 seat.2)[i]? = some observer := h
    rw [List.getElem?_map, Option.map_eq_some_iff] at h
    obtain ⟨seat, -, rfl⟩ := h
    rfl

/-- A step that hands nothing on keeps what was passed by. -/
theorem Delivers.keep (delivers : x.Delivers names) (more : List Event)
    (hpublished : y.published = x.published ++ more) (hbus : y.audience.bus.Keeps y.published)
    (hcursor : y.audience.cursor ≤ y.published.length)
    (hoffering : ∀ event next, y.offering = some (event, next) →
      ∃ n, y.audience.cursor = n + 1 ∧ y.published[n]? = some event)
    (hobservers : y.audience.observers = x.audience.observers) (hhanded : y.handed = x.handed)
    (hlagged : y.lagged = false → x.lagged = false)
    (hoverflowed : y.overflowed = false → x.overflowed = false)
    (hreached : ∀ i < x.audience.observers.length, y.reached i = x.reached i) :
    y.Delivers names := by
  have htake : ∀ i observer, x.audience.observers[i]? = some observer →
      y.published.take (y.reached i) = x.published.take (x.reached i) := by
    intro i observer h
    have hle : x.reached i ≤ x.published.length :=
      Nat.le_trans (x.reached_le i) delivers.cursor
    rw [hreached i (List.getElem?_eq_some_iff.mp h).1, hpublished,
      List.take_append_of_le_length hle]
  refine ⟨hbus, hcursor, hoffering, hobservers ▸ delivers.names, ?_, ?_⟩
  · intro i observer h
    rw [hobservers] at h
    rw [htake i observer h, hhanded]
    exact delivers.order i observer h
  · intro hnever hall i observer h
    rw [hobservers] at h
    rw [htake i observer h, hhanded]
    exact delivers.whole (hlagged hnever) (hoverflowed hall) i observer h

/-- So does one that leaves the listener alone. -/
theorem Delivers.aside (delivers : x.Delivers names)
    (hpublished : y.published = x.published) (hbus : y.audience.bus = x.audience.bus)
    (hcursor : y.audience.cursor = x.audience.cursor) (hoffering : y.offering = x.offering)
    (hobservers : y.audience.observers = x.audience.observers) (hhanded : y.handed = x.handed)
    (hlagged : y.lagged = x.lagged) (hoverflowed : y.overflowed = x.overflowed) :
    y.Delivers names := by
  apply delivers.keep [] (by rw [hpublished, List.append_nil])
  · rw [hbus, hpublished]
    exact delivers.bus
  · rw [hcursor, hpublished]
    exact delivers.cursor
  · rw [hcursor, hpublished, hoffering]
    exact delivers.offering
  · exact hobservers
  · exact hhanded
  · exact hlagged ▸ id
  · exact hoverflowed ▸ id
  · intro i _
    unfold reached
    rw [hoffering, hcursor]

theorem Delivers.publish (delivers : x.Delivers names) (event : Event) :
    (x.publish event).Delivers names := by
  apply delivers.keep [event] rfl (Ring.keeps_send delivers.bus event)
  · show x.audience.cursor ≤ (x.published ++ [event]).length
    rw [List.length_append]
    exact Nat.le_trans delivers.cursor (Nat.le_add_right _ _)
  · intro offered next hoffering
    obtain ⟨n, hn, hevent⟩ := delivers.offering offered next hoffering
    have hlt : n < x.published.length := (List.getElem?_eq_some_iff.mp hevent).1
    exact ⟨n, hn, (List.getElem?_append_left hlt).trans hevent⟩
  · rfl
  · rfl
  · exact id
  · exact id
  · exact fun i _ => rfl

/-! ## 2. The listener -/

theorem reached_idle (h : x.offering = none) (i : Nat) : x.reached i = x.audience.cursor := by
  unfold reached
  rw [h]

theorem delivers_find (delivers : x.Delivers names) (hnone : x.offering = none) :
    (x.find (x.audience.bus.receive x.audience.cursor)).Delivers names := by
  rw [Ring.receive_of_keeps delivers.bus]
  by_cases hbehind : x.audience.cursor < x.published.length - x.audience.bus.slots
  · -- It goes on with the oldest event that the bus still holds.
    rw [if_pos hbehind]
    refine ⟨delivers.bus, Nat.sub_le _ _, ?_, delivers.names, ?_, nofun⟩
    · intro event next hoffering
      cases hoffering.symm.trans hnone
    · intro i observer h
      have horder := delivers.order i observer h
      rw [reached_idle hnone] at horder
      have hidle : (x.find (.lagged (x.published.length - x.audience.bus.slots -
          x.audience.cursor) (x.published.length - x.audience.bus.slots))).offering = none := hnone
      rw [reached_idle hidle]
      have hpassed : (x.published.take x.audience.cursor).Sublist
          (x.published.take (x.published.length - x.audience.bus.slots)) :=
        (List.take_prefix_take_left (Nat.le_of_lt hbehind)).sublist
      exact horder.trans (hpassed.filter _)
  · rw [if_neg hbehind]
    cases hevent : x.published[x.audience.cursor]? with
    | none =>
      simp only [find]
      split
      · exact delivers
      · exact delivers.aside rfl rfl rfl rfl rfl rfl rfl rfl
    | some event =>
      have hlt : x.audience.cursor < x.published.length :=
        (List.getElem?_eq_some_iff.mp hevent).1
      have hcursor : (x.find (.message event (x.audience.cursor + 1))).audience.cursor ≤
          x.published.length := hlt
      refine delivers.keep [] (List.append_nil _).symm delivers.bus hcursor ?_ rfl rfl id id ?_
      · intro offered next hoffering
        cases hoffering
        exact ⟨_, rfl, hevent⟩
      · intro i _
        rw [reached_idle hnone]
        show (if 0 ≤ i then x.audience.cursor + 1 - 1 else x.audience.cursor + 1) = _
        rw [if_pos (Nat.zero_le i), Nat.add_sub_cancel]

theorem delivers_hear (delivers : x.Delivers names) (hnone : x.offering = none) :
    x.hear.Delivers names := by
  unfold hear
  split
  · exact delivers
  · exact delivers.aside rfl rfl rfl rfl rfl rfl rfl rfl
  · exact delivers_find delivers hnone

/-- What an observer has and what waits for it grow by an event only if it is meant for it, and lack
one that is meant for it only if it is lost. -/
theorem queue_offer (observer : Observer) (event : Event) :
    (observer.offer event).name = observer.name ∧
      ((observer.offer event).queue = observer.queue ++ meantFor observer.name [event] ∨
        (observer.offer event).queue = observer.queue ∧
          (observer.fate event).isLost = true) := by
  unfold Observer.offer
  cases hfate : observer.fate event with
  | skipped =>
    refine ⟨rfl, .inl ?_⟩
    unfold Observer.fate at hfate
    split at hfate
    · next habout => simp [meantFor, habout]
    · split at hfate
      · cases hfate
      · split at hfate <;> cases hfate
  | queued =>
    refine ⟨rfl, .inl ?_⟩
    unfold Observer.fate at hfate
    split at hfate
    · cases hfate
    · next habout => simp [meantFor, habout]
  | lost reason => exact ⟨rfl, .inr ⟨rfl, rfl⟩⟩

theorem names_set {observers : List Observer} {place : Nat} {observer next : Observer}
    (hplace : observers[place]? = some observer) (hname : next.name = observer.name) :
    (observers.set place next).map (·.name) = observers.map (·.name) := by
  obtain ⟨hlt, hget⟩ := List.getElem?_eq_some_iff.mp hplace
  have hlt' : place < (observers.map (·.name)).length := by rwa [List.length_map]
  have hsame : (observers.map (·.name))[place] = observer.name := by
    rw [List.getElem_map, hget]
  rw [List.map_set, hname, ← hsame]
  exact List.set_getElem_self hlt'

/-- A step that reaches one observer keeps what the others have. -/
theorem Delivers.replace (delivers : x.Delivers names) {place : Nat} {observer next : Observer}
    (hplace : x.audience.observers[place]? = some observer) (hname : next.name = observer.name)
    (hobservers : y.audience.observers = x.audience.observers.set place next)
    (hpublished : y.published = x.published) (hbus : y.audience.bus = x.audience.bus)
    (hcursor : y.audience.cursor = x.audience.cursor)
    (hoffering : ∀ event next, y.offering = some (event, next) →
      ∃ n, y.audience.cursor = n + 1 ∧ y.published[n]? = some event)
    (hothers : ∀ i, i ≠ place → y.handed i = x.handed i ∧ y.reached i = x.reached i)
    (hlagged : y.lagged = x.lagged) (hoverflowed : y.overflowed = false → x.overflowed = false)
    (horder : (y.handed place ++ next.queue).Sublist
      (meantFor observer.name (x.published.take (y.reached place))))
    (hwhole : y.lagged = false → y.overflowed = false →
      y.handed place ++ next.queue =
        meantFor observer.name (x.published.take (y.reached place))) : y.Delivers names := by
  have hlt : place < x.audience.observers.length := (List.getElem?_eq_some_iff.mp hplace).1
  -- What stands at a place is the observer that was reached, or one that stood there before.
  have hcases : ∀ i other, y.audience.observers[i]? = some other →
      i = place ∧ other = next ∨ i ≠ place ∧ x.audience.observers[i]? = some other := by
    intro i other h
    rw [hobservers] at h
    by_cases hi : i = place
    · rw [hi, List.getElem?_set_self hlt] at h
      exact .inl ⟨hi, (Option.some.inj h).symm⟩
    · rw [List.getElem?_set_ne (Ne.symm hi)] at h
      exact .inr ⟨hi, h⟩
  refine ⟨?_, ?_, hoffering, ?_, ?_, ?_⟩
  · rw [hbus, hpublished]
    exact delivers.bus
  · rw [hcursor, hpublished]
    exact delivers.cursor
  · rw [hobservers, names_set hplace hname, delivers.names]
  · intro i other h
    rw [hpublished]
    rcases hcases i other h with ⟨rfl, rfl⟩ | ⟨hi, hother⟩
    · rw [hname]
      exact horder
    · rw [(hothers i hi).1, (hothers i hi).2]
      exact delivers.order i other hother
  · intro hnever hall i other h
    rw [hpublished]
    rcases hcases i other h with ⟨rfl, rfl⟩ | ⟨hi, hother⟩
    · rw [hname]
      exact hwhole hnever hall
    · rw [(hothers i hi).1, (hothers i hi).2]
      exact delivers.whole (hlagged ▸ hnever) (hoverflowed hall) i other hother

theorem delivers_queue (delivers : x.Delivers names) {event : Event} {place : Nat}
    {observer : Observer} (hoffering : x.offering = some (event, place))
    (hplace : x.audience.observers[place]? = some observer) :
    (x.queue event place observer).Delivers names := by
  obtain ⟨n, hcursor, hevent⟩ := delivers.offering event place hoffering
  obtain ⟨hname, hqueue⟩ := queue_offer observer event
  have hbefore : ∀ i, x.reached i = if place ≤ i then n else n + 1 := by
    intro i
    unfold reached
    rw [hoffering, hcursor]
    rfl
  have hafter : ∀ i, (x.queue event place observer).reached i =
      if place + 1 ≤ i then n else n + 1 := by
    intro i
    show (if place + 1 ≤ i then x.audience.cursor - 1 else x.audience.cursor) = _
    rw [hcursor]
    rfl
  have hpassed : x.published.take (n + 1) = x.published.take n ++ [event] := by
    rw [List.take_add_one, hevent]
    rfl
  have hreached : (x.queue event place observer).reached place = n + 1 := by
    rw [hafter, if_neg (by omega)]
  have horder := delivers.order place observer hplace
  have hwhole := fun hnever hall => delivers.whole hnever hall place observer hplace
  rw [hbefore, if_pos (Nat.le_refl _)] at horder hwhole
  refine delivers.replace hplace hname rfl rfl rfl rfl ?_ ?_ rfl ?_ ?_ ?_
  · intro offered next h
    cases h
    exact ⟨n, hcursor, hevent⟩
  · intro i hi
    refine ⟨rfl, ?_⟩
    rw [hafter, hbefore]
    by_cases hle : place ≤ i
    · rw [if_pos hle, if_pos (by omega)]
    · rw [if_neg hle, if_neg (by omega)]
  · intro h
    exact (Bool.or_eq_false_iff.mp h).1
  · rw [hreached, hpassed, meantFor_append]
    show (x.handed place ++ (observer.offer event).queue).Sublist _
    rcases hqueue with hqueue | ⟨hqueue, -⟩
    · rw [hqueue, ← List.append_assoc]
      exact horder.append_right _
    · rw [hqueue]
      exact horder.trans (List.sublist_append_left _ _)
  · intro hnever hall
    have hkept := Bool.or_eq_false_iff.mp hall
    rw [hreached, hpassed, meantFor_append]
    show x.handed place ++ (observer.offer event).queue = _
    rcases hqueue with hqueue | ⟨hqueue, hlost⟩
    · rw [hqueue, ← List.append_assoc, hwhole hnever hkept.1]
    · cases hlost.symm.trans hkept.2

theorem delivers_offer (delivers : x.Delivers names) {event : Event} {place : Nat}
    (hoffering : x.offering = some (event, place)) : (x.offer event place).Delivers names := by
  cases hplace : x.audience.observers[place]? with
  | none =>
    -- Everybody has been offered the event.
    rw [offer_nobody hplace]
    have hlength : x.audience.observers.length ≤ place := List.getElem?_eq_none_iff.mp hplace
    refine delivers.keep (y := { x with offering := none }) [] (List.append_nil _).symm
      delivers.bus delivers.cursor ?_ rfl rfl id id ?_
    · intro offered next h
      cases h
    · intro i hi
      rw [reached_idle rfl]
      unfold reached
      rw [hoffering]
      exact (if_neg (by omega)).symm
  | some observer =>
    have hqueued := delivers_queue delivers hoffering hplace
    simp only [offer, hplace]
    split
    · exact hqueued.publish _
    · exact hqueued

theorem delivers_listen (delivers : x.Delivers names) : x.listen.Delivers names := by
  unfold listen
  split
  · next h => exact delivers_hear delivers h
  · next event place h => exact delivers_offer delivers h

/-! ## 3. The observers and the host -/

/-- An observer that is not at work takes the oldest event that waits for it. -/
theorem take_cases (x : Relay) (i : Nat) :
    x.take i = x ∨ ∃ observer event queue, x.audience.observers[i]? = some observer ∧
      observer.queue = event :: queue ∧
      x.take i = { x with
        audience := { x.audience with
          observers := x.audience.observers.set i { observer with queue } }
        busy := Function.update x.busy i (some event)
        handed := Function.update x.handed i (x.handed i ++ [event]) } := by
  cases hbusy : x.busy i with
  | some event => exact .inl (by simp only [take, hbusy])
  | none =>
    cases hplace : x.audience.observers[i]? with
    | none =>
      left
      simp only [take, hbusy, Audience.take, hplace, Option.bind_none]
      cases x.audience.dismissed <;> rfl
    | some observer =>
      cases hqueue : observer.queue with
      | nil =>
        left
        simp only [take, hbusy, Audience.take, hplace, Option.bind_some, Observer.take, hqueue]
        cases x.audience.dismissed <;> rfl
      | cons event queue =>
        right
        refine ⟨observer, event, queue, rfl, hqueue, ?_⟩
        simp only [take, hbusy, Audience.take, hplace, Option.bind_some, Observer.take, hqueue]

theorem delivers_take (delivers : x.Delivers names) (i : Nat) : (x.take i).Delivers names := by
  rcases take_cases x i with hsame | ⟨observer, event, queue, hplace, hqueue, htake⟩
  · rw [hsame]
    exact delivers
  · have horder := delivers.order i observer hplace
    have hwhole := fun hnever hall => delivers.whole hnever hall i observer hplace
    -- The event only changes from one hand to the other.
    have hmoved : (x.take i).handed i ++ queue = x.handed i ++ observer.queue := by
      rw [htake, hqueue]
      show Function.update x.handed i (x.handed i ++ [event]) i ++ queue = _
      rw [Function.update_self, List.append_assoc, List.singleton_append]
    have hname : ({ observer with queue } : Observer).name = observer.name := rfl
    rw [htake] at hmoved ⊢
    refine delivers.replace hplace hname rfl rfl rfl rfl delivers.offering ?_ rfl id ?_ ?_
    · intro j hj
      exact ⟨Function.update_of_ne hj _ _, rfl⟩
    · exact hmoved ▸ horder
    · intro hnever hall
      exact hmoved.trans (hwhole hnever hall)

theorem Delivers.stand (delivers : x.Delivers names) (standing : Standing) :
    { x with standing }.Delivers names :=
  delivers.aside rfl rfl rfl rfl rfl rfl rfl rfl

theorem delivers_step (delivers : x.Delivers names) (move : Move) :
    (x.step move).Delivers names := by
  cases move with
  | publish event => exact delivers.publish event
  | listen => exact delivers_listen delivers
  | take i => exact delivers_take delivers i
  | finish i => exact delivers.aside rfl rfl rfl rfl rfl rfl rfl rfl
  | panic i payload =>
    have hfinished : (x.finish i).Delivers names :=
      delivers.aside rfl rfl rfl rfl rfl rfl rfl rfl
    simp only [step, panic]
    split
    · exact delivers
    · split
      · exact hfinished.publish _
      · exact hfinished
  | request =>
    simp only [step]
    split
    · exact (delivers.publish _).stand _
    · exact delivers
  | conclude grace roster elapsed =>
    simp only [step]
    split
    · exact (delivers.publish _).stand _
    · exact delivers
  | silence =>
    simp only [step]
    split
    · exact delivers.stand _
    · exact delivers
  | dismiss =>
    simp only [step]
    split
    · exact delivers.aside rfl rfl rfl rfl rfl rfl rfl rfl
    · exact delivers
  | comeBack =>
    simp only [step]
    split
    · split
      · exact delivers.stand _
      · exact delivers
    · exact delivers

/-! ## 4. The shutdown -/

/-- The shutdown goes step by step: its verdict is published, then the listener takes whatever is
left, then the observers work off whatever waits for them. -/
structure Winds (x : Relay) : Prop where
  told : ∀ through, x.standing.through? = some through → ∃ n event, through = n + 1 ∧
    x.published[n]? = some event ∧
      (event.kind = .allStoppedWithin ∨ event.kind = .graceExceeded)
  draining : x.audience.listening ≠ .live → x.standing.isSilent = true
  ended : x.audience.listening = .over → x.offering = none ∧
    ∀ through, x.standing.through? = some through → through ≤ x.audience.cursor
  dismissed : x.standing.isDismissed = true → x.audience.listening = .over
  finished : ∀ through, x.standing = .returned through →
    ∀ observer ∈ x.audience.observers, observer.queue = []

theorem winds_start (config : Config) (seats : List (String × Nat)) :
    (start config seats).Winds where
  told _ h := by cases h
  draining h := absurd rfl h
  ended h := by cases h
  dismissed h := by cases h
  finished _ h := by cases h

theorem kind_verdict {grace : Duration} {roster : Roster} {elapsed : Bool}
    {verdict : Shutdown.Verdict} (h : Shutdown.verdict? grace roster elapsed = some verdict) :
    verdict.event.kind = .allStoppedWithin ∨ verdict.event.kind = .graceExceeded := by
  obtain ⟨wait, -, rfl⟩ := Option.map_eq_some_iff.mp h
  cases wait with
  | settled => exact .inl rfl
  | overdue => exact .inr rfl

/-- A step of the listener or of an observer keeps what the shutdown has reached. -/
theorem Winds.keep (winds : x.Winds) (more : List Event) (hstanding : y.standing = x.standing)
    (hpublished : y.published = x.published ++ more)
    (hlistening : y.audience.listening = x.audience.listening)
    (hoffering : x.audience.listening = .over → x.offering = none → y.offering = none)
    (hcursor : x.audience.cursor ≤ y.audience.cursor)
    (hobservers : x.offering = none → (∀ observer ∈ x.audience.observers, observer.queue = []) →
      ∀ observer ∈ y.audience.observers, observer.queue = []) : y.Winds := by
  refine ⟨?_, ?_, ?_, ?_, ?_⟩
  · intro through h
    obtain ⟨n, event, hn, hevent, hkind⟩ := winds.told through (hstanding ▸ h)
    have hlt : n < x.published.length := (List.getElem?_eq_some_iff.mp hevent).1
    refine ⟨n, event, hn, ?_, hkind⟩
    rw [hpublished, List.getElem?_append_left hlt, hevent]
  · rw [hlistening, hstanding]
    exact winds.draining
  · intro h
    have hover := winds.ended (hlistening ▸ h)
    refine ⟨hoffering (hlistening ▸ h) hover.1, fun through hthrough => ?_⟩
    exact Nat.le_trans (hover.2 through (hstanding ▸ hthrough)) hcursor
  · rw [hlistening, hstanding]
    exact winds.dismissed
  · intro through h
    rw [hstanding] at h
    have hdismissed : x.standing.isDismissed = true := by rw [h]; rfl
    exact hobservers (winds.ended (winds.dismissed hdismissed)).1 (winds.finished through h)

theorem Winds.publish (winds : x.Winds) (event : Event) : (x.publish event).Winds :=
  winds.keep [event] rfl rfl rfl (fun _ => id) (Nat.le_refl _) fun _ => id

theorem winds_find (winds : x.Winds) (delivers : x.Delivers names) (hnone : x.offering = none)
    (hsilent : x.audience.listening ≠ .live → x.standing.isSilent = true)
    (hover : x.audience.listening ≠ .over) :
    (x.find (x.audience.bus.receive x.audience.cursor)).Winds := by
  rw [Ring.receive_of_keeps delivers.bus]
  by_cases hbehind : x.audience.cursor < x.published.length - x.audience.bus.slots
  · rw [if_pos hbehind]
    exact winds.keep [] rfl (List.append_nil _).symm rfl (fun _ => id) (Nat.le_of_lt hbehind)
      fun _ => id
  · rw [if_neg hbehind]
    cases hevent : x.published[x.audience.cursor]? with
    | some event =>
      exact winds.keep [] rfl (List.append_nil _).symm rfl (fun h => absurd h hover)
        (Nat.le_succ _) fun _ => id
    | none =>
      simp only [find]
      split
      · exact winds
      · next hlive =>
        -- Nothing is left on the bus, so that the verdict has been taken from it.
        refine ⟨winds.told, fun _ => hsilent hlive, fun _ => ⟨hnone, ?_⟩, fun _ => rfl, ?_⟩
        · intro through hthrough
          obtain ⟨n, event, hn, hverdict, -⟩ := winds.told through hthrough
          have hlt : n < x.published.length := (List.getElem?_eq_some_iff.mp hverdict).1
          have hle : x.published.length ≤ x.audience.cursor := List.getElem?_eq_none_iff.mp hevent
          show through ≤ x.audience.cursor
          omega
        · exact winds.finished

theorem winds_hear (winds : x.Winds) (delivers : x.Delivers names) (hnone : x.offering = none) :
    x.hear.Winds := by
  unfold hear
  split
  · exact winds
  · next hlive hsilent =>
    -- It was told to stop.
    refine ⟨winds.told, fun _ => hsilent, nofun, fun h => ?_, winds.finished⟩
    cases hlive.symm.trans (winds.dismissed h)
  · next hover hlive =>
    exact winds_find winds delivers hnone winds.draining hover

theorem winds_offer (winds : x.Winds) {event : Event} {place : Nat}
    (hoffering : x.offering = some (event, place)) : (x.offer event place).Winds := by
  have hbusy : x.offering ≠ none := by rw [hoffering]; exact nofun
  have hqueued : ∀ observer, (x.queue event place observer).Winds := by
    intro observer
    exact winds.keep [] rfl (List.append_nil _).symm rfl (fun _ h => absurd h hbusy)
      (Nat.le_refl _) fun h => absurd h hbusy
  unfold offer
  split
  · exact winds.keep [] rfl (List.append_nil _).symm rfl (fun _ _ => rfl) (Nat.le_refl _)
      fun _ => id
  · split
    · exact (hqueued _).publish _
    · exact hqueued _

theorem winds_take (winds : x.Winds) (i : Nat) : (x.take i).Winds := by
  rcases take_cases x i with hsame | ⟨observer, event, queue, hplace, hqueue, htake⟩
  · rw [hsame]
    exact winds
  · rw [htake]
    refine winds.keep [] rfl (List.append_nil _).symm rfl (fun _ => id) (Nat.le_refl _) ?_
    intro _ hempty
    have hnothing := hempty observer (List.mem_of_getElem? hplace)
    cases hnothing.symm.trans hqueue

theorem queue_finished (hfinished : x.isFinished = true) :
    ∀ observer ∈ x.audience.observers, observer.queue = [] := by
  intro observer hmem
  obtain ⟨i, hlt, hget⟩ := List.mem_iff_getElem.mp hmem
  have hover := List.all_eq_true.mp hfinished i (List.mem_range.mpr hlt)
  have htake : (x.audience.take i).2 = .over := by simpa using (Bool.and_eq_true_iff.mp hover).2
  have hplace : x.audience.observers[i]? = some observer := by
    rw [List.getElem?_eq_getElem hlt, hget]
  cases hqueue : observer.queue with
  | nil => rfl
  | cons event queue =>
    simp [Audience.take, hplace, Observer.take, hqueue] at htake

theorem Winds.live (winds : x.Winds) (h : x.standing.isSilent = false) :
    x.audience.listening = .live := by
  by_contra hlistening
  cases h.symm.trans (winds.draining hlistening)

/-- A shutdown whose listener is over goes on. -/
theorem Winds.proceed (winds : x.Winds) (hover : x.audience.listening = .over)
    (hpublished : y.published = x.published) (hoffering : y.offering = x.offering)
    (hcursor : y.audience.cursor = x.audience.cursor) (hlistening : y.audience.listening = .over)
    (hthrough : y.standing.through? = x.standing.through?) (hsilent : y.standing.isSilent = true)
    (hfinished : ∀ through, y.standing = .returned through →
      ∀ observer ∈ y.audience.observers, observer.queue = []) : y.Winds := by
  refine ⟨?_, fun _ => hsilent, fun _ => ?_, fun _ => hlistening, hfinished⟩
  · rw [hthrough, hpublished]
    exact winds.told
  · rw [hthrough, hoffering, hcursor]
    exact winds.ended hover

theorem winds_step (winds : x.Winds) (delivers : x.Delivers names) (move : Move) :
    (x.step move).Winds := by
  have hfinish : ∀ i, (x.finish i).Winds := fun i =>
    winds.keep [] rfl (List.append_nil _).symm rfl (fun _ => id) (Nat.le_refl _) fun _ => id
  cases move with
  | publish event => exact winds.publish event
  | listen =>
    simp only [step, listen]
    split
    · next h => exact winds_hear winds delivers h
    · next event place h => exact winds_offer winds h
  | take i => exact winds_take winds i
  | finish i => exact hfinish i
  | panic i payload =>
    simp only [step, panic]
    split
    · exact winds
    · split
      · exact (hfinish i).publish _
      · exact hfinish i
  | request =>
    simp only [step]
    split
    · next hstanding =>
      have hlive := winds.live (by rw [hstanding]; rfl)
      refine ⟨nofun, fun h => absurd hlive h, fun h => ?_, nofun, nofun⟩
      cases hlive.symm.trans h
    · exact winds
  | conclude grace roster elapsed =>
    simp only [step]
    split
    · next verdict hstanding hverdict =>
      have hlive := winds.live (by rw [hstanding]; rfl)
      refine ⟨?_, fun h => absurd hlive h, fun h => ?_, nofun, nofun⟩
      · intro through h
        cases h
        exact ⟨_, verdict.event, rfl, List.getElem?_concat_length, kind_verdict hverdict⟩
      · cases hlive.symm.trans h
    · exact winds
  | silence =>
    simp only [step]
    split
    · next through hstanding =>
      have hlive := winds.live (by rw [hstanding]; rfl)
      refine ⟨fun other h => winds.told other ?_, fun _ => rfl, fun h => ?_, nofun, nofun⟩
      · rw [hstanding]
        exact h
      · cases hlive.symm.trans h
    · exact winds
  | dismiss =>
    simp only [step]
    split
    · next through hstanding hover =>
      have hthrough : x.standing.through? = some through := by rw [hstanding]; rfl
      exact winds.proceed hover rfl rfl rfl hover hthrough.symm rfl nofun
    · exact winds
  | comeBack =>
    simp only [step]
    split
    · next through hstanding =>
      split
      · next hfinished =>
        have hthrough : x.standing.through? = some through := by rw [hstanding]; rfl
        have hover := winds.dismissed (by rw [hstanding]; rfl)
        exact winds.proceed hover rfl rfl rfl hover hthrough.symm rfl
          fun _ _ => queue_finished hfinished
      · exact winds
    · exact winds

theorem kept_run (delivers : x.Delivers names) (winds : x.Winds) (moves : List Move) :
    (x.run moves).Delivers names ∧ (x.run moves).Winds := by
  induction moves generalizing x with
  | nil => exact ⟨delivers, winds⟩
  | cons move moves ih => exact ih (delivers_step delivers move) (winds_step winds delivers move)

end Relay

/-- Whatever is published by whom and when, whatever the observers do with it as long as they panic
only at work, and however the steps of the listener, the observers and the shutdown come: every
observer is handed events that were published, in their order, each at most once, and none that is
about itself.  If the listener never missed an event and no event was lost for want of room, then a
shutdown that has come back finds every observer with every event, from the first one to the verdict
of the shutdown and perhaps further, except those about itself.  If nothing comes between them, the
steps of the listener are the one of the listener of an audience; and a panic is told as an audience
tells it. -/
theorem observers_see_every_event (config : Config) (seats : List (String × Nat))
    (moves : List Relay.Move) (i : Nat) (name : String) (capacity : Nat)
    (hseat : seats[i]? = some (name, capacity)) :
    let x := (Relay.start config seats).run moves
    (x.handed i).Sublist x.published ∧
    (∀ event ∈ x.handed i, ¬ (event.isReport = true ∧ event.name = some name)) ∧
    (∀ through, x.standing = .returned through → x.lagged = false → x.overflowed = false →
      (∃ n event, through = n + 1 ∧ x.published[n]? = some event ∧
        (event.kind = .allStoppedWithin ∨ event.kind = .graceExceeded)) ∧
      ∃ reached, through ≤ reached ∧ x.handed i = (x.published.take reached).filter
        fun event => ¬ (event.isReport = true ∧ event.name = some name)) ∧
    (x.offering = none → ∃ n, (x.run (List.replicate n .listen)).offering = none ∧
      (x.run (List.replicate n .listen)).audience =
        (x.audience.listen x.standing.isSilent).1) ∧
    (∀ j event payload, x.busy j = some event →
      (x.panic j payload).audience = x.audience.recover j event payload) := by
  intro x
  obtain ⟨delivers, winds⟩ : x.Delivers (seats.map Prod.fst) ∧ x.Winds :=
    Relay.kept_run (Relay.delivers_start config seats) (Relay.winds_start config seats) moves
  -- The observer is the one that was seated there.
  obtain ⟨observer, hplace, hname⟩ : ∃ observer, x.audience.observers[i]? = some observer ∧
      observer.name = name := by
    have hnames : (x.audience.observers.map (·.name))[i]? = some name := by
      rw [delivers.names, List.getElem?_map, hseat]
      rfl
    rw [List.getElem?_map, Option.map_eq_some_iff] at hnames
    exact hnames
  have horder := delivers.order i observer hplace
  have hmeant : ∀ events, meantFor name events =
      events.filter fun event => ¬ (event.isReport = true ∧ event.name = some name) := by
    intro events
    apply List.filter_congr
    intro event _
    simp [Event.about?_iff]
  rw [hname, hmeant] at horder
  have hsub := (List.sublist_append_left (x.handed i) observer.queue).trans horder
  refine ⟨?_, ?_, ?_, Relay.run_listen, fun j event payload => Relay.audience_panic payload⟩
  · exact hsub.trans (List.filter_sublist.trans (List.take_sublist _ _))
  · intro event hevent
    exact of_decide_eq_true (List.mem_filter.mp (hsub.subset hevent)).2
  · intro through hreturned hnever hall
    have hthrough : x.standing.through? = some through := by rw [hreturned]; rfl
    have hover := winds.ended (winds.dismissed (by rw [hreturned]; rfl))
    have hwhole := delivers.whole hnever hall i observer hplace
    rw [winds.finished through hreturned observer (List.mem_of_getElem? hplace), List.append_nil,
      Relay.reached_idle hover.1, hname, hmeant] at hwhole
    exact ⟨winds.told through hthrough, _, hover.2 through hthrough, hwhole⟩

/-- An observer that panics on its first event and is not told so. -/
theorem observers_see_every_event_panic :
    let moves : List Relay.Move :=
      [.publish { kind := .loopStopped }, .listen, .listen, .listen, .take 0,
        .panic 0 (.text "boom"), .request,
        .conclude .zero { tracker := { settled := true } } false, .silence] ++
        List.replicate 11 .listen ++
        [.dismiss, .take 0, .finish 0, .take 0, .finish 0, .comeBack]
    let x := (Relay.start {} [("a", 2)]).run moves
    x.published = [{ kind := .loopStopped }, .panicOf "a" "boom", Shutdown.requestedEvent,
        Shutdown.inTime.event] ∧
      x.handed 0 = [{ kind := .loopStopped }, Shutdown.requestedEvent, Shutdown.inTime.event] := by
  intro moves x
  have hpublished : x.published = [{ kind := .loopStopped }, .panicOf "a" "boom",
      Shutdown.requestedEvent, Shutdown.inTime.event] := by decide +kernel
  obtain ⟨-, -, hwhole, -⟩ := observers_see_every_event {} [("a", 2)] moves 0 "a" 2 rfl
  obtain ⟨-, reached, hreached, hhanded⟩ :=
    hwhole 4 (by decide +kernel) (by decide +kernel) (by decide +kernel)
  have hall : x.published.take reached = x.published := by
    rw [hpublished]
    exact List.take_of_length_le hreached
  refine ⟨hpublished, hhanded.trans ?_⟩
  rw [hall, hpublished]
  decide +kernel

end Sequencer
