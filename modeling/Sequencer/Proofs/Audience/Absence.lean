import Sequencer.Proofs.Audience.Reports

/-!
# Absence — an observer that is gone makes no difference to the others

An observer that is gone gets nothing any more, and whatever comes to it is lost, which is told.
The others see what they would see if it took every event at once and forgot about it, with somebody
else to tell of the losses.  So a host from which some are gone is compared with a host that nobody
leaves, step by step, and what is known of the latter holds of the observers that are still there.
-/

namespace Sequencer

/-- The observer as if it had never gone. -/
def Observer.revive (observer : Observer) : Observer := { observer with alive := true }

theorem Observer.revive_alive {observer : Observer} (h : observer.alive = true) :
    observer.revive = observer := by
  unfold revive
  rw [← h]

namespace Relay

/-! ## 1. A host that nobody leaves -/

/-- The place of the observer that loses an event in a step because its queue is full. -/
def overflow? (x : Relay) : Turn → Option Nat
  | .move .listen => x.offering.bind fun (event, i) =>
    (x.audience.observers[i]?).bind fun observer =>
      if observer.fate event = .lost "full" then some i else none
  | _ => none

/-- The places of the observers whose queues overflow in a run, in order. -/
def overflows (x : Relay) : List Turn → List Nat
  | [] => []
  | turn :: turns => (x.overflow? turn).toList ++ (x.turn turn).overflows turns

/-- The host as if nobody had gone, with what would have been handed to the observers. -/
def revived (x : Relay) (handed : Nat → List Event) : Relay :=
  { x with
    audience := { x.audience with observers := x.audience.observers.map Observer.revive }
    handed
    overflowed := false }

/-- Whoever is gone has nothing left in his hands, and what is said of the others is true. -/
structure Veiled (history : List Turn) (handed : Nat → List Event) (x : Relay) : Prop where
  capacity : ∀ (i : Nat) (observer : Observer), x.audience.observers[i]? = some observer →
    0 < observer.capacity
  gone : ∀ (i : Nat) (observer : Observer), x.audience.observers[i]? = some observer →
    observer.alive = false →
    .collapse i ∈ history ∧ observer.queue = [] ∧ x.busy i = none
  agrees : ∀ (i : Nat) (observer : Observer), x.audience.observers[i]? = some observer →
    observer.alive = true → handed i = x.handed i

variable {x y : Relay} {names : List String} {history : List Turn}
  {handed handed' : Nat → List Event} {i : Nat} {observer next : Observer} {event : Event}

theorem revived_start (config : Config) (seats : List (String × Nat)) :
    (start config seats).revived (start config seats).handed = start config seats := by
  have hseats : (seats.map fun seat => Observer.ofCapacity seat.1 seat.2).map Observer.revive =
      seats.map fun seat => Observer.ofCapacity seat.1 seat.2 := by
    rw [List.map_map]
    rfl
  unfold revived
  show Relay.mk { (start config seats).audience with
    observers := (seats.map fun seat => Observer.ofCapacity seat.1 seat.2).map Observer.revive }
    _ _ _ _ _ _ _ = _
  rw [hseats]
  rfl

theorem veiled_start (config : Config) (seats : List (String × Nat)) :
    (start config seats).Veiled [] (start config seats).handed where
  capacity i observer h := by
    obtain ⟨seat, -, rfl⟩ := List.mem_map.mp (List.mem_of_getElem? h)
    exact Nat.le_max_right _ _
  gone i observer h halive := by
    obtain ⟨seat, -, rfl⟩ := List.mem_map.mp (List.mem_of_getElem? h)
    cases halive
  agrees _ _ _ _ := rfl

theorem Veiled.later (veiled : x.Veiled history handed) (turn : Turn) :
    x.Veiled (history ++ [turn]) handed where
  capacity := veiled.capacity
  gone i observer h halive := by
    obtain ⟨hgone, hidle⟩ := veiled.gone i observer h halive
    exact ⟨List.mem_append_left _ hgone, hidle⟩
  agrees := veiled.agrees

/-- A step that leaves the observers alone. -/
theorem Veiled.aside (veiled : x.Veiled history handed)
    (hobservers : y.audience.observers = x.audience.observers)
    (hbusy : ∀ i, x.busy i = none → y.busy i = none) (hhanded : y.handed = x.handed) :
    y.Veiled history handed where
  capacity := by
    rw [hobservers]
    exact veiled.capacity
  gone i observer h halive := by
    obtain ⟨hgone, hqueue, hidle⟩ := veiled.gone i observer (hobservers ▸ h) halive
    exact ⟨hgone, hqueue, hbusy i hidle⟩
  agrees := by
    rw [hobservers, hhanded]
    exact veiled.agrees

/-- A step that reaches one observer. -/
theorem Veiled.replace (veiled : x.Veiled history handed)
    (hplace : x.audience.observers[i]? = some observer)
    (hobservers : y.audience.observers = x.audience.observers.set i next)
    (hcapacity : next.capacity = observer.capacity)
    (hothers : ∀ j, j ≠ i → y.busy j = x.busy j ∧ y.handed j = x.handed j ∧
      handed' j = handed j)
    (hgone : next.alive = false → .collapse i ∈ history ∧ next.queue = [] ∧ y.busy i = none)
    (hagrees : next.alive = true → handed' i = y.handed i) : y.Veiled history handed' := by
  have hlt := (List.getElem?_eq_some_iff.mp hplace).1
  have hcases : ∀ j other, y.audience.observers[j]? = some other →
      j = i ∧ other = next ∨ j ≠ i ∧ x.audience.observers[j]? = some other := by
    intro j other h
    rw [hobservers] at h
    by_cases hj : j = i
    · rw [hj, List.getElem?_set_self hlt] at h
      exact .inl ⟨hj, (Option.some.inj h).symm⟩
    · rw [List.getElem?_set_ne (Ne.symm hj)] at h
      exact .inr ⟨hj, h⟩
  refine ⟨?_, ?_, ?_⟩
  · intro j other h
    rcases hcases j other h with ⟨rfl, rfl⟩ | ⟨-, hother⟩
    · exact hcapacity ▸ veiled.capacity j observer hplace
    · exact veiled.capacity j other hother
  · intro j other h halive
    rcases hcases j other h with ⟨rfl, rfl⟩ | ⟨hj, hother⟩
    · exact hgone halive
    · rw [(hothers j hj).1]
      exact veiled.gone j other hother halive
  · intro j other h halive
    rcases hcases j other h with ⟨rfl, rfl⟩ | ⟨hj, hother⟩
    · exact hagrees halive
    · rw [(hothers j hj).2.1, (hothers j hj).2.2]
      exact veiled.agrees j other hother halive

/-- A step of a host from which some are gone is a few steps of the host that nobody leaves. -/
def Mimics (history : List Turn) (x y : Relay) (handed : Nat → List Event) : Prop :=
  ∃ moves handed', (x.revived handed).run moves = y.revived handed' ∧ y.Veiled history handed'

/-! ## 2. The observers -/

theorem getElem?_revived (handed : Nat → List Event)
    (h : x.audience.observers[i]? = some observer) :
    (x.revived handed).audience.observers[i]? = some observer.revive := by
  show (x.audience.observers.map Observer.revive)[i]? = _
  rw [List.getElem?_map, h]
  rfl

theorem set_of_getElem? {α : Type} {entries : List α} {entry : α} (h : entries[i]? = some entry) :
    entries.set i entry = entries := by
  obtain ⟨hlt, rfl⟩ := List.getElem?_eq_some_iff.mp h
  exact List.set_getElem_self hlt

/-- An observer that is not at work can work off its queue. -/
theorem run_drain (hplace : x.audience.observers[i]? = some observer) (hidle : x.busy i = none) :
    ∃ moves, x.run moves = { x with
      audience := { x.audience with
        observers := x.audience.observers.set i { observer with queue := [] } }
      handed := Function.update x.handed i (x.handed i ++ observer.queue) } := by
  obtain ⟨name, capacity, queue, alive⟩ := observer
  induction queue generalizing x with
  | nil =>
    refine ⟨[], ?_⟩
    rw [List.append_nil, Function.update_eq_self, set_of_getElem? hplace]
    rfl
  | cons event queue ih =>
    have htake : x.take i = { x with
        audience := { x.audience with
          observers := x.audience.observers.set i ⟨name, capacity, queue, alive⟩ }
        busy := Function.update x.busy i (some event)
        handed := Function.update x.handed i (x.handed i ++ [event]) } := by
      simp only [take, hidle, Audience.take, hplace, Option.bind_some, Observer.take]
    have hbusy : Function.update (Function.update x.busy i (some event)) i none = x.busy := by
      rw [Function.update_idem, ← hidle, Function.update_eq_self]
    have hnext : (x.take i).finish i = { x with
        audience := { x.audience with
          observers := x.audience.observers.set i ⟨name, capacity, queue, alive⟩ }
        handed := Function.update x.handed i (x.handed i ++ [event]) } := by
      rw [htake]
      unfold finish
      simp only [hbusy]
    have hlt := (List.getElem?_eq_some_iff.mp hplace).1
    obtain ⟨moves, hmoves⟩ := ih (x := (x.take i).finish i)
      (by rw [hnext]; exact hidle) (by rw [hnext]; exact List.getElem?_set_self hlt)
    refine ⟨.take i :: .finish i :: moves, ?_⟩
    show ((x.take i).finish i).run moves = _
    rw [hmoves, hnext]
    simp only [List.set_set, Function.update_idem, Function.update_self, List.append_assoc,
      List.singleton_append]

theorem mimics_take (veiled : x.Veiled history handed) (i : Nat) :
    Mimics history x (x.take i) handed := by
  cases hbusy : x.busy i with
  | some event =>
    have hsame : x.take i = x := by simp only [take, hbusy]
    rw [hsame]
    exact ⟨[], handed, rfl, veiled⟩
  | none =>
    rcases take_cases x i with hsame | ⟨observer, event, queue, hplace, hqueue, htake⟩
    · rw [hsame]
      exact ⟨[], handed, rfl, veiled⟩
    · have halive : observer.alive = true := by
        by_contra hdead
        have hnothing := (veiled.gone i observer hplace (Bool.eq_false_iff.mpr hdead)).2.1
        cases hnothing.symm.trans hqueue
      refine ⟨[.take i], Function.update handed i (handed i ++ [event]), ?_, ?_⟩
      · have hother := getElem?_revived handed hplace
        have hwaits : observer.revive.queue = event :: queue := hqueue
        have hidle : (x.revived handed).busy i = none := hbusy
        show (x.revived handed).take i = _
        rw [htake]
        simp only [take, hidle, Audience.take, hother, Option.bind_some, Observer.take, hwaits]
        unfold revived
        simp only [List.map_set]
        rfl
      · rw [htake]
        refine veiled.replace hplace rfl rfl ?_ ?_ ?_
        · intro j hj
          exact ⟨Function.update_of_ne hj _ _, Function.update_of_ne hj _ _,
            Function.update_of_ne hj _ _⟩
        · intro hdead
          cases hdead.symm.trans halive
        · intro _
          show Function.update handed i _ i = Function.update x.handed i _ i
          rw [Function.update_self, Function.update_self, veiled.agrees i observer hplace halive]

theorem Veiled.finish (veiled : x.Veiled history handed) (i : Nat) :
    (x.finish i).Veiled history handed := by
  refine veiled.aside rfl (fun j hidle => ?_) rfl
  show Function.update x.busy i none j = none
  by_cases hj : j = i
  · rw [hj, Function.update_self]
  · rw [Function.update_of_ne hj]
    exact hidle

theorem mimics_panic (veiled : x.Veiled history handed) (i : Nat) (payload : Payload) :
    Mimics history x (x.panic i payload) handed := by
  refine ⟨[.panic i payload], handed, ?_, ?_⟩
  · have hreport : ∀ event, ((x.revived handed).audience.observers[i]?.bind fun observer =>
        observer.panicReport? event payload) =
        x.audience.observers[i]?.bind fun observer => observer.panicReport? event payload := by
      intro event
      show ((x.audience.observers.map Observer.revive)[i]?.bind _) = _
      rw [List.getElem?_map, Option.bind_map]
      rfl
    have hbusy : (x.revived handed).busy i = x.busy i := rfl
    show (x.revived handed).panic i payload = _
    unfold panic
    simp only [hbusy, hreport]
    split
    · rfl
    · split <;> rfl
  · unfold panic
    split
    · exact veiled
    · split
      · exact (veiled.finish i).aside rfl (fun _ => id) rfl
      · exact veiled.finish i

theorem mimics_collapse (veiled : x.Veiled history handed) (i : Nat) :
    Mimics (history ++ [.collapse i]) x (x.collapse i) handed := by
  cases hplace : x.audience.observers[i]? with
  | none =>
    have hsame : x.collapse i = x.finish i := by
      have hnobody : x.audience.observers.modify i Observer.collapse = x.audience.observers := by
        rw [List.modify_eq_set_getElem?, hplace]
        rfl
      unfold collapse Audience.collapse
      rw [hnobody]
      rfl
    rw [hsame]
    exact ⟨[.finish i], handed, rfl, (veiled.finish i).later _⟩
  | some observer =>
    have hobservers : (x.collapse i).audience.observers =
        x.audience.observers.set i observer.collapse := by
      show x.audience.observers.modify i Observer.collapse = _
      rw [List.modify_eq_set_getElem?, hplace]
      rfl
    have hidle : (x.finish i).busy i = none := Function.update_self _ _ _
    -- Without the collapse it works off whatever waits for it.
    obtain ⟨moves, hmoves⟩ := run_drain (x := (x.finish i).revived handed)
      (getElem?_revived (x := x.finish i) handed hplace) hidle
    refine ⟨.finish i :: moves, Function.update handed i (handed i ++ observer.queue), ?_, ?_⟩
    · show ((x.finish i).revived handed).run moves = _
      rw [hmoves]
      unfold revived
      rw [hobservers, List.map_set]
      rfl
    · refine ((veiled.finish i).later (.collapse i)).replace (y := x.collapse i) hplace hobservers
        rfl ?_ ?_ nofun
      · intro j hj
        exact ⟨rfl, rfl, Function.update_of_ne hj _ _⟩
      · intro _
        exact ⟨List.mem_append_right _ List.mem_cons_self, rfl, hidle⟩

/-! ## 3. The listener and the host -/

theorem offer_gone (halive : observer.alive = false) (event : Event) :
    observer.offer event = observer := by
  have hfate : observer.fate event ≠ .queued := by
    unfold Observer.fate
    rw [halive]
    split <;> exact nofun
  unfold Observer.offer
  split
  · next hqueued => exact absurd hqueued hfate
  · rfl

theorem fate_alive (halive : observer.alive = true)
    (habout : event.about? ≠ some observer.name) :
    observer.fate event = .queued ∨ observer.fate event = .lost "full" := by
  unfold Observer.fate
  rw [if_neg habout, halive]
  simp only [Bool.not_true, Bool.false_eq_true, if_false]
  split
  · exact .inl rfl
  · exact .inr rfl

theorem Veiled.queue (veiled : x.Veiled history handed)
    (hplace : x.audience.observers[i]? = some observer) (event : Event) :
    (x.queue event i observer).Veiled history handed := by
  have hsame : (observer.offer event).alive = observer.alive ∧
      (observer.offer event).capacity = observer.capacity := by
    unfold Observer.offer
    split <;> exact ⟨rfl, rfl⟩
  refine veiled.replace hplace rfl hsame.2 (fun _ _ => ⟨rfl, rfl, rfl⟩) ?_ ?_
  · intro hdead
    rw [hsame.1] at hdead
    rw [offer_gone hdead]
    exact veiled.gone i observer hplace hdead
  · intro halive
    exact veiled.agrees i observer hplace (hsame.1 ▸ halive)

/-- An event that the observer would get or skip in any case. -/
theorem run_queue (handed : Nat → List Event) (hoffering : x.offering = some (event, i))
    (hplace : x.audience.observers[i]? = some observer)
    (hfate : observer.revive.fate event = observer.fate event)
    (hkept : (observer.fate event).isLost = false) :
    (x.revived handed).run [.listen] = (x.offer event i).revived handed ∧
      x.offer event i = x.queue event i observer := by
  have hreports : observer.report? event = none ∧ observer.revive.report? event = none := by
    unfold Observer.report?
    rw [hfate]
    cases hcase : observer.fate event with
    | lost reason => rw [hcase] at hkept; cases hkept
    | _ => exact ⟨rfl, rfl⟩
  have hoffer : (observer.offer event).revive = observer.revive.offer event := by
    unfold Observer.offer
    rw [hfate]
    split <;> rfl
  have hqueued : x.offer event i = x.queue event i observer := by
    simp only [offer, hplace, hreports.1]
  have hother := getElem?_revived handed hplace
  refine ⟨?_, hqueued⟩
  show (x.revived handed).listen = _
  rw [listen_offering (x := x.revived handed) hoffering, hqueued]
  simp only [offer, hother, hreports.2]
  unfold queue revived
  simp only [List.map_set, hoffer, hfate, hkept, Bool.or_false]

/-- An event for an observer that is gone: otherwise it would take the event at once. -/
theorem run_closed (handed : Nat → List Event) (hoffering : x.offering = some (event, i))
    (hplace : x.audience.observers[i]? = some observer) (hcapacity : 0 < observer.capacity)
    (hdead : observer.alive = false) (hqueue : observer.queue = []) (hidle : x.busy i = none)
    (habout : event.about? ≠ some observer.name) :
    ∃ moves, (x.revived handed).run moves = (x.offer event i).revived
      (Function.update handed i (handed i ++ [event])) := by
  have hplaces := (List.getElem?_eq_some_iff.mp hplace).1
  have hfate : observer.revive.fate event = .queued := by
    unfold Observer.fate
    rw [if_neg (show event.about? ≠ some observer.revive.name from habout)]
    show (if observer.queue.length < observer.capacity then _ else _) = _
    rw [hqueue]
    exact if_pos hcapacity
  have hoffer : observer.revive.offer event = { observer.revive with queue := [event] } := by
    unfold Observer.offer
    rw [hfate]
    show { observer.revive with queue := observer.queue ++ [event] } = _
    rw [hqueue]
    rfl
  have hlisten : (x.revived handed).listen = (x.revived handed).queue event i observer.revive := by
    have hnothing : observer.revive.report? event = none := by
      unfold Observer.report?
      rw [hfate]
    rw [listen_offering (x := x.revived handed) hoffering]
    simp only [offer, getElem?_revived handed hplace, hnothing]
  obtain ⟨moves, hmoves⟩ := run_drain (x := (x.revived handed).queue event i observer.revive)
    (List.getElem?_set_self (by simpa [revived] using hplaces)) hidle
  -- Nothing is left of the event but the report of its loss.
  have hforgot : ((x.revived handed).queue event i observer.revive).run moves =
      (x.queue event i observer).revived (Function.update handed i (handed i ++ [event])) := by
    have hempty : { observer.revive with queue := [] } = observer.revive := by
      rw [← hqueue]
      rfl
    rw [hmoves]
    unfold queue revived
    rw [hoffer, offer_gone hdead, set_of_getElem? hplace, hfate]
    simp only [List.set_set]
    have hset : (x.audience.observers.map Observer.revive).set i observer.revive =
        x.audience.observers.map Observer.revive :=
      set_of_getElem? (getElem?_revived handed hplace)
    rw [hempty, hset]
    rfl
  have hpublish : x.offer event i =
      (observer.report? event).toList.foldl publish (x.queue event i observer) := by
    simp only [offer, hplace]
    cases observer.report? event <;> rfl
  refine ⟨.listen :: moves ++ (observer.report? event).toList.map .publish, ?_⟩
  have hsplit : (x.revived handed).run (.listen :: moves ++
      (observer.report? event).toList.map .publish) =
      ((x.revived handed).listen.run moves).run ((observer.report? event).toList.map .publish) :=
    List.foldl_append
  rw [hsplit, hlisten, hforgot, hpublish]
  cases observer.report? event <;> rfl

theorem mimics_offer (veiled : x.Veiled history handed) (hoffering : x.offering = some (event, i))
    (hroom : x.overflow? (.move .listen) = none) :
    Mimics history x (x.offer event i) handed := by
  cases hplace : x.audience.observers[i]? with
  | none =>
    have hnobody : (x.revived handed).audience.observers[i]? = none := by
      show (x.audience.observers.map Observer.revive)[i]? = none
      rw [List.getElem?_map, hplace]
      rfl
    rw [offer_nobody hplace]
    refine ⟨[.listen], handed, ?_, veiled.aside rfl (fun _ => id) rfl⟩
    show (x.revived handed).listen = _
    rw [listen_offering (x := x.revived handed) hoffering, offer_nobody hnobody]
    rfl
  | some observer =>
    have hqueued := veiled.queue hplace event
    by_cases habout : event.about? = some observer.name
    · have hskipped : observer.fate event = .skipped := if_pos habout
      have hother : observer.revive.fate event = .skipped := if_pos habout
      obtain ⟨hrun, hoffer⟩ := run_queue handed hoffering hplace
        (hother.trans hskipped.symm) (by rw [hskipped]; rfl)
      exact ⟨[.listen], handed, hrun, hoffer ▸ hqueued⟩
    cases halive : observer.alive with
    | true =>
      have hkept : (observer.fate event).isLost = false := by
        rcases fate_alive halive habout with hfate | hfate
        · rw [hfate]
          rfl
        · rw [overflow?, hoffering] at hroom
          simp only [Option.bind_some, hplace, hfate, if_true, reduceCtorEq] at hroom
      obtain ⟨hrun, hoffer⟩ := run_queue handed hoffering hplace
        (by rw [Observer.revive_alive halive]) hkept
      exact ⟨[.listen], handed, hrun, hoffer ▸ hqueued⟩
    | false =>
      obtain ⟨-, hqueue, hidle⟩ := veiled.gone i observer hplace halive
      obtain ⟨moves, hmoves⟩ := run_closed handed hoffering hplace
        (veiled.capacity i observer hplace) halive hqueue hidle habout
      refine ⟨moves, _, hmoves, ?_⟩
      have hobservers : (x.offer event i).audience.observers =
          x.audience.observers.set i observer := by
        rw [(offer_observer event hplace).2.1, offer_gone halive]
      have hrest : (x.offer event i).busy = x.busy ∧ (x.offer event i).handed = x.handed := by
        simp only [offer, hplace]
        split <;> exact ⟨rfl, rfl⟩
      refine veiled.replace hplace hobservers rfl ?_ ?_ ?_
      · intro j hj
        rw [hrest.1, hrest.2]
        exact ⟨rfl, rfl, Function.update_of_ne hj _ _⟩
      · intro _
        rw [hrest.1]
        exact veiled.gone i observer hplace halive
      · intro hother
        cases hother.symm.trans halive

theorem hear_revived (x : Relay) (handed : Nat → List Event) :
    (x.revived handed).hear = x.hear.revived handed := by
  obtain ⟨⟨bus, cursor, listening, observers, dismissed⟩, offering, standing⟩ := x
  cases listening with
  | live =>
    simp only [hear, revived]
    cases standing.isSilent with
    | true => rfl
    | false => cases bus.receive cursor <;> rfl
  | draining =>
    simp only [hear, revived]
    cases bus.receive cursor <;> rfl
  | _ => rfl

theorem mimics_hear (veiled : x.Veiled history handed) (hnone : x.offering = none) :
    Mimics history x x.hear handed := by
  refine ⟨[.listen], handed, ?_, ?_⟩
  · have hlisten : (x.revived handed).listen = (x.revived handed).hear := by
      unfold listen
      split
      · rfl
      · next hoffering => cases hoffering.symm.trans hnone
    show (x.revived handed).listen = _
    rw [hlisten]
    exact hear_revived x handed
  · have hsame : x.hear.audience.observers = x.audience.observers ∧ x.hear.busy = x.busy ∧
        x.hear.handed = x.handed := by
      unfold hear
      split
      · exact ⟨rfl, rfl, rfl⟩
      · exact ⟨rfl, rfl, rfl⟩
      · unfold find
        split
        · exact ⟨rfl, rfl, rfl⟩
        · exact ⟨rfl, rfl, rfl⟩
        · split <;> exact ⟨rfl, rfl, rfl⟩
    exact veiled.aside hsame.1 (fun i hidle => hsame.2.1 ▸ hidle) hsame.2.2

theorem isFinished_revived (x : Relay) (handed : Nat → List Event) :
    (x.revived handed).isFinished = x.isFinished := by
  have hwork : ∀ i, ((x.revived handed).audience.take i).2 = (x.audience.take i).2 := by
    intro i
    unfold Audience.take
    cases hplace : x.audience.observers[i]? with
    | none =>
      have hnobody : (x.revived handed).audience.observers[i]? = none := by
        show (x.audience.observers.map Observer.revive)[i]? = none
        rw [List.getElem?_map, hplace]
        rfl
      rw [hnobody]
      rfl
    | some observer =>
      rw [getElem?_revived _ hplace]
      obtain ⟨name, capacity, queue, alive⟩ := observer
      cases queue <;> rfl
  unfold isFinished
  simp only [hwork]
  show (List.range (x.audience.observers.map Observer.revive).length).all _ = _
  rw [List.length_map]
  rfl

/-- Whatever happens on a host is what happens on one that nobody leaves, as long as no queue
overflows. -/
theorem mimics_turn (veiled : x.Veiled history handed) (turn : Turn)
    (hroom : x.overflow? turn = none) :
    Mimics (history ++ [turn]) x (x.turn turn) handed := by
  have hmove : ∀ {move : Move}, Mimics history x (x.step move) handed →
      Mimics (history ++ [.move move]) x (x.step move) handed := by
    rintro move ⟨moves, handed', hmoves, hveiled⟩
    exact ⟨moves, handed', hmoves, hveiled.later _⟩
  cases turn with
  | collapse i => exact mimics_collapse veiled i
  | move move =>
    apply hmove
    cases move with
    | publish event => exact ⟨[.publish event], handed, rfl, veiled.aside rfl (fun _ => id) rfl⟩
    | listen =>
      show Mimics history x x.listen handed
      cases hoffering : x.offering with
      | none =>
        have hlisten : x.listen = x.hear := by
          unfold listen
          rw [hoffering]
        rw [hlisten]
        exact mimics_hear veiled hoffering
      | some offer =>
        rw [listen_offering hoffering]
        exact mimics_offer veiled hoffering hroom
    | take i => exact mimics_take veiled i
    | finish i => exact ⟨[.finish i], handed, rfl, veiled.finish i⟩
    | panic i payload => exact mimics_panic veiled i payload
    | request =>
      refine ⟨[.request], handed, ?_, ?_⟩
      · show (x.revived handed).step .request = _
        simp only [step, revived]
        split <;> rfl
      · simp only [step]
        split
        · exact veiled.aside rfl (fun _ => id) rfl
        · exact veiled
    | conclude grace roster elapsed =>
      refine ⟨[.conclude grace roster elapsed], handed, ?_, ?_⟩
      · show (x.revived handed).step (.conclude grace roster elapsed) = _
        simp only [step, revived]
        split <;> rfl
      · simp only [step]
        split
        · exact veiled.aside rfl (fun _ => id) rfl
        · exact veiled
    | silence =>
      refine ⟨[.silence], handed, ?_, ?_⟩
      · show (x.revived handed).step .silence = _
        simp only [step, revived]
        split <;> rfl
      · simp only [step]
        split
        · exact veiled.aside rfl (fun _ => id) rfl
        · exact veiled
    | dismiss =>
      refine ⟨[.dismiss], handed, ?_, ?_⟩
      · show (x.revived handed).step .dismiss = _
        simp only [step, revived]
        split <;> rfl
      · simp only [step]
        split
        · exact veiled.aside rfl (fun _ => id) rfl
        · exact veiled
    | comeBack =>
      have hfinished := isFinished_revived x handed
      refine ⟨[.comeBack], handed, ?_, ?_⟩
      · show (x.revived handed).step .comeBack = _
        have hstanding : (x.revived handed).standing = x.standing := rfl
        simp only [step, hfinished, hstanding]
        split
        · split <;> rfl
        · rfl
      · simp only [step]
        split
        · split
          · exact veiled.aside rfl (fun _ => id) rfl
          · exact veiled
        · exact veiled

theorem mimics_endure (turns : List Turn) (veiled : x.Veiled history handed)
    (hroom : x.overflows turns = []) :
    Mimics (history ++ turns) x (x.endure turns) handed := by
  induction turns generalizing x history handed with
  | nil => exact ⟨[], handed, rfl, (List.append_nil history).symm ▸ veiled⟩
  | cons turn turns ih =>
    obtain ⟨hnow, hlater⟩ := List.append_eq_nil_iff.mp hroom
    obtain ⟨moves, handed', hmoves, hveiled⟩ :=
      mimics_turn veiled turn (Option.toList_eq_nil_iff.mp hnow)
    obtain ⟨more, handed'', hmore, hlast⟩ := ih hveiled hlater
    refine ⟨moves ++ more, handed'', ?_, ?_⟩
    · show ((x.revived handed).run (moves ++ more)) = _
      rw [run, List.foldl_append]
      exact (congrArg (run · more) hmoves).trans hmore
    · rwa [List.append_assoc] at hlast

/-! ## 4. What is kept -/

/-- What is known of the host that nobody leaves. -/
structure Kept (names : List String) (history : List Turn) (handed : Nat → List Event)
    (x : Relay) : Prop where
  veiled : x.Veiled history handed
  delivers : (x.revived handed).Delivers names
  winds : (x.revived handed).Winds

theorem kept_start (config : Config) (seats : List (String × Nat)) :
    (start config seats).Kept (seats.map Prod.fst) [] (start config seats).handed where
  veiled := veiled_start config seats
  delivers := by
    rw [revived_start]
    exact delivers_start config seats
  winds := by
    rw [revived_start]
    exact winds_start config seats

theorem Kept.endure (kept : x.Kept names history handed) (turns : List Turn)
    (hroom : x.overflows turns = []) :
    ∃ moves handed', (x.revived handed).run moves = (x.endure turns).revived handed' ∧
      (x.endure turns).Kept names (history ++ turns) handed' := by
  obtain ⟨moves, handed', hmoves, hveiled⟩ := mimics_endure turns kept.veiled hroom
  have hrest := kept_run kept.delivers kept.winds moves
  rw [hmoves] at hrest
  exact ⟨moves, handed', hmoves, hveiled, hrest.1, hrest.2⟩

theorem Kept.name (kept : x.Kept names history handed) {i : Nat} {name : String}
    (hname : names[i]? = some name) :
    ∃ observer, x.audience.observers[i]? = some observer ∧ observer.name = name := by
  have hnames : ((x.audience.observers.map Observer.revive).map (·.name))[i]? = some name := by
    rw [← hname, ← kept.delivers.names]
    rfl
  rw [List.map_map, List.getElem?_map, Option.map_eq_some_iff] at hnames
  exact hnames

end Relay

end Sequencer
