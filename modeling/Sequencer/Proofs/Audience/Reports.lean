import Sequencer.Proofs.Audience.Delivery
import Mathlib.Algebra.BigOperators.Group.Finset.Basic
import Mathlib.Algebra.Group.Action.Defs
import Mathlib.Algebra.GroupWithZero.Nat
import Mathlib.Algebra.Order.BigOperators.Group.Finset
import Mathlib.Algebra.Order.BigOperators.Group.List
import Mathlib.Order.Nat

/-!
# Reports — why the reports about observers do not feed themselves

What is told of the observers is published on the bus of their host, and comes back to them from
there.  Still it comes to an end.  Every ordinary event pays, once it is published, for whatever can
follow from it: `n` for each of the `n` observers.  An observer that loses the event or panics on it
takes its share, and what is left of the share pays for the reports that follow from that report.
-/

namespace Sequencer

namespace Relay

/-! ## 1. Observers that are gone -/

/-- A step of a host, or an observer that is gone for good. -/
inductive Turn where
  | move (move : Move)
  | collapse (i : Nat)

/-- The observer at the place `i` is gone, with the event it is at work on and all that wait. -/
def collapse (x : Relay) (i : Nat) : Relay :=
  { x.finish i with audience := x.audience.collapse i }

def turn (x : Relay) : Turn → Relay
  | .move move => x.step move
  | .collapse i => x.collapse i

def endure (x : Relay) (turns : List Turn) : Relay := turns.foldl turn x

/-! ## 2. What an event can cost -/

/-- How many reports can follow from the offer of an event to one of `n` observers. -/
def price (n : Nat) (event : Event) (name : String) : Nat :=
  if event.about? = some name then 0
  else if event.isOverflow then 0
  else if event.isReport then 1
  else n

/-- How many reports can follow from an event that is offered to all. -/
def cost (names : List String) (event : Event) : Nat := (names.map (price names.length event)).sum

theorem about?_ordinary {event : Event} (h : event.isReport = false) : event.about? = none := by
  unfold Event.about?
  rw [h]
  rfl

theorem price_ordinary {event : Event} (h : event.isReport = false) (n : Nat) (name : String) :
    price n event name = n := by
  have hoverflow : event.isOverflow = false := by
    unfold Event.isReport at h
    exact (Bool.or_eq_false_iff.mp h).1
  unfold price
  rw [about?_ordinary h, hoverflow, h]
  rfl

theorem cost_ordinary {event : Event} (h : event.isReport = false) (names : List String) :
    cost names event = names.length * names.length := by
  unfold cost
  have hprice : price names.length event = fun _ => names.length :=
    funext fun name => price_ordinary h names.length name
  rw [hprice, List.map_const', List.sum_replicate, smul_eq_mul]

theorem cost_overflowOf (names : List String) (name reason : String) :
    cost names (.overflowOf name reason) = 0 := by
  unfold cost
  apply List.sum_eq_zero
  intro share hshare
  obtain ⟨other, -, rfl⟩ := List.mem_map.mp hshare
  unfold price
  split
  · rfl
  · rfl

theorem cost_panicOf {names : List String} {name : String} (h : name ∈ names) (info : String) :
    cost names (.panicOf name info) + 1 ≤ names.length := by
  have hown : price names.length (.panicOf name info) name = 0 := if_pos rfl
  have hone : ∀ share ∈ (names.erase name).map (price names.length (.panicOf name info)),
      share ≤ 1 := by
    intro share hshare
    obtain ⟨other, -, rfl⟩ := List.mem_map.mp hshare
    unfold price
    split
    · exact Nat.zero_le 1
    · exact Nat.le_refl 1
  -- Everybody may lose the report but the observer that it is about.
  have hothers := List.sum_le_card_nsmul _ 1 hone
  rw [List.length_map, List.length_erase_of_mem h, smul_eq_mul, Nat.mul_one] at hothers
  have hpos : 0 < names.length := List.length_pos_of_mem h
  unfold cost
  rw [← List.sum_map_erase _ h, hown]
  omega

/-! ## 3. What is not yet spent -/

/-- What the observer at the place `i` has: the event it is at work on, and those that wait. -/
def held (x : Relay) (i : Nat) : List Event :=
  (x.busy i).toList ++ (x.audience.observers[i]?.map (·.queue)).getD []

/-- The number of events that are no reports. -/
def ordinary (events : List Event) : Nat := events.countP fun event => !event.isReport

theorem ordinary_concat (events : List Event) (event : Event) :
    ordinary (events ++ [event]) = ordinary events + if event.isReport then 0 else 1 := by
  unfold ordinary
  rw [List.countP_append, List.countP_singleton]
  cases event.isReport <;> rfl

theorem length_eq_reports_add_ordinary (events : List Event) :
    events.length = events.countP (·.isReport) + ordinary events := by
  rw [List.length_eq_countP_add_countP (·.isReport)]
  unfold ordinary
  congr 2
  funext event
  cases event.isReport <;> rfl

/-- The shares in the hands of the first `n` observers. -/
def burden (n : Nat) (x : Relay) : Nat := ∑ i ∈ Finset.range n, n * ordinary (x.held i)

/-- The shares that belong to the rest of the offers that are under way. -/
def offered (names : List String) (x : Relay) : Nat :=
  match x.offering with
  | none => 0
  | some (event, i) => ((names.drop i).map (price names.length event)).sum

/-- What belongs to the events that the listener has not yet come to. -/
def unheard (names : List String) (x : Relay) : Nat :=
  ((x.published.drop x.audience.cursor).map (cost names)).sum

variable {x y : Relay} {names : List String} {n spare : Nat}

/-- The ordinary events have paid for the reports so far, for all that can still follow, and for
something to spare. -/
structure Solvent (names : List String) (spare : Nat) (x : Relay) : Prop where
  bus : x.audience.bus.Keeps x.published
  cursor : x.audience.cursor ≤ x.published.length
  seated : x.audience.observers.map (·.name) = names
  paid : x.published.countP (·.isReport) + (x.unheard names + x.offered names +
    x.burden names.length) + spare ≤ names.length * names.length * ordinary x.published

theorem solvent_start (config : Config) (seats : List (String × Nat)) :
    (start config seats).Solvent (seats.map Prod.fst) 0 where
  bus := Ring.keeps_ofCapacity _
  cursor := Nat.le_refl _
  seated := (delivers_start config seats).names
  paid := by
    have hheld : ∀ i, (start config seats).held i = [] := by
      intro i
      unfold held
      show [] ++ ((seats.map fun seat => Observer.ofCapacity seat.1 seat.2)[i]?.map
        (·.queue)).getD [] = []
      rw [List.getElem?_map, Option.map_map]
      cases seats[i]? <;> rfl
    have hburden : (start config seats).burden (seats.map Prod.fst).length = 0 := by
      unfold burden
      apply Finset.sum_eq_zero
      intro i _
      rw [hheld]
      rfl
    rw [hburden]
    exact Nat.zero_le _

theorem held_eq {i : Nat} {observer : Observer} (h : x.audience.observers[i]? = some observer) :
    x.held i = (x.busy i).toList ++ observer.queue := by
  unfold held
  rw [h]
  rfl

theorem burden_le (h : ∀ i, (y.held i).Sublist (x.held i)) (n : Nat) :
    y.burden n ≤ x.burden n := by
  apply Finset.sum_le_sum
  intro i _
  exact Nat.mul_le_mul_left n ((h i).countP_le)

/-- A step that reaches one observer leaves the shares of the others. -/
theorem burden_replace {i : Nat} (hlt : i < n) (h : ∀ j, j ≠ i → y.held j = x.held j) :
    y.burden n + n * ordinary (x.held i) = x.burden n + n * ordinary (y.held i) := by
  have hmem : i ∈ Finset.range n := Finset.mem_range.mpr hlt
  -- The shares of the others make up the same sum before and after.
  have hothers : ∑ j ∈ (Finset.range n).erase i, n * ordinary (y.held j) =
      ∑ j ∈ (Finset.range n).erase i, n * ordinary (x.held j) := by
    apply Finset.sum_congr rfl
    intro j hj
    rw [h j (Finset.ne_of_mem_erase hj)]
  have hx := Finset.add_sum_erase (Finset.range n) (fun j => n * ordinary (x.held j)) hmem
  have hy := Finset.add_sum_erase (Finset.range n) (fun j => n * ordinary (y.held j)) hmem
  unfold burden
  omega

theorem Solvent.place (solvent : x.Solvent names spare) {i : Nat} {observer : Observer}
    (h : x.audience.observers[i]? = some observer) : names[i]? = some observer.name := by
  rw [← solvent.seated, List.getElem?_map, h]
  rfl

/-- A step that publishes nothing and leaves the bus alone. -/
theorem Solvent.keep {spare' : Nat} (solvent : x.Solvent names spare)
    (hpublished : y.published = x.published) (hbus : y.audience.bus = x.audience.bus)
    (hcursor : y.audience.cursor = x.audience.cursor)
    (hnames : y.audience.observers.map (·.name) = x.audience.observers.map (·.name))
    (hpaid : y.offered names + y.burden names.length + spare' ≤
      x.offered names + x.burden names.length + spare) : y.Solvent names spare' := by
  have hunheard : y.unheard names = x.unheard names := by
    unfold unheard
    rw [hpublished, hcursor]
  have hbefore := solvent.paid
  refine ⟨?_, ?_, hnames.trans solvent.seated, ?_⟩
  · rw [hbus, hpublished]
    exact solvent.bus
  · rw [hcursor, hpublished]
    exact solvent.cursor
  · rw [hpublished, hunheard]
    omega

/-! ## 4. What is published -/

theorem unheard_publish (solvent : x.Solvent names spare) (event : Event) :
    (x.publish event).unheard names = x.unheard names + cost names event := by
  show (((x.published ++ [event]).drop x.audience.cursor).map (cost names)).sum = _
  rw [List.drop_append_of_le_length solvent.cursor, List.map_append, List.sum_append]
  rfl

theorem solvent_publish (solvent : x.Solvent names spare) {event : Event} {rest : Nat}
    (h : (if event.isReport then cost names event + 1 else 0) + rest ≤ spare) :
    (x.publish event).Solvent names rest := by
  have hpaid := solvent.paid
  refine ⟨Ring.keeps_send solvent.bus event, ?_, solvent.seated, ?_⟩
  · show x.audience.cursor ≤ (x.published ++ [event]).length
    rw [List.length_append]
    exact Nat.le_trans solvent.cursor (Nat.le_add_right _ _)
  · have hoffered : (x.publish event).offered names = x.offered names := rfl
    have hburden : (x.publish event).burden names.length = x.burden names.length := rfl
    have hreports : (x.publish event).published.countP (·.isReport) =
        x.published.countP (·.isReport) + if event.isReport then 1 else 0 := by
      show (x.published ++ [event]).countP _ = _
      rw [List.countP_append, List.countP_singleton]
    have hordinary : ordinary (x.publish event).published =
        ordinary x.published + if event.isReport then 0 else 1 :=
      ordinary_concat x.published event
    rw [hreports, hordinary, unheard_publish solvent, hoffered, hburden]
    -- What is to spare pays for a report, while an ordinary event pays for itself.
    cases hreport : event.isReport with
    | true =>
      rw [hreport] at h
      simp only [if_true, Nat.add_zero] at h ⊢
      omega
    | false =>
      rw [hreport] at h
      simp only [Bool.false_eq_true, if_false] at h ⊢
      rw [cost_ordinary hreport, Nat.mul_add, Nat.mul_one]
      omega

theorem Solvent.publish (solvent : x.Solvent names spare) {event : Event}
    (h : event.isReport = false) : (x.publish event).Solvent names spare := by
  apply solvent_publish solvent
  rw [h]
  simp

/-! ## 5. The listener -/

theorem solvent_find (solvent : x.Solvent names spare) (hnone : x.offering = none) :
    (x.find (x.audience.bus.receive x.audience.cursor)).Solvent names spare := by
  have hpaid := solvent.paid
  have hidle : x.offered names = 0 := by
    unfold offered
    rw [hnone]
  rw [Ring.receive_of_keeps solvent.bus]
  by_cases hbehind : x.audience.cursor < x.published.length - x.audience.bus.slots
  · -- Nothing follows any more from the events that it missed.
    rw [if_pos hbehind]
    refine ⟨solvent.bus, Nat.sub_le _ _, solvent.seated, ?_⟩
    have hmissed : ((x.published.drop (x.published.length - x.audience.bus.slots)).map
        (cost names)).sum ≤ x.unheard names := by
      apply List.Sublist.sum_le_sum
      · exact (List.drop_sublist_drop_left _ (Nat.le_of_lt hbehind)).map _
      · exact fun _ _ => Nat.zero_le _
    show _ + (((x.published.drop (x.published.length - x.audience.bus.slots)).map
      (cost names)).sum + x.offered names + x.burden names.length) + spare ≤ _
    have hsame : (x.find (.lagged (x.published.length - x.audience.bus.slots - x.audience.cursor)
        (x.published.length - x.audience.bus.slots))).published = x.published := rfl
    rw [hsame]
    omega
  · rw [if_neg hbehind]
    cases hevent : x.published[x.audience.cursor]? with
    | none =>
      simp only [find]
      split
      · exact solvent
      · exact solvent.keep rfl rfl rfl rfl (Nat.le_refl _)
    | some event =>
      -- What belonged to the event now belongs to its offers.
      obtain ⟨hlt, hget⟩ := List.getElem?_eq_some_iff.mp hevent
      refine ⟨solvent.bus, hlt, solvent.seated, ?_⟩
      have hnext : x.unheard names = cost names event +
          ((x.published.drop (x.audience.cursor + 1)).map (cost names)).sum := by
        unfold unheard
        rw [List.drop_eq_getElem_cons hlt, hget, List.map_cons, List.sum_cons]
      show _ + (((x.published.drop (x.audience.cursor + 1)).map (cost names)).sum +
        cost names event + x.burden names.length) + spare ≤ _
      have hsame : (x.find (.message event (x.audience.cursor + 1))).published = x.published := rfl
      rw [hsame]
      omega

/-- What is offered to an observer costs it no more than the price: a share that it keeps, or the
report of the loss. -/
theorem offer_price (observer : Observer) (event : Event) (hpos : 0 < n) :
    n * ordinary (observer.offer event).queue + (observer.report? event).toList.length ≤
      n * ordinary observer.queue + price n event observer.name := by
  by_cases habout : event.about? = some observer.name
  · have hfate : observer.fate event = .skipped := if_pos habout
    unfold Observer.offer Observer.report?
    rw [hfate]
    exact Nat.le_add_right _ _
  · unfold Observer.offer Observer.report?
    cases observer.fate event with
    | skipped => exact Nat.le_add_right _ _
    | queued =>
      show n * ordinary (observer.queue ++ [event]) + 0 ≤ _
      rw [ordinary_concat, Nat.mul_add, Nat.add_zero]
      apply Nat.add_le_add_left
      cases hreport : event.isReport with
      | true => exact Nat.zero_le _
      | false =>
        rw [price_ordinary hreport]
        exact Nat.le_of_eq (Nat.mul_one n)
    | lost reason =>
      cases hoverflow : event.isOverflow with
      | true => exact Nat.le_add_right _ _
      | false =>
        apply Nat.add_le_add_left
        unfold price
        rw [if_neg habout, hoverflow]
        show 1 ≤ if event.isReport then 1 else n
        split
        · exact Nat.le_refl 1
        · exact hpos

theorem report_cases {observer : Observer} {event report : Event}
    (h : observer.report? event = some report) :
    ∃ reason, report = .overflowOf observer.name reason := by
  unfold Observer.report? at h
  split at h
  · next reason _ =>
    split at h
    · cases h
    · exact ⟨reason, (Option.some.inj h).symm⟩
  · cases h

theorem held_set {i : Nat} {next : Observer} (hbusy : ∀ j, j ≠ i → y.busy j = x.busy j)
    (hobservers : y.audience.observers = x.audience.observers.set i next) (j : Nat) (hj : j ≠ i) :
    y.held j = x.held j := by
  unfold held
  rw [hbusy j hj, hobservers, List.getElem?_set_ne (Ne.symm hj)]

theorem solvent_queue (solvent : x.Solvent names 0) {event : Event} {i : Nat} {observer : Observer}
    (hoffering : x.offering = some (event, i))
    (hplace : x.audience.observers[i]? = some observer) :
    (x.queue event i observer).Solvent names (observer.report? event).toList.length := by
  obtain ⟨hlt, hget⟩ := List.getElem?_eq_some_iff.mp (solvent.place hplace)
  have hpos : 0 < names.length := Nat.lt_of_le_of_lt (Nat.zero_le i) hlt
  have hafter : (x.queue event i observer).audience.observers[i]? = some (observer.offer event) :=
    List.getElem?_set_self (List.getElem?_eq_some_iff.mp hplace).1
  apply solvent.keep (y := x.queue event i observer) rfl rfl rfl
    (names_set hplace (queue_offer observer event).1)
  -- The offer is paid for with the price, and what the observer does not spend it keeps.
  have hprice := offer_price observer event hpos
  have hspent : x.offered names = price names.length event observer.name +
      (x.queue event i observer).offered names := by
    unfold offered
    rw [hoffering]
    show ((names.drop i).map _).sum = _
    rw [List.drop_eq_getElem_cons hlt, hget, List.map_cons, List.sum_cons]
    rfl
  have hothers := held_set (x := x) (y := x.queue event i observer) (fun _ _ => rfl) rfl
  have hshares := burden_replace hlt hothers
  have hbusy : (x.queue event i observer).busy i = x.busy i := rfl
  rw [held_eq hplace, held_eq hafter, hbusy] at hshares
  unfold ordinary at hshares hprice
  rw [List.countP_append, List.countP_append, Nat.mul_add, Nat.mul_add] at hshares
  omega

theorem solvent_listen (solvent : x.Solvent names 0) : x.listen.Solvent names 0 := by
  unfold listen
  split
  · next hnone =>
    unfold hear
    split
    · exact solvent
    · exact solvent.keep rfl rfl rfl rfl (Nat.le_refl _)
    · exact solvent_find solvent hnone
  · next event i hoffering =>
    cases hplace : x.audience.observers[i]? with
    | none =>
      rw [offer_nobody hplace]
      exact solvent.keep rfl rfl rfl rfl (Nat.add_le_add_right (Nat.zero_le _) _)
    | some observer =>
      have hqueued := solvent_queue solvent hoffering hplace
      simp only [offer, hplace]
      split
      · next report hreport =>
        -- Nothing follows from a report of a loss, so the price that is left over covers it.
        obtain ⟨reason, rfl⟩ := report_cases hreport
        rw [hreport] at hqueued
        apply solvent_publish hqueued
        rw [cost_overflowOf]
        exact Nat.le_refl 1
      · next hreport =>
        rw [hreport] at hqueued
        exact hqueued

/-! ## 6. The observers and the host -/

/-- A step after which nobody has an event that he did not have before. -/
theorem Solvent.shrink (solvent : x.Solvent names 0) (hpublished : y.published = x.published)
    (hbus : y.audience.bus = x.audience.bus) (hcursor : y.audience.cursor = x.audience.cursor)
    (hnames : y.audience.observers.map (·.name) = x.audience.observers.map (·.name))
    (hoffering : y.offering = x.offering) (hheld : ∀ j, (y.held j).Sublist (x.held j)) :
    y.Solvent names 0 := by
  apply solvent.keep hpublished hbus hcursor hnames
  have hoffered : y.offered names = x.offered names := by
    unfold offered
    rw [hoffering]
  rw [hoffered]
  exact Nat.add_le_add_left (burden_le hheld names.length) _

theorem solvent_take (solvent : x.Solvent names 0) (i : Nat) : (x.take i).Solvent names 0 := by
  cases hbusy : x.busy i with
  | some event =>
    have hsame : x.take i = x := by simp only [take, hbusy]
    rw [hsame]
    exact solvent
  | none =>
    rcases take_cases x i with hsame | ⟨observer, event, queue, hplace, hqueue, htake⟩
    · rw [hsame]
      exact solvent
    · rw [htake]
      refine solvent.shrink rfl rfl rfl (names_set hplace rfl) rfl fun j => ?_
      by_cases hj : j = i
      · -- The event only changes from one hand to the other.
        have hlt := (List.getElem?_eq_some_iff.mp hplace).1
        rw [hj, held_eq (List.getElem?_set_self hlt), held_eq hplace, hbusy, hqueue]
        simp only [Function.update_self, Option.toList_some, Option.toList_none,
          List.singleton_append, List.nil_append, List.Sublist.refl]
      · rw [held_set (fun j hj => Function.update_of_ne hj _ _) rfl j hj]

theorem held_finish (x : Relay) (i : Nat) :
    x.held i = (x.busy i).toList ++ (x.finish i).held i := by
  unfold held finish
  simp only [Function.update_self, Option.toList_none, List.nil_append]

theorem held_finish_of_ne {i j : Nat} (h : j ≠ i) : (x.finish i).held j = x.held j := by
  unfold held finish
  simp only [Function.update_of_ne h]

theorem burden_finish {i : Nat} (hlt : i < n) :
    (x.finish i).burden n + n * ordinary (x.busy i).toList = x.burden n := by
  have hshares := burden_replace (x := x) hlt fun j hj => held_finish_of_ne hj
  have hheld : ordinary (x.held i) =
      ordinary (x.busy i).toList + ordinary ((x.finish i).held i) := by
    rw [held_finish x i]
    exact List.countP_append
  rw [hheld, Nat.mul_add] at hshares
  omega

theorem solvent_finish (solvent : x.Solvent names 0) (i : Nat) : (x.finish i).Solvent names 0 := by
  refine solvent.shrink rfl rfl rfl rfl rfl fun j => ?_
  by_cases hj : j = i
  · rw [hj, held_finish x i]
    exact List.sublist_append_right _ _
  · rw [held_finish_of_ne hj]

theorem solvent_panic (solvent : x.Solvent names 0) (i : Nat) (payload : Payload) :
    (x.panic i payload).Solvent names 0 := by
  unfold panic
  split
  · exact solvent
  · next event hbusy =>
    split
    · next report hreport =>
      obtain ⟨observer, hplace, hpanic⟩ := Option.bind_eq_some_iff.mp hreport
      unfold Observer.panicReport? at hpanic
      split at hpanic
      · cases hpanic
      · next hordinary =>
        cases hpanic
        obtain ⟨hlt, hget⟩ := List.getElem?_eq_some_iff.mp (solvent.place hplace)
        have hmem : observer.name ∈ names := List.mem_of_getElem hget
        -- The share of the event pays for the report of the panic, and for all that follows.
        have hback : (x.finish i).burden names.length + names.length = x.burden names.length := by
          have hfinish := burden_finish (x := x) hlt
          have hshare : ordinary (x.busy i).toList = 1 := by
            rw [hbusy]
            unfold ordinary
            rw [Bool.not_eq_true] at hordinary
            simp [hordinary]
          rwa [hshare, Nat.mul_one] at hfinish
        have hrich : (x.finish i).Solvent names names.length := by
          apply solvent.keep (y := x.finish i) rfl rfl rfl rfl
          have hoffered : (x.finish i).offered names = x.offered names := rfl
          omega
        exact solvent_publish hrich (cost_panicOf hmem payload.reason)
    · exact solvent_finish solvent i

theorem solvent_collapse (solvent : x.Solvent names 0) (i : Nat) :
    (x.collapse i).Solvent names 0 := by
  have hmodify : ∀ j, (x.collapse i).audience.observers[j]? =
      x.audience.observers[j]?.map fun observer =>
        if i = j then observer.collapse else observer :=
    x.audience.getElem?_collapse i
  refine (solvent_finish solvent i).shrink rfl rfl rfl (x.audience.names_collapse i) rfl
    fun j => ?_
  -- What waits for the one that is gone is lost, and the others have what they had.
  unfold held
  rw [hmodify]
  apply List.Sublist.append_left
  show (Option.getD _ []).Sublist ((x.audience.observers[j]?.map (·.queue)).getD [])
  cases x.audience.observers[j]? with
  | none => exact List.Sublist.refl _
  | some observer =>
    show (if i = j then observer.collapse else observer).queue.Sublist observer.queue
    split
    · exact List.nil_sublist _
    · exact List.Sublist.refl _

theorem solvent_step (solvent : x.Solvent names 0) (move : Move)
    (hmove : ∀ event, move = .publish event → event.isReport = false) :
    (x.step move).Solvent names 0 := by
  cases move with
  | publish event => exact solvent.publish (hmove event rfl)
  | listen => exact solvent_listen solvent
  | take i => exact solvent_take solvent i
  | finish i => exact solvent_finish solvent i
  | panic i payload => exact solvent_panic solvent i payload
  | request =>
    simp only [step]
    split
    · exact (solvent.publish rfl).keep rfl rfl rfl rfl (Nat.le_refl _)
    · exact solvent
  | conclude grace roster elapsed =>
    simp only [step]
    split
    · next verdict _ hverdict =>
      have hordinary : verdict.event.isReport = false := by
        unfold Event.isReport
        rcases kind_verdict hverdict with hkind | hkind <;> rw [hkind] <;> rfl
      exact (solvent.publish hordinary).keep rfl rfl rfl rfl (Nat.le_refl _)
    · exact solvent
  | silence =>
    simp only [step]
    split
    · exact solvent.keep rfl rfl rfl rfl (Nat.le_refl _)
    · exact solvent
  | dismiss =>
    simp only [step]
    split
    · exact solvent.keep rfl rfl rfl rfl (Nat.le_refl _)
    · exact solvent
  | comeBack =>
    simp only [step]
    split
    · split
      · exact solvent.keep rfl rfl rfl rfl (Nat.le_refl _)
      · exact solvent
    · exact solvent

theorem solvent_endure (solvent : x.Solvent names 0) (turns : List Turn)
    (h : ∀ event, .move (.publish event) ∈ turns → event.isReport = false) :
    (x.endure turns).Solvent names 0 := by
  induction turns generalizing x with
  | nil => exact solvent
  | cons turn turns ih =>
    refine ih (x := x.turn turn) ?_ fun event hmem => h event (List.mem_cons_of_mem _ hmem)
    cases turn with
    | move move =>
      apply solvent_step solvent
      rintro event rfl
      exact h event List.mem_cons_self
    | collapse i => exact solvent_collapse solvent i

/-! ## 7. Hosts that go on for ever -/

theorem published_find (x : Relay) (received : Received Event) :
    (x.find received).published = x.published := by
  cases received with
  | message event cursor => rfl
  | lagged missed cursor => rfl
  | empty =>
    simp only [find]
    split <;> rfl

theorem published_listen (x : Relay) : x.published <+: x.listen.published := by
  unfold listen
  split
  · unfold hear
    split
    · exact List.prefix_rfl
    · exact List.prefix_rfl
    · rw [published_find]
  · unfold offer
    split
    · exact List.prefix_rfl
    · split
      · exact List.prefix_append _ _
      · exact List.prefix_rfl

theorem published_step (x : Relay) (move : Move) : x.published <+: (x.step move).published := by
  cases move with
  | publish event => exact List.prefix_append _ _
  | listen => exact published_listen x
  | take i =>
    rcases take_cases x i with hsame | ⟨observer, event, queue, -, -, htake⟩
    · simp only [step, hsame, List.prefix_rfl]
    · simp only [step, htake, List.prefix_rfl]
  | finish i => exact List.prefix_rfl
  | panic i payload =>
    simp only [step, panic]
    split
    · exact List.prefix_rfl
    · split
      · exact List.prefix_append _ _
      · exact List.prefix_rfl
  | request =>
    simp only [step]
    split
    · exact List.prefix_append _ _
    · exact List.prefix_rfl
  | conclude grace roster elapsed =>
    simp only [step]
    split
    · exact List.prefix_append _ _
    · exact List.prefix_rfl
  | silence =>
    simp only [step]
    split <;> exact List.prefix_rfl
  | dismiss =>
    simp only [step]
    split <;> exact List.prefix_rfl
  | comeBack =>
    simp only [step]
    split
    · split <;> exact List.prefix_rfl
    · exact List.prefix_rfl

theorem published_turn (x : Relay) (turn : Turn) : x.published <+: (x.turn turn).published := by
  cases turn with
  | move move => exact published_step x move
  | collapse i => exact List.prefix_rfl

theorem published_endure (x : Relay) (turns : List Turn) :
    x.published <+: (x.endure turns).published := by
  induction turns generalizing x with
  | nil => exact List.prefix_rfl
  | cons turn turns ih => exact (published_turn x turn).trans (ih (x.turn turn))

/-- The host after the first `m` steps of a schedule. -/
def after (x : Relay) (schedule : Nat → Turn) (m : Nat) : Relay :=
  x.endure ((List.range m).map schedule)

theorem published_after (x : Relay) (schedule : Nat → Turn) {m later : Nat} (h : m ≤ later) :
    (x.after schedule m).published <+: (x.after schedule later).published := by
  obtain ⟨more, rfl⟩ := Nat.exists_eq_add_of_le h
  have hsplit : x.after schedule (m + more) =
      (x.after schedule m).endure (((List.range more).map (m + ·)).map schedule) := by
    unfold after endure
    rw [List.range_add, List.map_append, List.foldl_append]
  rw [hsplit]
  exact published_endure _ _

end Relay

/-- A number that grows within bounds is as large as it ever gets at some time. -/
theorem exists_largest {f : Nat → Nat} {bound : Nat} (h : ∀ m, f m ≤ bound) :
    ∃ m, ∀ later, f later ≤ f m := by
  classical
  have hroom : ∃ room m, bound - f m = room := ⟨_, 0, rfl⟩
  obtain ⟨m, hm⟩ := Nat.find_spec hroom
  refine ⟨m, fun later => ?_⟩
  have hleast : Nat.find hroom ≤ bound - f later := Nat.find_min' hroom ⟨later, rfl⟩
  have hm' := h m
  have hlater := h later
  omega

/-- As long as nobody else publishes reports, at most `n * n` reports about the `n` observers are
published for every other event, whatever the names of the observers and the room in their queues,
whichever of them are slow, panic or are gone, and however their steps and those of the listener,
of the shutdown and of the publishers come.  So a host on which no other events are published any
more comes to a point after which nothing is published at all. -/
theorem reports_do_not_feed_themselves (config : Config) (seats : List (String × Nat)) :
    (∀ turns : List Relay.Turn,
      (∀ event, .move (.publish event) ∈ turns → event.isReport = false) →
      let x := (Relay.start config seats).endure turns
      x.published.countP (·.isReport) ≤
        seats.length * seats.length * x.published.countP fun event => !event.isReport) ∧
    (∀ schedule : Nat → Relay.Turn,
      (∀ m event, schedule m = .move (.publish event) → event.isReport = false) →
      let x := (Relay.start config seats).after schedule
      (∃ most, ∀ m, ((x m).published.countP fun event => !event.isReport) ≤ most) →
      ∃ m, ∀ later, m ≤ later → (x later).published = (x m).published) := by
  have hbound : ∀ turns : List Relay.Turn,
      (∀ event, .move (.publish event) ∈ turns → event.isReport = false) →
      ((Relay.start config seats).endure turns).published.countP (·.isReport) ≤
        seats.length * seats.length * Relay.ordinary
          ((Relay.start config seats).endure turns).published := by
    intro turns houtside
    have hpaid := (Relay.solvent_endure (Relay.solvent_start config seats) turns houtside).paid
    rw [List.length_map] at hpaid
    omega
  refine ⟨hbound, ?_⟩
  intro schedule houtside x ⟨most, hmost⟩
  have hreports : ∀ m, (x m).published.countP (·.isReport) ≤
      seats.length * seats.length * Relay.ordinary (x m).published := by
    intro m
    apply hbound
    intro event hmem
    obtain ⟨m, -, hm⟩ := List.mem_map.mp hmem
    exact houtside m event hm
  -- What is published stays within bounds, and it only ever grows.
  have hlength : ∀ m, (x m).published.length ≤ seats.length * seats.length * most + most := by
    intro m
    have hsplit := Relay.length_eq_reports_add_ordinary (x m).published
    have hshares := Nat.mul_le_mul_left (seats.length * seats.length) (hmost m)
    exact hsplit ▸ Nat.add_le_add ((hreports m).trans hshares) (hmost m)
  obtain ⟨m, hlargest⟩ := exists_largest hlength
  refine ⟨m, fun later hlater => ?_⟩
  have hgrown := Relay.published_after (Relay.start config seats) schedule hlater
  exact (hgrown.eq_of_length_le (hlargest later)).symm

/-- Two observers with room for one event that panic on the same event, each while the queue of the
other is full: there cannot be more reports. -/
theorem reports_do_not_feed_themselves_two :
    let turns : List Relay.Turn :=
      [.move (.publish { kind := .loopStopped })] ++ List.replicate 4 (.move .listen) ++
        [.move (.take 0), .move (.panic 0 (.text "boom"))] ++ List.replicate 8 (.move .listen) ++
        [.move (.take 1), .move (.panic 1 (.text "bang"))] ++ List.replicate 8 (.move .listen) ++
        [.collapse 0]
    let x := (Relay.start {} [("a", 1), ("b", 1)]).endure turns
    x.published = [{ kind := .loopStopped }, .panicOf "a" "boom", .overflowOf "b" "full",
        .panicOf "b" "bang", .overflowOf "a" "full"] ∧
      x.published.countP (·.isReport) ≤
        2 * 2 * x.published.countP fun event => !event.isReport := by
  intro turns x
  refine ⟨by decide +kernel, (reports_do_not_feed_themselves {} [("a", 1), ("b", 1)]).1 turns ?_⟩
  intro event hmem
  simp [turns] at hmem
  rw [hmem]
  rfl

end Sequencer
