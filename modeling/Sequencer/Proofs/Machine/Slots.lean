import Sequencer.Machine.Mailbox
import Mathlib.Data.List.Nodup

/-!
# Slots — who holds the slots of a mailbox, and who waits for one

Every slot of a mailbox is free, holds a request, or is reserved for a sender that waited for it.
The senders come in one order: those with a reserved slot first, and behind them those that still
wait.  A request that is taken out moves the border between the two by one sender and changes
nothing else in that order.
-/

namespace Sequencer.Mailbox

variable {ρ : Type} {mailbox mailbox' : Mailbox ρ} {sender other : Nat} {request : ρ}

/-- The senders that have a reserved slot or wait for one, in the order in which they came. -/
def senders (mailbox : Mailbox ρ) : List Nat := mailbox.granted ++ mailbox.waiting

/-- No slot is used twice, and no sender is there twice; nobody waits for a closed mailbox. -/
structure Orderly (mailbox : Mailbox ρ) : Prop where
  room : mailbox.taken ≤ mailbox.capacity
  distinct : mailbox.senders.Nodup
  unwaited : mailbox.closed = true → mailbox.waiting = []

theorem Orderly.nodup_granted (orderly : mailbox.Orderly) : mailbox.granted.Nodup :=
  (List.nodup_append.mp orderly.distinct).1

theorem Orderly.nodup_waiting (orderly : mailbox.Orderly) : mailbox.waiting.Nodup :=
  (List.nodup_append.mp orderly.distinct).2.1

theorem Orderly.notMem_waiting (orderly : mailbox.Orderly) (h : sender ∈ mailbox.granted) :
    sender ∉ mailbox.waiting := fun hwaiting =>
  (List.nodup_append.mp orderly.distinct).2.2 _ h _ hwaiting rfl

/-! ## 1. Requests that enter -/

theorem orderly_enter (request : ρ) (orderly : mailbox.Orderly) (h : mailbox.hasRoom = true) :
    (mailbox.enter request).Orderly := by
  have hroom : mailbox.taken < mailbox.capacity := of_decide_eq_true h
  simp only [taken] at hroom
  refine ⟨?_, orderly.distinct, orderly.unwaited⟩
  simp only [enter, taken, List.length_append, List.length_singleton]
  omega

theorem mem_granted_forget (orderly : mailbox.Orderly) :
    other ∈ (mailbox.forget sender).granted ↔ other ≠ sender ∧ other ∈ mailbox.granted :=
  orderly.nodup_granted.mem_erase_iff

theorem mem_waiting_forget (orderly : mailbox.Orderly) :
    other ∈ (mailbox.forget sender).waiting ↔ other ≠ sender ∧ other ∈ mailbox.waiting :=
  orderly.nodup_waiting.mem_erase_iff

/-- A sender that goes leaves the others in their order. -/
theorem orderly_forget (sender : Nat) (orderly : mailbox.Orderly) :
    (mailbox.forget sender).Orderly := by
  refine ⟨?_, ?_, fun hclosed => ?_⟩
  · have hroom := orderly.room
    have hlength := List.length_erase_le (a := sender) (l := mailbox.granted)
    simp only [taken, forget] at hroom hlength ⊢
    omega
  · refine List.nodup_append.mpr ⟨orderly.nodup_granted.erase sender,
      orderly.nodup_waiting.erase sender, fun a ha b hb hab => ?_⟩
    subst hab
    exact orderly.notMem_waiting (List.mem_of_mem_erase ha) (List.mem_of_mem_erase hb)
  · simp only [forget, orderly.unwaited hclosed, List.erase_nil]

theorem orderly_enter_granted (request : ρ) (orderly : mailbox.Orderly)
    (h : sender ∈ mailbox.granted) : ((mailbox.forget sender).enter request).Orderly := by
  refine ⟨?_, (orderly_forget sender orderly).distinct, (orderly_forget sender orderly).unwaited⟩
  -- One reserved slot less and one request more.
  have hroom := orderly.room
  have hlength := List.length_erase_add_one h
  simp only [taken, enter, forget, List.length_append, List.length_singleton] at hroom ⊢
  omega

theorem orderly_wait (orderly : mailbox.Orderly) (hopen : mailbox.closed = false)
    (hgranted : sender ∉ mailbox.granted) (hwaiting : sender ∉ mailbox.waiting) :
    Orderly { mailbox with waiting := mailbox.waiting ++ [sender] } := by
  refine ⟨orderly.room, ?_, fun hclosed => ?_⟩
  · -- It is new, and stands behind everybody.
    show (mailbox.granted ++ (mailbox.waiting ++ [sender])).Nodup
    rw [← List.append_assoc]
    refine List.nodup_append.mpr ⟨orderly.distinct, List.pairwise_singleton _ _, ?_⟩
    intro other hother last hlast hsame
    rw [hsame, List.mem_singleton.mp hlast] at hother
    exact (List.mem_append.mp hother).elim hgranted hwaiting
  · cases hclosed.symm.trans hopen

/-- A sender changes the queue only by a request that enters, and never whether the mailbox is
closed. -/
theorem send_cases {posting : Posting}
    (h : mailbox.send sender request = (mailbox', posting)) :
    mailbox'.closed = mailbox.closed ∧ mailbox'.capacity = mailbox.capacity ∧
      (posting = .closed ↔ mailbox.closed = true) ∧
      mailbox'.queue =
        if posting = .entered then mailbox.queue ++ [request] else mailbox.queue := by
  unfold send at h
  split at h
  · next hclosed =>
    cases h
    exact ⟨rfl, rfl, ⟨fun _ => hclosed, fun _ => rfl⟩, rfl⟩
  · next hopen =>
    split at h
    · cases h
      exact ⟨rfl, rfl, ⟨(fun h => by cases h), fun hclosed => absurd hclosed hopen⟩, rfl⟩
    · split at h
      · cases h
        exact ⟨rfl, rfl, ⟨(fun h => by cases h), fun hclosed => absurd hclosed hopen⟩, rfl⟩
      · split at h
        · cases h
          exact ⟨rfl, rfl, ⟨(fun h => by cases h), fun hclosed => absurd hclosed hopen⟩, rfl⟩
        · cases h
          exact ⟨rfl, rfl, ⟨(fun h => by cases h), fun hclosed => absurd hclosed hopen⟩, rfl⟩

theorem orderly_send {posting : Posting} (orderly : mailbox.Orderly)
    (h : mailbox.send sender request = (mailbox', posting)) : mailbox'.Orderly := by
  unfold send at h
  split at h
  · cases h
    exact orderly_forget sender orderly
  · next hopen =>
    split at h
    · next hgranted =>
      cases h
      exact orderly_enter_granted request orderly hgranted
    · next hgranted =>
      split at h
      · cases h
        exact orderly
      · next hwaiting =>
        split at h
        · next hroom =>
          cases h
          exact orderly_enter request orderly hroom
        · cases h
          exact orderly_wait orderly (Bool.not_eq_true _ ▸ hopen) hgranted hwaiting

/-- A sender that is told to wait, waits; any other one goes. -/
theorem mem_senders_send {posting : Posting} (orderly : mailbox.Orderly)
    (h : mailbox.send sender request = (mailbox', posting)) (other : Nat) :
    (other ∈ mailbox'.granted ↔ other ≠ sender ∧ other ∈ mailbox.granted) ∧
      (other ∈ mailbox'.waiting ↔
        other = sender ∧ posting = .full ∨ other ≠ sender ∧ other ∈ mailbox.waiting) := by
  -- The cases are those of `send`: closed, with a slot reserved, waiting already, and new.
  unfold send at h
  split at h
  · cases h
    simp [mem_granted_forget orderly, mem_waiting_forget orderly]
  · split at h
    · cases h
      simp [enter, mem_granted_forget orderly, mem_waiting_forget orderly]
    · next hgranted =>
      split at h
      · next hwaiting =>
        cases h
        grind
      · next hwaiting =>
        split at h
        · cases h
          simp only [enter]
          grind
        · cases h
          grind

/-! ## 2. Requests that leave -/

theorem queue_grant (mailbox : Mailbox ρ) : mailbox.grant.1.queue = mailbox.queue := by
  unfold grant
  split <;> rfl

theorem closed_grant (mailbox : Mailbox ρ) : mailbox.grant.1.closed = mailbox.closed := by
  unfold grant
  split <;> rfl

theorem capacity_grant (mailbox : Mailbox ρ) : mailbox.grant.1.capacity = mailbox.capacity := by
  unfold grant
  split <;> rfl

theorem orderly_grant (orderly : mailbox.Orderly) (h : mailbox.hasRoom = true) :
    mailbox.grant.1.Orderly := by
  have hroom : mailbox.taken < mailbox.capacity := of_decide_eq_true h
  unfold grant
  split
  · exact orderly
  · next first waiting hwaiting =>
    refine ⟨?_, ?_, fun hclosed => ?_⟩
    · simp only [taken, List.length_append, List.length_singleton] at hroom ⊢
      omega
    · -- The first one that waited is the last one with a slot: the order of all is the same.
      have hdistinct := orderly.distinct
      simpa only [senders, hwaiting, List.append_assoc, List.singleton_append] using hdistinct
    · rw [orderly.unwaited hclosed] at hwaiting
      cases hwaiting

/-- The slot goes to the first one that waits. -/
theorem mem_senders_grant (orderly : mailbox.Orderly) :
    (other ∈ mailbox.grant.1.granted ↔ other ∈ mailbox.granted ∨ mailbox.grant.2 = some other) ∧
      (other ∈ mailbox.grant.1.waiting ↔
        other ∈ mailbox.waiting ∧ mailbox.grant.2 ≠ some other) := by
  unfold grant
  split
  · next hwaiting => simp [hwaiting]
  · next first waiting hwaiting =>
    have hfirst := hwaiting ▸ orderly.nodup_waiting
    simp only [hwaiting, List.mem_append, List.mem_cons, Option.some.injEq]
    grind

theorem waiting_of_grant (h : mailbox.grant.2 = some other) : other ∈ mailbox.waiting := by
  unfold grant at h
  split at h
  · cases h
  · next first waiting hwaiting =>
    cases h
    rw [hwaiting]
    exact List.mem_cons_self

/-- The mailbox without its oldest request has a slot to give. -/
theorem orderly_take {queue : List ρ} (orderly : mailbox.Orderly)
    (h : mailbox.queue = request :: queue) :
    Orderly { mailbox with queue } ∧ { mailbox with queue }.hasRoom = true := by
  have hroom := orderly.room
  simp only [taken, h, List.length_cons] at hroom
  refine ⟨⟨?_, orderly.distinct, orderly.unwaited⟩, decide_eq_true ?_⟩
  · simp only [taken]
    omega
  · simp only [taken]
    omega

theorem queue_abandon (mailbox : Mailbox ρ) (sender : Nat) :
    (mailbox.abandon sender).1.queue = mailbox.queue := by
  unfold abandon
  split
  · exact queue_grant _
  · rfl

theorem closed_abandon (mailbox : Mailbox ρ) (sender : Nat) :
    (mailbox.abandon sender).1.closed = mailbox.closed := by
  unfold abandon
  split
  · exact closed_grant _
  · rfl

theorem capacity_abandon (mailbox : Mailbox ρ) (sender : Nat) :
    (mailbox.abandon sender).1.capacity = mailbox.capacity := by
  unfold abandon
  split
  · exact capacity_grant _
  · rfl

theorem orderly_abandon (sender : Nat) (orderly : mailbox.Orderly) :
    (mailbox.abandon sender).1.Orderly := by
  unfold abandon
  split
  · next h =>
    -- The slot that it held is free, and may be reserved again.
    refine orderly_grant (orderly_forget sender orderly) (decide_eq_true ?_)
    have hroom := orderly.room
    have hlength := List.length_erase_add_one h.1
    simp only [taken, forget] at hroom ⊢
    omega
  · exact orderly_forget sender orderly

/-- A sender that gives up goes, and its slot goes to the next one. -/
theorem mem_senders_abandon (orderly : mailbox.Orderly) :
    (other ∈ (mailbox.abandon sender).1.granted ↔
      other ≠ sender ∧ other ∈ mailbox.granted ∨ (mailbox.abandon sender).2 = some other) ∧
      (other ∈ (mailbox.abandon sender).1.waiting ↔
        (other ≠ sender ∧ other ∈ mailbox.waiting) ∧ (mailbox.abandon sender).2 ≠ some other) := by
  unfold abandon
  split
  · rw [(mem_senders_grant (orderly_forget sender orderly)).1,
      (mem_senders_grant (orderly_forget sender orderly)).2, mem_granted_forget orderly,
      mem_waiting_forget orderly]
    exact ⟨Iff.rfl, Iff.rfl⟩
  · simp [mem_granted_forget orderly, mem_waiting_forget orderly]

theorem waiting_of_abandon (orderly : mailbox.Orderly)
    (h : (mailbox.abandon sender).2 = some other) : other ≠ sender ∧ other ∈ mailbox.waiting := by
  unfold abandon at h
  split at h
  · exact (mem_waiting_forget orderly).mp (waiting_of_grant h)
  · cases h

/-- Those with a reserved slot stay with it when the mailbox closes, and nobody waits any more. -/
theorem orderly_close (orderly : mailbox.Orderly) : mailbox.close.1.drain.2.Orderly := by
  have hroom := orderly.room
  refine ⟨?_, ?_, fun _ => rfl⟩
  · simp only [taken, close, drain, List.length_nil] at hroom ⊢
    omega
  · show (mailbox.granted ++ []).Nodup
    rw [List.append_nil]
    exact orderly.nodup_granted

end Sequencer.Mailbox
