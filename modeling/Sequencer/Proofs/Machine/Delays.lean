import Sequencer.Proofs.Machine.Closing

/-!
# Delays — transitions that open at once, or after a wait

The logic opens transitions, one within another, and every one that closes queues a state.  It may
wait before it opens one, and does nothing else meanwhile.  Once the machine is cancelled the wait
is over as soon as it is looked at, and no transition opens, unless the time is over as well and is
seen first.
-/

namespace Sequencer

/-- What becomes of a delay of a cancelled machine. -/
theorem Core.delayed_cancelled (elapsed cancelFirst : Bool) :
    Core.delayed true elapsed cancelFirst =
      if elapsed && !cancelFirst then .opened else .interrupted := by
  cases elapsed <;> cases cancelFirst <;> rfl

/-! ## 1. A machine and the transitions of its logic -/

structure Enactment where
  traffic : Traffic
  /-- Whether the logic waits before a transition. -/
  delayed : Bool := false
  /-- How many transitions are open, one within another. -/
  opened : Nat := 0

namespace Enactment

def start (config : Config) (name initial : String) (hosted : Bool) : Enactment :=
  { traffic := Traffic.start config name initial hosted }

inductive Move where
  | traffic (move : Traffic.Move)
  /-- A transition opens at once. -/
  | enter
  /-- The logic begins to wait before a transition. -/
  | delay
  /-- The wait is looked at. -/
  | resume (elapsed cancelFirst : Bool)
  /-- The logic gives the wait up. -/
  | forgo

/-- Whether the logic can do something. -/
def ready (x : Enactment) : Bool := x.traffic.actor.service.isSome && !x.delayed

/-- A step of the machine.  The logic comes back when its transitions have closed, and a panic
closes them all. -/
def moved (x : Enactment) (move : Traffic.Move) : Enactment :=
  match move with
  | .panic => { traffic := x.traffic.step .panic }
  | .settle result =>
    if !x.delayed && x.opened = 0 then { x with traffic := x.traffic.step (.settle result) } else x
  | .deed .closeTransition =>
    if !x.delayed && 0 < x.opened then
      { x with traffic := x.traffic.step (.deed .closeTransition), opened := x.opened - 1 }
    else x
  | .deed deed => if x.delayed then x else { x with traffic := x.traffic.step (.deed deed) }
  | move => { x with traffic := x.traffic.step move }

/-- A step; one that cannot be taken changes nothing. -/
def step (x : Enactment) : Move → Enactment
  | .traffic move => x.moved move
  | .enter => if x.ready then { x with opened := x.opened + 1 } else x
  | .delay => if x.ready then { x with delayed := true } else x
  | .resume elapsed cancelFirst =>
    if x.delayed then
      match Core.delayed x.traffic.cancelled elapsed cancelFirst with
      | .interrupted => { x with delayed := false }
      | .opened => { x with delayed := false, opened := x.opened + 1 }
      | .waiting => x
    else x
  | .forgo => { x with delayed := false }

def run (x : Enactment) (moves : List Move) : Enactment := moves.foldl step x

/-- Whether it may end a wait. -/
def Move.resolves : Move → Bool
  | traffic .panic => true
  | resume _ _ => true
  | forgo => true
  | _ => false

/-- Whether it may open a transition or end the dispatch. -/
def Move.decides : Move → Bool
  | traffic move => move.returns
  | enter => true
  | resume _ _ => true
  | _ => false

variable {x : Enactment} {move : Move} {moves : List Move} {service : Service}

/-! ## 2. Steps within a dispatch -/

theorem moved_cases {move : Traffic.Move} (hmove : move.returns = false) :
    x.moved move = x ∨
      (move = .deed .closeTransition ∧ x.delayed = false ∧ 0 < x.opened ∧
        x.moved move = { x with traffic := x.traffic.step move, opened := x.opened - 1 }) ∨
      (move ≠ .deed .closeTransition ∧ (x.delayed = true → ∀ deed, move ≠ .deed deed) ∧
        x.moved move = { x with traffic := x.traffic.step move }) := by
  cases move with
  | settle result => cases hmove
  | panic => cases hmove
  | deed deed =>
    cases deed with
    | closeTransition =>
      by_cases hcloses : (!x.delayed && decide (0 < x.opened)) = true
      · have hopen := hcloses
        simp only [Bool.and_eq_true, Bool.not_eq_true', decide_eq_true_eq] at hopen
        exact .inr (.inl ⟨rfl, hopen.1, hopen.2, by simp only [moved, hcloses, if_true]⟩)
      · -- There is nothing to close, or the logic waits.
        exact .inl (by simp only [moved, hcloses]; rfl)
    | _ =>
      cases hdelayed : x.delayed with
      | true => exact .inl (by simp only [moved, hdelayed, if_true])
      | false => exact .inr (.inr ⟨nofun, nofun, by simp only [moved, hdelayed]; rfl⟩)
  | _ => exact .inr (.inr ⟨nofun, fun _ _ => nofun, by simp only [moved]⟩)

theorem pending_perform {move : Traffic.Move} (h : move ≠ .deed .closeTransition) (core : Core) :
    (move.perform core).pending = core.pending := by
  cases move with
  | deed deed =>
    cases deed with
    | closeTransition => exact absurd rfl h
    | _ => rfl
  | _ => rfl

/-- Since `y`, in the dispatch `service`, every transition that closed has queued a state, and no
other one has opened. -/
structure Queues (service : Service) (y x : Enactment) : Prop where
  busy : x.traffic.actor.service = some service
  queued : ∃ queued, x.traffic.actor.core.pending = y.traffic.actor.core.pending ++ queued ∧
    queued.length + x.opened = y.opened

variable {y : Enactment}

theorem queues_refl (hservice : x.traffic.actor.service = some service) : x.Queues service x :=
  ⟨hservice, [], (List.append_nil _).symm, Nat.zero_add _⟩

theorem Queues.step (queues : y.Queues service x) (hmove : move.decides = false) :
    y.Queues service (x.step move) := by
  have hsame : ∀ z : Enactment, z.traffic = x.traffic → z.opened = x.opened →
      y.Queues service z := fun z htraffic hopened =>
    ⟨by rw [htraffic]; exact queues.busy, by rw [htraffic, hopened]; exact queues.queued⟩
  cases move with
  | traffic move =>
    obtain ⟨hstill, hcore⟩ := Traffic.step_running queues.busy hmove
    obtain ⟨queued, hqueued, hcount⟩ := queues.queued
    rw [Enactment.step]
    rcases moved_cases (x := x) hmove with hmoved | ⟨rfl, -, hopen, hmoved⟩ | ⟨hcloses, -, hmoved⟩
    · exact hsame _ (by rw [hmoved]) (by rw [hmoved])
    · rw [hmoved]
      refine ⟨hstill, queued ++ [x.traffic.actor.core.current], ?_, ?_⟩
      · rw [hcore, ← List.append_assoc, ← hqueued]
        rfl
      · rw [List.length_append, List.length_singleton]
        dsimp only
        omega
    · rw [hmoved]
      exact ⟨hstill, queued, by rw [hcore, pending_perform hcloses, hqueued], hcount⟩
  | enter => cases hmove
  | resume elapsed cancelFirst => cases hmove
  | delay =>
    rw [Enactment.step]
    split
    · exact hsame _ rfl rfl
    · exact hsame _ rfl rfl
  | forgo => exact hsame _ rfl rfl

theorem Queues.run (queues : y.Queues service x) (hmoves : ∀ move ∈ moves, move.decides = false) :
    y.Queues service (x.run moves) :=
  List.foldlRecOn moves Enactment.step queues fun _ h move hmem => h.step (hmoves move hmem)

/-! ## 3. Waits -/

/-- The logic waits, and its transitions are open, within a dispatch. -/
def Within (x : Enactment) : Prop :=
  x.delayed = true ∨ 0 < x.opened → ∃ service, x.traffic.actor.service = some service

theorem within_start (config : Config) (name initial : String) (hosted : Bool) :
    (start config name initial hosted).Within := by
  rintro (hdelayed | hopen)
  · cases hdelayed
  · exact absurd hopen (Nat.lt_irrefl 0)

theorem within_moved (within : x.Within) (move : Traffic.Move) : (x.moved move).Within := by
  by_cases hmove : move.returns = false
  · intro hwithin
    have hbefore : x.delayed = true ∨ 0 < x.opened := by
      rcases moved_cases (x := x) hmove with hmoved | ⟨-, -, hopen, -⟩ | ⟨-, -, hmoved⟩
      · exact hmoved ▸ hwithin
      · exact .inr hopen
      · rw [hmoved] at hwithin
        exact hwithin
    obtain ⟨service, hservice⟩ := within hbefore
    have hstill := (Traffic.step_running hservice hmove).1
    rcases moved_cases (x := x) hmove with hmoved | ⟨-, -, -, hmoved⟩ | ⟨-, -, hmoved⟩
    · exact ⟨service, by rw [hmoved]; exact hservice⟩
    · exact ⟨service, by rw [hmoved]; exact hstill⟩
    · exact ⟨service, by rw [hmoved]; exact hstill⟩
  · -- Nothing is open, and nobody waits, once the dispatch has ended.
    cases move with
    | settle result =>
      simp only [moved]
      split
      · next hover =>
        simp only [Bool.and_eq_true, Bool.not_eq_true', decide_eq_true_eq] at hover
        rintro (hdelayed | hopen)
        · cases hover.1.symm.trans hdelayed
        · exact absurd hover.2 (Nat.ne_of_gt hopen)
      · exact within
    | panic =>
      rintro (hdelayed | hopen)
      · cases hdelayed
      · exact absurd hopen (Nat.lt_irrefl 0)
    | _ => exact absurd rfl hmove

theorem within_step (within : x.Within) (move : Move) : (x.step move).Within := by
  have hready : x.ready = true → ∃ service, x.traffic.actor.service = some service := fun h =>
    Option.isSome_iff_exists.mp (Bool.and_eq_true_iff.mp h).1
  cases move with
  | traffic move => exact within_moved within move
  | enter =>
    rw [step]
    split
    · next h => exact fun _ => hready h
    · exact within
  | delay =>
    rw [step]
    split
    · next h => exact fun _ => hready h
    · exact within
  | resume elapsed cancelFirst =>
    rw [step]
    split
    · next hdelayed =>
      split
      · exact fun _ => within (.inl hdelayed)
      · exact fun _ => within (.inl hdelayed)
      · exact within
    · exact within
  | forgo => exact fun h => within (.inr (h.resolve_left nofun))

theorem within_run (within : x.Within) (moves : List Move) : (x.run moves).Within :=
  List.foldlRecOn moves step within fun _ h move _ => within_step h move

/-- The logic is in its wait, in a dispatch of a cancelled machine, and stands where `y` does. -/
structure Held (y x : Enactment) : Prop where
  delayed : x.delayed = true
  cancelled : x.traffic.cancelled = true
  service : x.traffic.actor.service = y.traffic.actor.service
  core : x.traffic.actor.core = y.traffic.actor.core
  opened : x.opened = y.opened

/-- The logic does nothing until its wait is looked at. -/
theorem Held.step (held : y.Held x) (hservice : y.traffic.actor.service = some service)
    (hmove : move.resolves = false) : y.Held (x.step move) := by
  have hrunning := held.service.trans hservice
  cases move with
  | traffic move =>
    rw [Enactment.step]
    by_cases hreturns : move.returns = false
    · obtain ⟨hstill, hcore⟩ := Traffic.step_running hrunning hreturns
      have hcancelled :=
        Traffic.cancelled_change (Traffic.change_step x.traffic move) held.cancelled
      rcases moved_cases (x := x) hreturns with hmoved | ⟨-, hready, -⟩ | ⟨-, hidle, hmoved⟩
      · rw [hmoved]
        exact held
      · cases hready.symm.trans held.delayed
      · have hquiet : move.perform x.traffic.actor.core = x.traffic.actor.core := by
          cases move with
          | deed deed => exact absurd rfl (hidle held.delayed deed)
          | _ => rfl
        rw [hmoved]
        exact ⟨held.delayed, hcancelled, hstill.trans hservice.symm,
          (hcore.trans hquiet).trans held.core, held.opened⟩
    · cases move with
      | settle result =>
        -- The logic does not come back while it waits.
        have hnothing : x.moved (.settle result) = x := by
          simp only [moved, held.delayed, Bool.not_true, Bool.false_and]
          rfl
        rw [hnothing]
        exact held
      | panic => cases hmove
      | _ => exact absurd rfl hreturns
  | enter =>
    rw [Enactment.step, ready, held.delayed, Bool.not_true, Bool.and_false]
    exact held
  | delay =>
    rw [Enactment.step, ready, held.delayed, Bool.not_true, Bool.and_false]
    exact held
  | resume elapsed cancelFirst => cases hmove
  | forgo => cases hmove

theorem Held.run (held : y.Held x) (hservice : y.traffic.actor.service = some service)
    (hmoves : ∀ move ∈ moves, move.resolves = false) : y.Held (x.run moves) :=
  List.foldlRecOn moves Enactment.step held fun _ h move hmem =>
    h.step hservice (hmoves move hmem)

/-- The wait of a cancelled machine is over as soon as it is looked at. -/
theorem step_resume (hdelayed : x.delayed = true) (hcancelled : x.traffic.cancelled = true)
    (elapsed cancelFirst : Bool) :
    x.step (.resume elapsed cancelFirst) = { x with
      delayed := false
      opened := x.opened + if elapsed && !cancelFirst then 1 else 0 } := by
  rw [step, if_pos hdelayed, hcancelled, Core.delayed_cancelled]
  cases elapsed <;> cases cancelFirst <;> rfl

/-- What a wait comes to once the machine is cancelled. -/
structure Interrupts (x : Enactment) : Prop where
  waits : ∀ during, (∀ move ∈ during, move.resolves = false) → x.Held (x.run during)
  resumes : ∀ elapsed cancelFirst,
    x.step (.resume elapsed cancelFirst) = { x with
      delayed := false
      opened := x.opened + if elapsed && !cancelFirst then 1 else 0 }
  /-- Until the dispatch ends or another transition opens, the transitions that queue a state are
  those that were open, and one more only if its time was over and was seen first. -/
  queues : ∀ elapsed cancelFirst after, (∀ move ∈ after, move.decides = false) →
    let z := (x.step (.resume elapsed cancelFirst)).run after
    ∃ queued, z.traffic.actor.core.pending = x.traffic.actor.core.pending ++ queued ∧
      queued.length + z.opened = x.opened + if elapsed && !cancelFirst then 1 else 0

theorem interrupts_run (config : Config) (name initial : String) (hosted : Bool)
    (moves : List Move) :
    let x := (start config name initial hosted).run moves
    x.delayed = true → x.traffic.cancelled = true → x.Interrupts := by
  intro x hdelayed hcancelled
  have within : x.Within := within_run (within_start config name initial hosted) moves
  obtain ⟨service, hservice⟩ := within (.inl hdelayed)
  have hresumes := step_resume hdelayed hcancelled
  refine ⟨fun during hduring => ?_, hresumes, fun elapsed cancelFirst after hafter => ?_⟩
  · exact Held.run ⟨hdelayed, hcancelled, rfl, rfl, rfl⟩ hservice hduring
  · have hstill : (x.step (.resume elapsed cancelFirst)).traffic.actor.service = some service := by
      rw [hresumes]
      exact hservice
    have hqueued := ((queues_refl hstill).run hafter).queued
    rw [hresumes] at hqueued ⊢
    exact hqueued

end Enactment

end Sequencer
