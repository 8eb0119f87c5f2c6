import Sequencer.Proofs.Machine.Closing

/-!
# Completion — which steps complete a machine, and which cancel it

The logic completes its machine within a dispatch, and the machine is cancelled by the return of
that dispatch.  No other step of the machine, and none of those around it, does either.
-/

namespace Sequencer

/-! ## 1. Acts of the actor -/

/-- Whether an act leaves the completion of a machine as it is and does not cancel it. -/
def Actor.Mild (actor next : Actor) (effects : List Effect) : Prop :=
  next.core.completed = actor.core.completed ∧ .cancel ∉ effects

theorem any_cancels (effects : List Effect) :
    effects.any Effect.cancels = true ↔ .cancel ∈ effects := by
  rw [List.any_eq_true]
  constructor
  · rintro ⟨effect, hmem, hcancels⟩
    cases effect with
    | cancel => exact hmem
    | _ => cases hcancels
  · exact fun h => ⟨.cancel, h, rfl⟩

namespace Actor

theorem mild_notify (actor : Actor) (source : String) :
    actor.Mild (actor.notify source).1 (actor.notify source).2.1 := by
  unfold notify
  split <;> exact ⟨rfl, by simp⟩

theorem mild_request (actor : Actor) (sender : Nat) (request : Request) :
    actor.Mild (actor.request sender request).1 (actor.request sender request).2.1 := by
  refine ⟨rfl, ?_⟩
  unfold Actor.request
  simp only
  split <;> simp

theorem mild_abandon (actor : Actor) (sender : Nat) :
    actor.Mild (actor.abandon sender).1 (actor.abandon sender).2 :=
  ⟨rfl, by simp [abandon]⟩

theorem mild_startDispatch (actor : Actor) (core : Core) (chain : Chain) (reply : Option Nat)
    (cancelled : Bool) (h : core.completed = actor.core.completed) :
    actor.Mild (actor.startDispatch core chain reply cancelled).1
      (actor.startDispatch core chain reply cancelled).2.1 := by
  unfold startDispatch Chain.start
  cases cancelled with
  | true => exact ⟨h, by simp⟩
  | false => exact ⟨h, by simp⟩

theorem mild_serve {actor : Actor} {cancelled : Bool} {acted : Actor × List Effect × Doing}
    (h : actor.serve cancelled = some acted) : actor.Mild acted.1 acted.2.1 := by
  unfold serve at h
  cases htake : actor.mailbox.take with
  | none =>
    rw [htake] at h
    cases h
  | some taken =>
    obtain ⟨request, mailbox, reserved⟩ := taken
    rw [htake] at h
    cases h
    obtain ⟨hcompleted, heffects⟩ := mild_startDispatch { actor with mailbox }
      actor.core.beginRefresh { source := request.source } request.reply cancelled rfl
    exact ⟨hcompleted, fun hmem => heffects ((List.mem_append.mp hmem).resolve_left (by simp))⟩

theorem mild_leave (actor : Actor) : actor.Mild actor.leave.1 actor.leave.2 :=
  ⟨rfl, by simp [leave]⟩

theorem mild_collapse (actor : Actor) : actor.Mild actor.collapse.1 actor.collapse.2 :=
  ⟨rfl, by simp [collapse, Option.bind_eq_some_iff, Option.map_eq_some_iff]⟩

theorem mild_turn (actor : Actor) (cancelled orphaned : Bool) :
    actor.Mild (actor.turn cancelled orphaned).1 (actor.turn cancelled orphaned).2.1 := by
  unfold turn
  split
  · exact actor.mild_leave
  · split
    · next hserve => exact mild_serve hserve
    · split
      · exact actor.mild_leave
      · exact ⟨rfl, by simp⟩

end Actor

/-! ## 2. Steps of the machine -/

/-- Whether a step is a cancellation that comes from outside. -/
def Traffic.Move.cuts : Traffic.Move → Bool
  | .cancel => true
  | .overtake => true
  | _ => false

namespace Traffic

/-- Whether with a step the logic completes the machine. -/
def completes (t : Traffic) : Move → Bool
  | .deed .complete => t.actor.service.isSome
  | _ => false

/-- Whether with a step a dispatch comes back. -/
def comesBack (t : Traffic) : Move → Bool
  | .settle _ => t.actor.service.isSome
  | _ => false

/-- A machine is neither completed nor cancelled in between. -/
def Unmarked (t t' : Traffic) : Prop :=
  t'.cancelled = t.cancelled ∧ t'.actor.core.completed = t.actor.core.completed

variable {t : Traffic} {actor : Actor} {effects : List Effect}

theorem unmarked_conduct (h : t.actor.Mild actor effects) :
    t.Unmarked (t.conduct actor effects) := by
  refine ⟨?_, h.1⟩
  have hnone : effects.any Effect.cancels = false :=
    Bool.eq_false_iff.mpr fun hany => h.2 ((any_cancels effects).mp hany)
  show (t.cancelled || effects.any Effect.cancels) = t.cancelled
  rw [hnone, Bool.or_false]

theorem unmarked_follow {acted : Actor × List Effect × Doing}
    (h : t.actor.Mild acted.1 acted.2.1) : t.Unmarked (t.follow acted) := by
  refine ⟨?_, by rw [actor_follow]; exact h.1⟩
  rw [cancelled_follow]
  exact (unmarked_conduct h).1

theorem unmarked_send (c : Nat) (source : String) : t.Unmarked (t.send c source) := by
  have hsent := unmarked_conduct (t.actor.mild_request c { source, reply := some c })
  unfold send
  simp only
  split <;> exact hsent

theorem unmarked_poll (c : Nat) : t.Unmarked (t.poll c) := by
  unfold poll
  split
  · exact unmarked_send c _
  all_goals exact ⟨rfl, rfl⟩

theorem unmarked_drop (c : Nat) : t.Unmarked (t.drop c) := by
  unfold drop
  split
  · exact unmarked_conduct (t.actor.mild_abandon c)
  all_goals exact ⟨rfl, rfl⟩

theorem noteTaken_unmarked (t : Traffic) :
    t.noteTaken.actor = t.actor ∧ t.noteTaken.cancelled = t.cancelled := by
  unfold noteTaken
  split <;> exact ⟨rfl, rfl⟩

theorem unmarked_turn (orphaned : Bool) : t.Unmarked (t.turn orphaned) := by
  have hmild := t.actor.mild_turn t.cancelled orphaned
  obtain ⟨hactor, hcancelled⟩ := t.noteTaken_unmarked
  have htaken : ∀ {acted : Actor × List Effect × Doing}, t.actor.Mild acted.1 acted.2.1 →
      t.Unmarked (t.noteTaken.follow acted) := by
    intro acted h
    rw [← hactor] at h
    obtain ⟨h1, h2⟩ := unmarked_follow h
    exact ⟨h1.trans hcancelled, h2.trans (by rw [hactor])⟩
  unfold turn
  split
  · next h => rw [h] at hmild; exact htaken hmild
  · next h => rw [h] at hmild; exact htaken hmild
  · exact unmarked_follow hmild

theorem completed_overtake : t.overtake.actor.core.completed = t.actor.core.completed := by
  unfold overtake
  split
  · rfl
  · next acted hserve => rw [actor_follow]; exact (Actor.mild_serve hserve).1

/-- The return of a dispatch cancels a machine that was completed. -/
theorem settle_marks {service : Service} (hservice : t.actor.service = some service)
    (result : Except Failure Unit) :
    (t.settle service result).cancelled = (t.cancelled || t.actor.core.completed) ∧
      (t.settle service result).actor.core.completed = t.actor.core.completed := by
  have hcompleted := completed_aftermath (t := t) service result
  unfold settle
  rw [cancelled_follow, actor_follow]
  unfold Actor.settle
  cases hnext : (Chain.settle t.actor.core service.chain service.state result).next with
  | error final =>
    simp only [hservice, hnext]
    exact ⟨congrArg _ (cancels_finish service result final), hcompleted⟩
  | ok chain =>
    obtain ⟨hstarted, hnone⟩ := Actor.mild_startDispatch
      { t.actor with seen := t.actor.core.snapshot, version := t.actor.version + 1 }
      (t.aftermath service result).core chain service.reply t.cancelled hcompleted
    have htold : ((t.aftermath service result).told ++
        (Actor.startDispatch
          { t.actor with seen := t.actor.core.snapshot, version := t.actor.version + 1 }
          (t.aftermath service result).core chain service.reply t.cancelled).2.1).any
          Effect.cancels = t.actor.core.completed := by
      rw [List.any_append, cancels_told,
        Bool.eq_false_iff.mpr fun h => hnone ((any_cancels _).mp h), Bool.or_false]
    simp only [hservice, hnext]
    exact ⟨congrArg _ htold, hstarted⟩

/-- A machine is completed by its logic alone, and cancelled, unless from outside, by the return of
a dispatch once it is completed. -/
theorem step_marks (t : Traffic) {move : Move} (h : move.cuts = false) :
    (t.step move).cancelled = (t.cancelled || (t.comesBack move && t.actor.core.completed)) ∧
      (t.step move).actor.core.completed = (t.actor.core.completed || t.completes move) := by
  have hquiet : ∀ {t'}, t.Unmarked t' →
      t'.cancelled = (t.cancelled || (false && t.actor.core.completed)) ∧
        t'.actor.core.completed = (t.actor.core.completed || false) := by
    rintro t' ⟨hcancelled, hcompleted⟩
    rw [hcancelled, hcompleted, Bool.false_and, Bool.or_false, Bool.or_false]
    exact ⟨rfl, rfl⟩
  have hsame : t.Unmarked t := ⟨rfl, rfl⟩
  cases move with
  | notify notice => exact hquiet (unmarked_conduct (t.actor.mild_notify notice.source))
  | call c source =>
    simp only [step]
    split
    · exact hquiet (unmarked_send c source)
    · exact hquiet hsame
  | poll c => exact hquiet (unmarked_poll c)
  | drop c => exact hquiet (unmarked_drop c)
  | cancel => cases h
  | turn orphaned =>
    simp only [step]
    split
    · exact hquiet (unmarked_turn orphaned)
    · exact hquiet hsame
  | overtake => cases h
  | deed deed =>
    cases hservice : t.actor.service with
    | none =>
      simp only [step, hservice]
      cases deed <;> simp [comesBack, completes, hservice]
    | some service =>
      simp only [step, hservice]
      cases deed <;> simp [comesBack, completes, hservice, Deed.perform, Core.become,
        Core.closeTransition, Core.complete]
  | settle result =>
    cases hservice : t.actor.service with
    | none =>
      simp only [step, hservice, comesBack]
      exact hquiet hsame
    | some service =>
      simp only [step, hservice, comesBack, completes, Option.isSome_some, Bool.true_and,
        Bool.or_false]
      exact settle_marks hservice result
  | panic =>
    simp only [step]
    split
    · exact hquiet hsame
    · exact hquiet (unmarked_conduct t.actor.mild_collapse)

end Traffic

end Sequencer
