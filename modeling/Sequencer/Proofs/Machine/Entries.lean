import Mathlib.Data.List.Destutter
import Sequencer.Proofs.Machine.Previous

/-!
# Entries — the dispatches that find their machine in a new state

A dispatch is an entry if no dispatch came before it, or if the one before it was of another state.
What the logic sees when a dispatch starts is collected along a run; of the states that it sees, the
entries keep one for every stretch of the same state.  Where the machine has been without a dispatch
does not count, nor which refresh a dispatch belongs to, nor how it came back.
-/

namespace List

variable {α : Type} [DecidableEq α]

/-! ## 1. Collapsing repetitions, from the end of a list -/

theorem destutter'_concat (a : α) (l : List α) (b : α) :
    (l ++ [b]).destutter' (· ≠ ·) a =
      if (a :: l).getLast? = some b then l.destutter' (· ≠ ·) a
      else l.destutter' (· ≠ ·) a ++ [b] := by
  induction l generalizing a with
  | nil => by_cases h : a = b <;> simp [h]
  | cons c l ih =>
    rw [getLast?_cons_cons, cons_append]
    by_cases h : a = c
    · -- The first two are the same: only one of them stays.
      subst h
      rw [destutter'_cons_neg _ (not_not_intro rfl), destutter'_cons_neg _ (not_not_intro rfl)]
      exact ih a
    · rw [destutter'_cons_pos _ h, destutter'_cons_pos _ h, ih c]
      split <;> rfl

theorem destutter_concat (l : List α) (b : α) :
    (l ++ [b]).destutter (· ≠ ·) =
      if l.getLast? = some b then l.destutter (· ≠ ·) else l.destutter (· ≠ ·) ++ [b] := by
  cases l with
  | nil => rfl
  | cons a l => exact destutter'_concat a l b

end List

namespace Sequencer

/-! ## 2. What the logic sees in a run -/

namespace Traffic

variable {t t' : Traffic}

/-- What the logic sees if a dispatch starts by the step to `t'`. -/
def opening (t t' : Traffic) : List View :=
  if t'.dispatches = t.dispatches then [] else [t'.actor.core.view]

/-- What the logic sees as the dispatches of a run start, in order. -/
def views (t : Traffic) : List Move → List View
  | [] => []
  | move :: moves => t.opening (t.step move) ++ (t.step move).views moves

theorem run_concat (t : Traffic) (moves : List Move) (move : Move) :
    t.run (moves ++ [move]) = (t.run moves).step move := List.foldl_concat ..

theorem views_concat (t : Traffic) (moves : List Move) (move : Move) :
    t.views (moves ++ [move]) =
      t.views moves ++ (t.run moves).opening ((t.run moves).step move) := by
  induction moves generalizing t with
  | nil => exact List.append_nil _
  | cons first moves ih =>
    show _ ++ (t.step first).views (moves ++ [move]) = _ ++ _ ++ _
    rw [ih, List.append_assoc]
    rfl

/-- What every step keeps of a machine and of what its logic has seen, every run keeps. -/
theorem views_induction {P : List View → Traffic → Prop} {moves : List Move}
    (hstep : ∀ views t, ∀ move ∈ moves, P views t →
      P (views ++ t.opening (t.step move)) (t.step move))
    (h : P [] t) : P (t.views moves) (t.run moves) := by
  induction moves using List.reverseRecOn with
  | nil => exact h
  | append_singleton moves move ih =>
    rw [run_concat, views_concat]
    have hbefore := ih fun views t other hmem => hstep views t other (List.mem_append_left _ hmem)
    exact hstep _ _ move (List.mem_append_right _ List.mem_cons_self) hbefore

/-! ## 3. What a step does to the latest dispatch -/

theorem opening_same (h : t'.dispatches = t.dispatches) : t.opening t' = [] := if_pos h

theorem opening_cons {tick : Tick} (h : t'.dispatches = tick :: t.dispatches) :
    t.opening t' = [t'.actor.core.view] := if_neg (h ▸ List.cons_ne_self _ _)

/-- A dispatch of the state in which the machine is starts, or the latest one stays what it was. -/
theorem entry_change (hchange : t.Change t') :
    t'.dispatches = t.dispatches ∧
        t'.actor.core.lastDispatched = t.actor.core.lastDispatched ∧
        t'.actor.core.entered = t.actor.core.entered ∧
        (t'.actor.service = t.actor.service ∨ t'.actor.service = none) ∨
      ∃ service, t'.actor.service = some service ∧
        t'.dispatches =
          { state := service.state, source := service.chain.source } :: t.dispatches ∧
        t'.actor.core.current = service.state ∧
        t'.actor.core.entered = decide (t.actor.core.lastDispatched ≠ some service.state) ∧
        t'.actor.core.lastDispatched = some service.state := by
  cases hchange with
  | serve request queue hidle hcancelled hqueue =>
    exact .inr ⟨_, rfl, congrArg (List.cons _) (dispatches_conduct _ _), rfl, rfl, rfl⟩
  | next service state work hservice hcompleted hwork hcancelled =>
    exact .inr ⟨_, rfl, congrArg (List.cons _) (dispatches_conduct _ _), rfl, rfl, rfl⟩
  | deed service hservice deed =>
    exact .inl ⟨rfl, by cases deed <;> rfl, by cases deed <;> rfl, .inl rfl⟩
  | finish service result final hservice hfinal =>
    -- Its return moves the machine, and leaves alone what was noted when it started.
    obtain ⟨pending, current, hcore⟩ :=
      Chain.core_settle t.actor.core service.chain service.state result
    refine .inl ⟨dispatches_conduct _ _, ?_, ?_, .inr rfl⟩
    · show (Chain.settle t.actor.core service.chain service.state result).core.lastDispatched = _
      rw [hcore]
    · show (Chain.settle t.actor.core service.chain service.state result).core.entered = _
      rw [hcore]
  | cut request queue hidle hqueue => exact .inl ⟨dispatches_conduct _ _, rfl, rfl, .inr rfl⟩
  | collapse service hservice => exact .inl ⟨dispatches_conduct _ _, rfl, rfl, .inr rfl⟩
  | nothing => exact .inl ⟨rfl, rfl, rfl, .inl rfl⟩
  | cancel => exact .inl ⟨rfl, rfl, rfl, .inl rfl⟩
  | look c hphase hreply => exact .inl ⟨rfl, rfl, rfl, .inl rfl⟩
  | hear c result hphase hreply => exact .inl ⟨rfl, rfl, rfl, .inl rfl⟩
  | forgo c hphase => exact .inl ⟨rfl, rfl, rfl, .inl rfl⟩
  | _ => exact .inl ⟨dispatches_conduct _ _, rfl, rfl, .inl rfl⟩

/-! ## 4. Entries -/

/-- The logic has seen the dispatches of the log, and was told of an entry whenever the state was
not that of the dispatch before. -/
structure Marks (views : List View) (t : Traffic) : Prop where
  states : views.map (·.state) = t.dispatches.reverse.map (·.state)
  last : t.actor.core.lastDispatched = views.getLast?.map (·.state)
  marked : ∀ before view, before ++ [view] <+: views →
    (view.entry = true ↔ before.getLast?.map (·.state) ≠ some view.state)
  running : ∀ service, t.actor.service = some service →
    ∃ view, views.getLast? = some view ∧ view.state = service.state ∧
      t.actor.core.entered = view.entry

theorem marks_start (config : Config) (name initial : String) (hosted : Bool) :
    Marks [] (start config name initial hosted) where
  states := rfl
  last := rfl
  marked before view h := by simp at h
  running _ h := by cases h

theorem marks_change {views : List View} (marks : Marks views t) (hchange : t.Change t') :
    Marks (views ++ t.opening t') t' := by
  rcases entry_change hchange with ⟨hdispatches, hlast, hentered, hservice⟩ |
    ⟨service, hservice, hdispatches, hcurrent, hentered, hlast⟩
  · rw [opening_same hdispatches, List.append_nil]
    refine ⟨by rw [hdispatches, marks.states], hlast.trans marks.last, marks.marked,
      fun service hsome => ?_⟩
    -- The dispatch that runs ran before, and what it answers for an entry did not change.
    rw [hentered]
    rcases hservice with hsame | hgone
    · exact marks.running service (hsame.symm.trans hsome)
    · cases hgone.symm.trans hsome
  · rw [opening_cons hdispatches]
    refine ⟨?_, ?_, fun before view hinit => ?_, fun other hother => ?_⟩
    · rw [hdispatches, List.map_append, marks.states, List.reverse_cons, List.map_append]
      exact congrArg (_ ++ [·]) hcurrent
    · rw [hlast, List.getLast?_concat, ← hcurrent]
      rfl
    · rcases List.prefix_concat_iff.mp hinit with hwhole | hearlier
      · -- The new dispatch is looked at with the one that was the latest before.
        obtain ⟨rfl, hsame⟩ := List.append_inj' hwhole rfl
        cases hsame
        show t'.actor.core.entered = true ↔ _ ≠ some t'.actor.core.current
        rw [hentered, hcurrent, ← marks.last, decide_eq_true_iff]
      · exact marks.marked before view hearlier
    · cases hother.symm.trans hservice
      exact ⟨_, List.getLast?_concat, hcurrent, rfl⟩

theorem entries_of_marked {views : List View}
    (h : ∀ before view, before ++ [view] <+: views →
      (view.entry = true ↔ before.getLast?.map (·.state) ≠ some view.state)) :
    (views.filter (·.entry)).map (·.state) = (views.map (·.state)).destutter (· ≠ ·) := by
  -- From the last view on: it stays exactly if it is an entry.
  induction views using List.reverseRecOn with
  | nil => rfl
  | append_singleton views view ih =>
    have hview := h views view List.prefix_rfl
    have hrest := ih fun before other hinit =>
      h before other (hinit.trans (List.prefix_append _ _))
    rw [List.map_append, List.map_singleton, List.destutter_concat, List.getLast?_map, ← hrest,
      List.filter_append, List.map_append]
    cases hentry : view.entry with
    | true => rw [if_neg (hview.mp hentry)]; simp [hentry]
    | false =>
      have hsame : views.getLast?.map (·.state) = some view.state := by
        by_contra hother
        cases hentry.symm.trans (hview.mpr hother)
      rw [if_pos hsame]
      simp [hentry]

end Traffic

/-- Whatever is asked of a machine, and whatever its logic does, a dispatch is an entry for its
logic exactly if no dispatch was before it or the one before it was of another state; so the states
of the entries are the states of all dispatches with repetitions collapsed.  As long as a dispatch
runs, it remains what it was when it started. -/
theorem entry_on_change_of_state (config : Config) (name initial : String) (hosted : Bool)
    (moves : List Traffic.Move) :
    let start := Traffic.start config name initial hosted
    let t := start.run moves
    let views := start.views moves
    views.map (·.state) = t.dispatches.reverse.map (·.state) ∧
    (views.filter (·.entry)).map (·.state) = (views.map (·.state)).destutter (· ≠ ·) ∧
    (∀ before view, before ++ [view] <+: views →
      (view.entry = true ↔ before.getLast?.map (·.state) ≠ some view.state)) ∧
    ∀ service, t.actor.service = some service →
      ∃ view, views.getLast? = some view ∧ view.state = service.state ∧
        t.actor.core.entered = view.entry := by
  intro start t views
  have marks : Traffic.Marks views t :=
    Traffic.views_induction
      (fun _ t move _ marks => Traffic.marks_change marks (Traffic.change_step t move))
      (Traffic.marks_start config name initial hosted)
  exact ⟨marks.states, Traffic.entries_of_marked marks.marked, marks.marked, marks.running⟩

/-- A refresh that fails, one that dispatches the same state again and then another, and one that
finds the machine in a state in which it was left without a dispatch. -/
theorem entry_on_change_of_state_repeated :
    let views := (Traffic.start {} "m" "A" true).views
      [.call 0 "first", .turn false, .settle (.error (.failed "stuck")), .call 1 "second",
        .turn false, .deed (.become "B"), .deed .closeTransition, .settle (.ok ()),
        .deed (.become "C"), .settle (.ok ()), .call 2 "third", .turn false]
    views.map (·.state) = ["A", "A", "B", "C"] ∧
      (views.filter (·.entry)).map (·.state) = ["A", "B", "C"] := by
  intro views
  obtain ⟨-, hentries, -⟩ := entry_on_change_of_state {} "m" "A" true
    [.call 0 "first", .turn false, .settle (.error (.failed "stuck")), .call 1 "second",
      .turn false, .deed (.become "B"), .deed .closeTransition, .settle (.ok ()),
      .deed (.become "C"), .settle (.ok ()), .call 2 "third", .turn false]
  have hstates : views.map (·.state) = ["A", "A", "B", "C"] := rfl
  refine ⟨hstates, hentries.trans ?_⟩
  show (views.map (·.state)).destutter (· ≠ ·) = _
  rw [hstates]
  decide

end Sequencer
