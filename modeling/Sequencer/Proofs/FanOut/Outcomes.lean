import Sequencer.Proofs.FanOut.Fleet
import Sequencer.Rehearsal.Loops

/-!
# Outcomes — what a fan-out comes back with

A call whose tasks all give values returns them in the order of the tasks, at the moment at which
the slowest one comes in.  If a task comes in without a value, the call returns the failure of the
first one that did, tells it once, and stops the tasks that are still under way.  Either way it
returns after so many steps of its own, whatever else happens meanwhile.
-/

namespace Sequencer

namespace Fleet

variable {α : Type} {first x : Fleet α} {fan : FanOut α}

/-! ## 1. A call that has what it needs returns -/

/-- A task came in without a value, or all came in. -/
def Decided (x : Fleet α) : Prop :=
  (∃ arrival ∈ x.arrivals, arrival.failure? ≠ none) ∨ x.size ≤ x.arrivals.length

/-- How many steps the call takes at most until it returns, once that is decided. -/
def todo (x : Fleet α) : Nat :=
  match x.phase with
  | .spawning => (x.size - x.spawned.length) + (x.size + 2)
  | .collecting _ => x.size + 1 - x.collected
  | _ => 0

theorem Collecting.length_arrivals (collecting : Collecting first fan x) :
    x.running.length + x.arrivals.length = first.size := by
  have hlength := collecting.crew.length_eq
  rw [List.length_append, List.length_map, List.length_range, collecting.all] at hlength
  exact hlength

theorem Collecting.isOver (collecting : Collecting first fan x)
    (hall : first.size ≤ x.arrivals.length) (hcollected : x.arrivals.length ≤ x.collected) :
    fan.isOver = true := by
  have hlength := collecting.length_arrivals
  have hidle : x.running = [] := List.eq_nil_of_length_eq_zero (by omega)
  exact List.isEmpty_iff.mpr (collecting.running_eq_nil hidle hcollected)

/-- As long as it collects, every task that it has collected gave a value. -/
theorem Collecting.exists_next (collecting : Collecting first fan x) (h : x.Decided)
    (hover : fan.isOver = false) : ∃ arrival, x.arrivals[x.collected]? = some arrival := by
  cases hnext : x.arrivals[x.collected]? with
  | some arrival => exact ⟨arrival, rfl⟩
  | none =>
    exfalso
    have hcollected := List.getElem?_eq_none_iff.mp hnext
    rcases h with ⟨arrival, hmem, hfailure⟩ | hall
    · rw [← List.take_of_length_le hcollected] at hmem
      obtain ⟨value, hvalue, -⟩ := collecting.gathers.filled arrival hmem
      exact hfailure (FanOut.failure?_eq_none.mpr ⟨value, hvalue⟩)
    · cases hover.symm.trans (collecting.isOver (collecting.size ▸ hall) hcollected)

theorem todo_advance (stands : Stands first x) (h : x.Decided) (hbusy : 0 < x.todo) :
    x.advance.todo < x.todo := by
  cases stands with
  | spawning spawning =>
    unfold advance
    simp only [spawning.phase]
    split
    · next hroom =>
      simp only [spawn, todo, spawning.phase, List.length_append, List.length_singleton]
      omega
    · simp only [todo, spawning.phase, spawning.none]
      omega
  | collecting fan collecting =>
    have hlength := collecting.length_arrivals
    have hsize := collecting.size
    have hcollected := collecting.collected
    unfold advance
    simp only [collecting.phase]
    split
    · next arrival hnext =>
      cases hfailure : arrival.failure? with
      | none =>
        obtain ⟨next, hgoes, hcount⟩ := collect_value collecting hnext hfailure
        simp only [todo, hgoes.phase, collecting.phase, hgoes.size, hsize, hcount]
        omega
      | some failure =>
        simp only [todo, (collect_failure collecting hnext hfailure).phase, collecting.phase]
        omega
    · next hnone =>
      split
      · simp only [todo, collecting.phase]
        omega
      · next hover =>
        obtain ⟨arrival, hnext⟩ := collecting.exists_next h (Bool.not_eq_true _ ▸ hover)
        cases hnone.symm.trans hnext
  | returned values time returned => simp only [todo, returned.phase] at hbusy; omega
  | failed failure time failed => simp only [todo, failed.phase] at hbusy; omega
  | dropped dropped => simp only [todo, dropped.phase] at hbusy; omega

theorem arrivals_step (x : Fleet α) (move : Move α) :
    x.arrivals <+: (x.step move).arrivals ∧ (x.step move).size = x.size := by
  have hsame : ∀ {y : Fleet α}, y.arrivals = x.arrivals → y.size = x.size →
      x.arrivals <+: y.arrivals ∧ y.size = x.size :=
    fun harrivals hsize => ⟨harrivals ▸ List.prefix_rfl, hsize⟩
  cases move with
  | advance =>
    simp only [step, advance, collect]
    repeat' split
    all_goals exact hsame rfl rfl
  | step place =>
    simp only [step]
    split <;> exact hsame rfl rfl
  | arrive place ended =>
    simp only [step]
    split
    · exact ⟨List.prefix_append _ _, rfl⟩
    · exact hsame rfl rfl
  | pass millis =>
    simp only [step]
    split <;> exact hsame rfl rfl
  | drop =>
    simp only [step, drop]
    repeat' split
    all_goals exact hsame rfl rfl

theorem decided_step (h : x.Decided) (move : Move α) : (x.step move).Decided := by
  obtain ⟨hgrows, hsize⟩ := arrivals_step x move
  rcases h with ⟨arrival, hmem, hfailure⟩ | hall
  · exact .inl ⟨arrival, hgrows.subset hmem, hfailure⟩
  · exact .inr (by rw [hsize]; exact Nat.le_trans hall hgrows.length_le)

/-- What others do takes no step of the call away, and none of them drops it. -/
theorem step_other {move : Move α} (hadvance : move.isAdvance = false)
    (hdrop : move.isDrop = false) :
    (x.step move).phase = x.phase ∧ (x.step move).todo = x.todo := by
  cases move with
  | advance => cases hadvance
  | drop => cases hdrop
  | step place => simp only [step]; split <;> exact ⟨rfl, rfl⟩
  | arrive place ended => simp only [step]; split <;> exact ⟨rfl, rfl⟩
  | pass millis => simp only [step]; split <;> exact ⟨rfl, rfl⟩

theorem over_of_todo (stands : Stands first x) (hkept : x.phase ≠ .dropped) (h : x.todo = 0) :
    ∃ result time, x.phase = .over result time := by
  cases stands with
  | spawning spawning => simp only [todo, spawning.phase] at h; omega
  | collecting fan collecting =>
    have hlength := collecting.length_arrivals
    have hcollected := collecting.collected
    simp only [todo, collecting.phase, collecting.size] at h
    omega
  | returned values time returned => exact ⟨_, _, returned.phase⟩
  | failed failure time failed => exact ⟨_, _, failed.phase⟩
  | dropped dropped => exact absurd dropped.phase hkept

theorem advance_kept (hkept : x.phase ≠ .dropped) : x.advance.phase ≠ .dropped := by
  unfold advance collect
  repeat' split
  all_goals first | exact hkept | (exact nofun)

/-- Once its outcome is decided, the call returns with its own next steps, whatever happens between
them. -/
theorem over_of_decided (stands : Stands first x) (h : x.Decided) (hkept : x.phase ≠ .dropped)
    {later : List (Move α)} (hdrops : ∀ move ∈ later, move.isDrop = false)
    (henough : x.todo ≤ later.countP Move.isAdvance) :
    ∃ result time, (x.run later).phase = .over result time := by
  -- By induction on the moves; those of the call count down what it has left to do.
  induction later generalizing x with
  | nil => exact over_of_todo stands hkept (Nat.le_zero.mp henough)
  | cons move later ih =>
    have hrest := fun move hmem => hdrops move (List.mem_cons_of_mem _ hmem)
    have hnext := ih (stands_step stands move) (decided_step h move)
    cases hadvance : move.isAdvance with
    | false =>
      obtain ⟨hphase, htodo⟩ := step_other (x := x) hadvance (hdrops move List.mem_cons_self)
      rw [List.countP_cons_of_neg (by rw [hadvance]; exact Bool.false_ne_true)] at henough
      exact hnext (hphase ▸ hkept) hrest (htodo ▸ henough)
    | true =>
      obtain rfl : move = .advance := by cases move <;> first | rfl | cases hadvance
      rw [List.countP_cons_of_pos hadvance] at henough
      refine hnext (advance_kept hkept) hrest ?_
      -- A call that has nothing left to do has returned.
      rcases Nat.eq_zero_or_pos x.todo with hzero | hbusy
      · obtain ⟨result, time, hover⟩ := over_of_todo stands hkept hzero
        have hsame : x.step .advance = x := advance_ended (.inl ⟨result, time, hover⟩)
        rw [hsame, hzero]
        exact Nat.zero_le _
      · have hless : (x.step .advance).todo < x.todo := todo_advance stands h hbusy
        omega

/-! ## 2. After the call -/

theorem Stands.idle (stands : Stands first x) (h : x.HasEnded) : x.running = [] := by
  cases stands with
  | spawning spawning => simp [HasEnded, spawning.phase] at h
  | collecting fan collecting => simp [HasEnded, collecting.phase] at h
  | returned values time returned => exact returned.idle
  | failed failure time failed => exact failed.idle
  | dropped dropped => exact dropped.idle

theorem step_ended (hidle : x.running = []) (h : x.HasEnded) (move : Move α) :
    ∃ clock, x.step move = { x with clock } := by
  have hnobody : ∀ place, place ∉ x.running := fun place => hidle ▸ List.not_mem_nil
  cases move with
  | advance => exact ⟨x.clock, advance_ended h⟩
  | step place => exact ⟨x.clock, if_neg (hnobody place)⟩
  | arrive place ended => exact ⟨x.clock, if_neg (hnobody place)⟩
  | pass millis =>
    simp only [step]
    split
    · exact ⟨_, rfl⟩
    · exact ⟨x.clock, rfl⟩
  | drop => exact ⟨x.clock, drop_ended h⟩

theorem run_ended (hidle : x.running = []) (h : x.HasEnded) (later : List (Move α)) :
    ∃ clock, x.run later = { x with clock } := by
  induction later generalizing x with
  | nil => exact ⟨x.clock, rfl⟩
  | cons move later ih =>
    obtain ⟨clock, hstep⟩ := step_ended hidle h move
    -- Only the clock has changed, so that the call has ended as before.
    obtain ⟨last, hrun⟩ := ih (x := { x with clock }) hidle h
    refine ⟨last, ?_⟩
    show (x.step move).run later = _
    rw [hstep, hrun]

/-! ## 3. Outcomes -/

theorem arrivals_run (x : Fleet α) (later : List (Move α)) :
    x.arrivals <+: (x.run later).arrivals := by
  induction later generalizing x with
  | nil => exact List.prefix_rfl
  | cons move later ih => exact (arrivals_step x move).1.trans (ih (x.step move))

theorem Timely.length_le (timely : Timely first x) : x.arrivals.length ≤ first.size := by
  have hsubset : x.arrivals.map (·.place) ⊆ List.range first.size := by
    intro place hmem
    obtain ⟨arrival, harrival, rfl⟩ := List.mem_map.mp hmem
    exact List.mem_range.mpr (timely.bound arrival harrival)
  have hlength := (List.subperm_of_subset timely.distinct hsubset).length_le
  rwa [List.length_map, List.length_range] at hlength

theorem todo_le (timely : Timely first x) : x.todo ≤ 2 * first.size + 2 := by
  have hsize := timely.size
  unfold todo
  split <;> omega

theorem Stands.over (stands : Stands first x) {result : Except Failure (List α)} {time : Nat}
    (h : x.phase = .over result time) :
    (∃ values, result = .ok values ∧ Returned first values time x) ∨
      ∃ failure, result = .error failure ∧ Failed first failure time x := by
  cases stands with
  | spawning spawning => cases h.symm.trans spawning.phase
  | collecting fan collecting => cases h.symm.trans collecting.phase
  | returned values time returned =>
    cases h.symm.trans returned.phase
    exact .inl ⟨values, rfl, returned⟩
  | failed failure time failed =>
    cases h.symm.trans failed.phase
    exact .inr ⟨failure, rfl, failed⟩
  | dropped dropped => cases h.symm.trans dropped.phase

theorem told_before (stands : Stands first x) (h : ∀ result time, x.phase ≠ .over result time) :
    x.told = [] := by
  cases stands with
  | spawning spawning => exact spawning.told
  | collecting fan collecting => exact collecting.told
  | returned values time returned => exact absurd returned.phase (h _ _)
  | failed failure time failed => exact absurd failed.phase (h _ _)
  | dropped dropped => exact dropped.told

theorem findSome?_eq_none :
    x.arrivals.findSome? Arrival.failure? = none ↔
      ∀ arrival ∈ x.arrivals, ∃ value, arrival.ended = .value value := by
  rw [List.findSome?_eq_none_iff]
  simp only [FanOut.failure?_eq_none]

theorem Returned.findSome? {values : List α} {time : Nat}
    (returned : Returned first values time x) :
    x.arrivals.findSome? Arrival.failure? = none := by
  refine findSome?_eq_none.mpr fun arrival hmem => ?_
  obtain ⟨value, hvalue, -⟩ := returned.filled arrival hmem
  exact ⟨value, hvalue⟩

/-- Every task came in, and what it gave is in its place. -/
theorem Returned.value {values : List α} {time place : Nat}
    (returned : Returned first values time x) (h : place < first.size) :
    ∃ value came, values[place]? = some value ∧ ⟨place, .value value, came⟩ ∈ x.arrivals := by
  have hmem := returned.complete.mem_iff.mpr (List.mem_range.mpr h)
  obtain ⟨⟨_, ended, came⟩, harrival, rfl⟩ := List.mem_map.mp hmem
  obtain ⟨value, rfl, hvalue⟩ := returned.filled _ harrival
  exact ⟨value, came, hvalue, harrival⟩

/-- A call whose tasks all gave values did not fail. -/
theorem Stands.over_of_values (stands : Stands first x)
    (hvalues : ∀ arrival ∈ x.arrivals, ∃ value, arrival.ended = .value value)
    {result : Except Failure (List α)} {time : Nat} (h : x.phase = .over result time) :
    ∃ values, result = .ok values ∧ Returned first values time x := by
  rcases stands.over h with hreturned | ⟨failure, -, failed⟩
  · exact hreturned
  · cases (findSome?_eq_none.mpr hvalues).symm.trans failed.cause

theorem Stands.untold (stands : Stands first x)
    (hvalues : ∀ arrival ∈ x.arrivals, ∃ value, arrival.ended = .value value) : x.told = [] := by
  by_cases hover : ∃ result time, x.phase = .over result time
  · obtain ⟨result, time, hover⟩ := hover
    obtain ⟨values, -, returned⟩ := stands.over_of_values hvalues hover
    exact returned.told
  · push Not at hover
    exact told_before stands hover

/-- Once all tasks are in, none comes in without a value later. -/
theorem Stands.returns (stands : Stands first x)
    (hvalues : ∀ arrival ∈ x.arrivals, ∃ value, arrival.ended = .value value)
    (hall : x.arrivals.length = first.size) (hkept : x.phase ≠ .dropped) {later : List (Move α)}
    (hdrops : ∀ move ∈ later, move.isDrop = false)
    (henough : 2 * first.size + 2 ≤ later.countP Move.isAdvance) :
    ∃ values time, Returned first values time (x.run later) := by
  have hdecided : x.Decided := .inr (stands.timely.size.trans hall.symm).le
  obtain ⟨result, time, hover⟩ := over_of_decided stands hdecided hkept hdrops
    (Nat.le_trans (todo_le stands.timely) henough)
  have hlater := stands_run stands later
  have harrivals : x.arrivals = (x.run later).arrivals :=
    (arrivals_run x later).eq_of_length_le
      (Nat.le_trans hlater.timely.length_le hall.symm.le)
  obtain ⟨values, -, returned⟩ := hlater.over_of_values (harrivals ▸ hvalues) hover
  exact ⟨values, time, returned⟩

theorem findSome?_run {failure : Failure}
    (h : x.arrivals.findSome? Arrival.failure? = some failure) (later : List (Move α)) :
    (x.run later).arrivals.findSome? Arrival.failure? = some failure := by
  obtain ⟨more, hmore⟩ := arrivals_run x later
  rw [← hmore, List.findSome?_append, h]
  rfl

theorem Stands.over_of_failure (stands : Stands first x) {failure : Failure}
    (hfirst : x.arrivals.findSome? Arrival.failure? = some failure)
    {result : Except Failure (List α)} {time : Nat} (h : x.phase = .over result time) :
    result = .error failure ∧ Failed first failure time x := by
  rcases stands.over h with ⟨values, -, returned⟩ | ⟨other, rfl, failed⟩
  · cases returned.findSome?.symm.trans hfirst
  · cases failed.cause.symm.trans hfirst
    exact ⟨rfl, failed⟩

theorem Stands.fails (stands : Stands first x) {failure : Failure}
    (hfirst : x.arrivals.findSome? Arrival.failure? = some failure) (hkept : x.phase ≠ .dropped)
    {later : List (Move α)} (hdrops : ∀ move ∈ later, move.isDrop = false)
    (henough : 2 * first.size + 2 ≤ later.countP Move.isAdvance) :
    ∃ time, (x.run later).phase = .over (.error failure) time := by
  have hdecided : x.Decided := by
    obtain ⟨arrival, hmem, hfailure⟩ := List.exists_of_findSome?_eq_some hfirst
    exact .inl ⟨arrival, hmem, by rw [hfailure]; exact Option.some_ne_none _⟩
  obtain ⟨result, time, hover⟩ := over_of_decided stands hdecided hkept hdrops
    (Nat.le_trans (todo_le stands.timely) henough)
  obtain ⟨rfl, -⟩ := (stands_run stands later).over_of_failure (findSome?_run hfirst later) hover
  exact ⟨time, hover⟩

end Fleet

/-! ## 4. A rehearsal collects its tasks as they come in -/

namespace Stage

theorem foldl_earliest {β : Type} (one : Nat × β × Nat) (others : List (Nat × β × Nat)) :
    let best := others.foldl (fun best other => if other.2.2 < best.2.2 then other else best) one
    best ∈ one :: others ∧ ∀ other ∈ one :: others, best.2.2 ≤ other.2.2 := by
  induction others generalizing one with
  | nil => exact ⟨List.mem_cons_self, fun other h => List.mem_singleton.mp h ▸ Nat.le_refl _⟩
  | cons next others ih =>
    simp only [List.foldl_cons, List.mem_cons, forall_eq_or_imp] at ih ⊢
    by_cases hearlier : next.2.2 < one.2.2
    · obtain ⟨hmem, hnext, hothers⟩ := ih next
      rw [if_pos hearlier]
      exact ⟨.inr hmem, by omega, hnext, hothers⟩
    · obtain ⟨hmem, hone, hothers⟩ := ih one
      rw [if_neg hearlier]
      exact ⟨hmem.imp_right .inr, hone, by omega, hothers⟩

/-- The task that is collected next is the one of those under way that ended first. -/
theorem firstEnded_earliest {stage : Stage} {fan : FanOut Json} {first place : Nat}
    {ending : Ending} (h : stage.firstEnded fan first = some (place, ending)) :
    place ∈ fan.running ∧ ∃ turn, stage.agenda.result? (first + place) = some (ending, turn) ∧
      ∀ other ∈ fan.running, ∀ last after,
        stage.agenda.result? (first + other) = some (last, after) → turn ≤ after := by
  simp only [firstEnded] at h
  split at h
  · cases h
  · next one others hended =>
    obtain ⟨hmem, hleast⟩ := foldl_earliest one others
    simp only [Option.some.injEq, Prod.mk.injEq] at h
    obtain ⟨rfl, rfl⟩ := h
    rw [← hended, List.mem_filterMap] at hmem
    obtain ⟨mine, hrunning, hmine⟩ := hmem
    obtain ⟨result, hresult, hpair⟩ := Option.map_eq_some_iff.mp hmine
    rw [← hpair]
    refine ⟨hrunning, result.2, hresult, fun other hother last after hafter => ?_⟩
    have hin : (other, last, after) ∈ one :: others := by
      rw [← hended]
      exact List.mem_filterMap.mpr ⟨other, hother, by rw [hafter]; rfl⟩
    have hle := hleast _ hin
    rw [← hpair] at hle
    exact hle

end Stage

/-- A fan-out with any number of tasks, which come in in any order.  Every task is spawned when the
call begins, before any is collected, and comes in once at most.  If all give values, the call
returns them, one for each task and each in the place of its task, at the moment at which the
slowest one comes in, and nothing is told; and it does return, after its own next steps, once all
are in.  Without tasks it returns no values at once. -/
theorem values_in_task_order {α : Type} (size : Nat) (hosted : Bool) (began : Nat)
    (moves : List (Fleet.Move α)) :
    let x := (Fleet.start size hosted began).run moves
    (x.arrivals.map (·.place)).Nodup ∧ (∀ arrival ∈ x.arrivals, arrival.place < size) ∧
    (x.collected ≠ 0 → x.spawned = List.replicate size began) ∧
    ((∀ arrival ∈ x.arrivals, ∃ value, arrival.ended = .value value) →
      x.told = [] ∧
      (∀ result time, x.phase = .over result time →
        (∃ values, result = .ok values ∧ values.length = size ∧
          ∀ place < size, ∃ value came, values[place]? = some value ∧
            ⟨place, .value value, came⟩ ∈ x.arrivals) ∧
        x.spawned = List.replicate size began ∧
        (∀ arrival ∈ x.arrivals, arrival.time ≤ time) ∧
        (size = 0 ∧ time = began ∨ ∃ arrival ∈ x.arrivals, arrival.time = time)) ∧
      (x.arrivals.length = size → x.phase ≠ .dropped → ∀ later,
        (∀ move ∈ later, move.isDrop = false) →
        2 * size + 2 ≤ later.countP Fleet.Move.isAdvance →
        ∃ values time, (x.run later).phase = .over (.ok values) time)) ∧
    (size = 0 → x.told = [] ∧
      ((∀ move ∈ moves, move.isDrop = false) → 2 ≤ moves.countP Fleet.Move.isAdvance →
        x.phase = .over (.ok []) began)) := by
  intro x
  have begins : Fleet.Stands (Fleet.start size hosted began) (Fleet.start size hosted began) :=
    Fleet.stands_start (α := α) size hosted began
  have stands : Fleet.Stands (Fleet.start size hosted began) x := Fleet.stands_run begins moves
  have hspawned : x.spawned.length = size → x.spawned = List.replicate size began := fun h =>
    stands.timely.spawned.trans (by rw [h]; rfl)
  refine ⟨stands.timely.distinct, stands.timely.bound, fun h => hspawned (stands.timely.sent h),
    fun hvalues => ⟨stands.untold hvalues, ?_, ?_⟩, ?_⟩
  · intro result time hover
    obtain ⟨values, rfl, returned⟩ := stands.over_of_values hvalues hover
    exact ⟨⟨values, rfl, returned.length, fun place => returned.value⟩, hspawned returned.all,
      returned.earlier, returned.slowest⟩
  · intro hall hkept later hdrops henough
    obtain ⟨values, time, returned⟩ := stands.returns hvalues hall hkept hdrops henough
    exact ⟨values, time, returned.phase⟩
  · rintro rfl
    have hnobody : x.arrivals = [] :=
      List.eq_nil_of_length_eq_zero (Nat.le_zero.mp stands.timely.length_le)
    refine ⟨stands.untold (hnobody ▸ fun _ h => absurd h List.not_mem_nil),
      fun hdrops henough => ?_⟩
    obtain ⟨values, time, returned⟩ := begins.returns (fun _ h => absurd h List.not_mem_nil) rfl
      nofun hdrops henough
    have hphase : x.phase = .over (.ok values) time := returned.phase
    obtain rfl : values = [] := List.eq_nil_of_length_eq_zero returned.length
    rcases returned.slowest with ⟨-, rfl⟩ | ⟨arrival, hmem, -⟩
    · exact hphase
    · exact absurd (hnobody ▸ hmem) List.not_mem_nil

/-- Three tasks that come in in the order of their durations, the last one first. -/
theorem values_in_task_order_reversed :
    let moves : List (Fleet.Move String) :=
      [.advance, .advance, .advance, .advance, .pass 10, .arrive 2 (.value "c"), .advance,
        .pass 10, .arrive 0 (.value "a"), .pass 0, .arrive 1 (.value "b"), .advance, .advance,
        .advance]
    let x := (Fleet.start 3 true 5).run moves
    (∀ arrival ∈ x.arrivals, ∃ value, arrival.ended = .value value) ∧
      x.phase = .over (.ok ["a", "b", "c"]) 25 ∧
      x.told = [] := by
  intro moves x
  have hvalues : ∀ arrival ∈ x.arrivals, ∃ value, arrival.ended = .value value := by
    intro arrival hmem
    change arrival ∈ [(⟨2, .value "c", 15⟩ : Fleet.Arrival String), ⟨0, .value "a", 25⟩,
      ⟨1, .value "b", 25⟩] at hmem
    simp only [List.mem_cons, List.not_mem_nil, or_false] at hmem
    rcases hmem with rfl | rfl | rfl
    · exact ⟨"c", rfl⟩
    · exact ⟨"a", rfl⟩
    · exact ⟨"b", rfl⟩
  exact ⟨hvalues, rfl, ((values_in_task_order 3 true 5 moves).2.2.2.1 hvalues).1⟩

/-- A fan-out in which some task comes in without a value.  The call returns the failure of the
first one that does, whichever it is: its own failure, or a panic under the number of the task.  It
does return, after its own next steps, and tells that failure once if it has a bus, and nothing
before.  From the moment at which it has returned, or was dropped, no task takes a step.  A
rehearsal collects its tasks in that order too: the next one is the one under way that ended
first. -/
theorem first_failure_ends_fan_out {α : Type} (size : Nat) (hosted : Bool) (began : Nat)
    (moves : List (Fleet.Move α)) :
    let x := (Fleet.start size hosted began).run moves
    (∀ failure, x.arrivals.findSome? Fleet.Arrival.failure? = some failure →
      (∀ result time, x.phase = .over result time → result = .error failure ∧
        x.told = if hosted then
          [{ kind := .parFailed, name := some "par", reason := some failure.text }] else []) ∧
      (x.phase ≠ .dropped → ∀ later, (∀ move ∈ later, move.isDrop = false) →
        2 * size + 2 ≤ later.countP Fleet.Move.isAdvance →
        ∃ time, (x.run later).phase = .over (.error failure) time)) ∧
    ((∀ result time, x.phase ≠ .over result time) → x.told = []) ∧
    (((∃ result time, x.phase = .over result time) ∨ x.phase = .dropped) → ∀ later,
      (x.run later).steps = x.steps ∧ (x.run later).phase = x.phase ∧
        (x.run later).told = x.told) ∧
    (∀ (stage : Stage) (fan : FanOut Json) (first place : Nat) (ending : Ending),
      stage.firstEnded fan first = some (place, ending) →
      place ∈ fan.running ∧ ∃ turn, stage.agenda.result? (first + place) = some (ending, turn) ∧
        ∀ other ∈ fan.running, ∀ last after,
          stage.agenda.result? (first + other) = some (last, after) → turn ≤ after) := by
  intro x
  have stands : Fleet.Stands (Fleet.start size hosted began) x :=
    Fleet.stands_run (Fleet.stands_start size hosted began) moves
  refine ⟨fun failure hfirst => ⟨fun result time hover => ?_, ?_⟩, Fleet.told_before stands,
    fun hended later => ?_, fun _ _ _ _ _ => Stage.firstEnded_earliest⟩
  · obtain ⟨rfl, failed⟩ := stands.over_of_failure hfirst hover
    exact ⟨rfl, failed.told⟩
  · intro hkept later hdrops henough
    exact stands.fails hfirst hkept hdrops henough
  · obtain ⟨clock, hrun⟩ := Fleet.run_ended (stands.idle hended) hended later
    rw [hrun]
    exact ⟨rfl, rfl, rfl⟩

/-- Two tasks fail in the same instant while a third one is still under way. -/
theorem first_failure_ends_fan_out_same_instant :
    let lost : Failure := .panicked "1" "bad axis"
    let moves : List (Fleet.Move Nat) :=
      [.advance, .advance, .advance, .advance, .step 2, .pass 10,
        .arrive 1 (.panicked (.text "bad axis")), .arrive 0 (.failed .cancelled), .advance]
    let x := (Fleet.start 3 true 0).run moves
    x.phase = .over (.error lost) 10 ∧
      x.told = [{ kind := .parFailed, name := some "par", reason := some lost.text }] ∧
      (x.run [.step 2, .arrive 2 (.value 7)]).steps = [2, 1, 0] := by
  intro lost moves x
  have hends := first_failure_ends_fan_out 3 true 0 moves
  have htold := (hends.1 lost rfl).1 (.error lost) 10 rfl
  exact ⟨rfl, htold.2, (hends.2.2.1 (.inl ⟨_, _, rfl⟩) [.step 2, .arrive 2 (.value 7)]).1⟩

end Sequencer
