import Sequencer.Machine.Chain
import Sequencer.Proofs.Machine.Logic

/-!
# Recursion — the work stack of a refresh against a native recursion

A refresh keeps the states that are still to come on a work stack.  The reference is the recursion
that the stack stands for: dispatch the current state, and then visit every state that the dispatch
queued, completely before its next sibling.  Both have the same dispatches, leave the same machine
and come to the same result; this holds for refreshes that never end as well, prefix by prefix.
-/

namespace Sequencer

variable {σ : Type}

structure Dispatch where
  state : String
  source : String
  deeds : Deeds
  result : Except Failure Unit

/-! ## 1. The refresh with its work stack -/

/-- How far a refresh has come. -/
structure Progress (σ : Type) where
  core : Core
  memory : σ
  /-- The dispatches so far, in order. -/
  dispatches : List Dispatch := []

namespace Chain

/-- A refresh that nobody cancels, for at most `budget` more dispatches; it has a result once it is
over. -/
def run (logic : Logic σ) : Nat → Chain → Progress σ → Progress σ × Option (Except Failure Unit)
  | 0, _, progress => (progress, none)
  | budget + 1, chain, progress =>
    match chain.start progress.core false with
    | .ended core result => ({ progress with core }, some result)
    | .dispatch core chain _ =>
      let reaction := logic progress.memory core.view
      let after := settle (core.perform reaction.deeds) chain core.current reaction.result
      let progress : Progress σ :=
        { core := after.core
          memory := reaction.memory
          dispatches := progress.dispatches ++
            [{ state := core.current, source := chain.source, deeds := reaction.deeds,
               result := reaction.result }] }
      match after.next with
      | .error result => (progress, some result)
      | .ok chain => run logic budget chain progress

/-- A refresh for `source` from its beginning. -/
def refresh (logic : Logic σ) (budget : Nat) (core : Core) (source : String) (memory : σ) :
    Progress σ × Option (Except Failure Unit) :=
  let (core, chain) := begin core source
  run logic budget chain { core, memory }

end Chain

/-! ## 2. The recursion -/

/-- A machine on its way through the recursion. -/
structure Walk (σ : Type) where
  state : String
  last : Option String
  memory : σ
  /-- The dispatches so far, in order. -/
  dispatches : List Dispatch := []

namespace Walk

/-- The end of a whole recursion: with a result, or cut off where it went too deep. -/
abbrev Ended (σ : Type) := Walk σ × Option (Except Failure Unit)

/-- The current state is dispatched.  A failure or a completion ends the whole recursion; otherwise
the dispatch gives the states that it queued. -/
def dispatch (logic : Logic σ) (machine previous source : String) (walk : Walk σ) :
    Except (Ended σ) (Walk σ × List String) :=
  let reaction := logic walk.memory
    { machine, state := walk.state, previous := some previous,
      entry := decide (walk.last ≠ some walk.state) }
  let next : Walk σ :=
    { state := reaction.deeds.final walk.state
      last := some walk.state
      memory := reaction.memory
      dispatches := walk.dispatches ++
        [{ state := walk.state, source, deeds := reaction.deeds, result := reaction.result }] }
  match reaction.result with
  | .error failure => .error (next, some (.error failure))
  | .ok () =>
    if reaction.deeds.completes then .error (next, some (.ok ()))
    else .ok (next, reaction.deeds.closings walk.state)

/-- The current state is dispatched, and every state that it queued is made current and visited in
its turn.  Calls are nested `depth` deep at most. -/
def visit (logic : Logic σ) (machine previous : String) :
    Nat → String → Walk σ → Except (Ended σ) (Walk σ)
  | 0, _, walk => .error (walk, none)
  | depth + 1, source, walk =>
    match walk.dispatch logic machine previous source with
    | .error ended => .error ended
    | .ok (walk, queued) =>
      queued.foldlM
        (fun walk state => visit logic machine previous depth chainedSource { walk with state })
        walk

/-- A refresh for `source` as a recursion. -/
def refresh (logic : Logic σ) (depth : Nat) (core : Core) (source : String) (memory : σ) :
    Ended σ :=
  match visit logic core.name core.current depth source
    { state := core.current, last := core.lastDispatched, memory } with
  | .ok walk => (walk, some (.ok ()))
  | .error ended => ended

end Walk

abbrev Walk.visitQueued (logic : Logic σ) (machine previous : String) (depth : Nat)
    (walk : Walk σ) (state : String) : Except (Walk.Ended σ) (Walk σ) :=
  Walk.visit logic machine previous depth chainedSource { walk with state }

/-! ## 3. One dispatch of both -/

/-- The core belongs to a refresh of `machine` that began in `previous`, and nothing has completed
it. -/
structure Fits (core : Core) (machine previous : String) : Prop where
  name : core.name = machine
  previous : core.previous = some previous
  completed : core.completed = false

namespace Progress

/-- A refresh as the recursion sees it. -/
def walk (progress : Progress σ) : Walk σ :=
  { state := progress.core.current, last := progress.core.lastDispatched,
    memory := progress.memory, dispatches := progress.dispatches }

def moveTo (progress : Progress σ) (state : String) : Progress σ :=
  { progress with core := { progress.core with pending := [], current := state } }

def reaction (logic : Logic σ) (progress : Progress σ) : Reaction σ :=
  logic progress.memory progress.core.beginTick.view

/-- The progress after the next dispatch. -/
def next (logic : Logic σ) (source : String) (progress : Progress σ) : Progress σ :=
  { core := progress.core.beginTick.perform (progress.reaction logic).deeds
    memory := (progress.reaction logic).memory
    dispatches := progress.dispatches ++
      [{ state := progress.core.current, source, deeds := (progress.reaction logic).deeds,
         result := (progress.reaction logic).result }] }

theorem length_next (logic : Logic σ) (source : String) (progress : Progress σ) :
    (progress.next logic source).dispatches.length = progress.dispatches.length + 1 := by
  simp only [next, List.length_append, List.length_singleton]

variable {logic : Logic σ} {machine previous source : String} {progress : Progress σ}

theorem fits_moveTo (fits : Fits progress.core machine previous) (state : String) :
    Fits (progress.moveTo state).core machine previous :=
  ⟨fits.name, fits.previous, fits.completed⟩

theorem fits_next (source : String) (fits : Fits progress.core machine previous)
    (h : (progress.reaction logic).deeds.completes = false) :
    Fits (progress.next logic source).core machine previous := by
  simp only [next, Core.perform_eq, h]
  exact ⟨fits.name, fits.previous, (Bool.or_false _).trans fits.completed⟩

/-- The recursion dispatches what the loop dispatches next. -/
theorem walk_dispatch (fits : Fits progress.core machine previous) :
    progress.walk.dispatch logic machine previous source =
      match (progress.reaction logic).result with
      | .error failure => .error ((progress.next logic source).walk, some (.error failure))
      | .ok () =>
        if (progress.reaction logic).deeds.completes then
          .error ((progress.next logic source).walk, some (.ok ()))
        else
          .ok ((progress.next logic source).walk,
            (progress.reaction logic).deeds.closings progress.core.current) := by
  have hview : progress.core.beginTick.view =
      { machine, state := progress.core.current, previous := some previous,
        entry := decide (progress.core.lastDispatched ≠ some progress.core.current) } := by
    rw [← fits.name, ← fits.previous]
    rfl
  have hnext : (progress.next logic source).walk =
      { state := (progress.reaction logic).deeds.final progress.core.current
        last := some progress.core.current
        memory := (progress.reaction logic).memory
        dispatches := (progress.next logic source).dispatches } := by
    simp only [next, walk, Core.perform_eq]
    rfl
  rw [hnext]
  simp only [Walk.dispatch, reaction, next, hview]
  rfl

end Progress

namespace Chain

variable {logic : Logic σ} {machine previous : String} {progress : Progress σ}

def resume (logic : Logic σ) (budget : Nat) (work : List String) (progress : Progress σ) :
    Progress σ × Option (Except Failure Unit) :=
  match work with
  | [] => ({ progress with core := { progress.core with pending := [] } }, some (.ok ()))
  | state :: work =>
    run logic budget { source := chainedSource, work } (progress.moveTo state)

def aftermath (logic : Logic σ) (chain : Chain) (progress : Progress σ) : Aftermath :=
  settle (progress.next logic chain.source).core chain progress.core.current
    (progress.reaction logic).result

/-- The progress after the next dispatch has come back. -/
def settled (logic : Logic σ) (chain : Chain) (progress : Progress σ) : Progress σ :=
  { progress.next logic chain.source with core := (aftermath logic chain progress).core }

theorem length_settled (logic : Logic σ) (chain : Chain) (progress : Progress σ) :
    (settled logic chain progress).dispatches.length = progress.dispatches.length + 1 :=
  Progress.length_next logic chain.source progress

theorem run_eq (logic : Logic σ) (budget : Nat) (chain : Chain) (progress : Progress σ) :
    run logic (budget + 1) chain progress =
      match (aftermath logic chain progress).next with
      | .error result => (settled logic chain progress, some result)
      | .ok chain' => run logic budget chain' (settled logic chain progress) := rfl

/-- One turn of the loop: a failure and a completion end it, and otherwise it goes on with what the
dispatch queued, before everything that was queued earlier. -/
theorem run_succ (fits : Fits progress.core machine previous) (budget : Nat) (chain : Chain) :
    run logic (budget + 1) chain progress =
      match (progress.reaction logic).result with
      | .error failure => (progress.next logic chain.source, some (.error failure))
      | .ok () =>
        if (progress.reaction logic).deeds.completes then
          (progress.next logic chain.source, some (.ok ()))
        else
          resume logic budget
            ((progress.reaction logic).deeds.closings progress.core.current ++ chain.work)
            (progress.next logic chain.source) := by
  have hcompleted : (progress.next logic chain.source).core.completed =
      (progress.reaction logic).deeds.completes := by
    simp only [Progress.next, Core.perform_eq, show progress.core.beginTick.completed = false from
      fits.completed, Bool.false_or]
  have hpending : (progress.next logic chain.source).core.pending =
      (progress.reaction logic).deeds.closings progress.core.current := by
    simp only [Progress.next, Core.perform_eq]
    rfl
  -- Both sides look at the result first, then at whether the logic is complete.
  rw [run_eq]
  simp only [settled, aftermath]
  cases (progress.reaction logic).result with
  | error failure => rfl
  | ok value =>
    by_cases h : (progress.reaction logic).deeds.completes = true
    · simp only [settle_completed chain progress.core.current (hcompleted.trans h), if_pos h]
    · rw [Bool.not_eq_true] at h
      simp only [h, ← hpending, if_neg Bool.false_ne_true]
      cases hwork : (progress.next logic chain.source).core.pending ++ chain.work with
      | nil => simp only [settle_last _ (hcompleted.trans h) hwork, resume]
      | cons state work =>
        simp only [settle_next _ (hcompleted.trans h) hwork, resume, Progress.moveTo]

/-! ## 4. The loop follows the recursion -/

/-- Loops `loop`, one for each budget, that have made the dispatches of `progress` make those of
`walk` and then go on with `work`. -/
def Reaches (logic : Logic σ) (machine previous : String)
    (loop : Nat → Progress σ × Option (Except Failure Unit)) (progress : Progress σ)
    (work : List String) (walk : Walk σ) : Prop :=
  ∃ after count, Fits after.core machine previous ∧ after.walk = walk ∧
    progress.dispatches.length + count = walk.dispatches.length ∧
    ∀ budget, loop (count + budget) = resume logic budget work after

/-- Loops `loop` that have made the dispatches of `progress` make those of a recursion that ended,
and stand where it stands.  They have made at least `depth` of them if it was cut off. -/
def EndsAs (loop : Nat → Progress σ × Option (Except Failure Unit)) (progress : Progress σ)
    (depth : Nat) (ended : Walk.Ended σ) : Prop :=
  ∃ after count, after.walk = ended.1 ∧
    progress.dispatches.length + count = ended.1.dispatches.length ∧
    (ended.2 = none → depth ≤ count) ∧ loop count = (after, ended.2)

theorem Reaches.trans {loop : Nat → Progress σ × Option (Except Failure Unit)}
    {between : List String} {walk walk' : Walk σ} {work : List String}
    (h : Reaches logic machine previous loop progress between walk)
    (h' : ∀ progress : Progress σ, Fits progress.core machine previous → progress.walk = walk →
      Reaches logic machine previous (resume logic · between progress) progress work walk') :
    Reaches logic machine previous loop progress work walk' := by
  obtain ⟨middle, count, fits, hwalk, hcount, hloop⟩ := h
  obtain ⟨after, count', fits', hwalk', hcount', hloop'⟩ := h' middle fits hwalk
  have hmiddle : middle.dispatches.length = walk.dispatches.length := by rw [← hwalk]; rfl
  refine ⟨after, count + count', fits', hwalk', by omega, fun budget => ?_⟩
  rw [Nat.add_assoc, hloop]
  exact hloop' budget

theorem Reaches.length_le {loop : Nat → Progress σ × Option (Except Failure Unit)}
    {work : List String} {walk : Walk σ}
    (h : Reaches logic machine previous loop progress work walk) :
    progress.dispatches.length ≤ walk.dispatches.length := by
  obtain ⟨after, count, fits, hwalk, hcount, hloop⟩ := h
  omega

/-- A stretch of a loop with at least `more` dispatches, and then one in which it ends. -/
theorem Reaches.endsAs {loop : Nat → Progress σ × Option (Except Failure Unit)}
    {between : List String} {walk : Walk σ} {depth : Nat} {ended : Walk.Ended σ}
    (h : Reaches logic machine previous loop progress between walk) (more : Nat)
    (hmore : progress.dispatches.length + more ≤ walk.dispatches.length)
    (h' : ∀ progress : Progress σ, Fits progress.core machine previous → progress.walk = walk →
      EndsAs (resume logic · between progress) progress depth ended) :
    EndsAs loop progress (depth + more) ended := by
  obtain ⟨middle, count, fits, hwalk, hcount, hloop⟩ := h
  obtain ⟨after, count', hwalk', hcount', hcut, hloop'⟩ := h' middle fits hwalk
  have hmiddle : middle.dispatches.length = walk.dispatches.length := by rw [← hwalk]; rfl
  refine ⟨after, count + count', hwalk', by omega, fun hnone => ?_, (hloop count').trans hloop'⟩
  have hdepth := hcut hnone
  omega

theorem run_of_dispatch_ok (fits : Fits progress.core machine previous) {source : String}
    {work queued : List String} {walk : Walk σ}
    (h : progress.walk.dispatch logic machine previous source = .ok (walk, queued)) :
    walk.dispatches.length = progress.dispatches.length + 1 ∧
      Reaches logic machine previous (run logic · { source, work } progress) progress
        (queued ++ work) walk := by
  -- One turn of the loop, in the case in which both go on.
  have hlength := Progress.length_next logic source progress
  have hrun : ∀ budget, run logic (budget + 1) { source, work } progress = _ := fun budget =>
    run_succ fits budget { source, work }
  rw [Progress.walk_dispatch fits] at h
  cases hresult : (progress.reaction logic).result with
  | error failure =>
    rw [hresult] at h
    cases h
  | ok value =>
    simp only [hresult] at h hrun
    cases hcompletes : (progress.reaction logic).deeds.completes with
    | true =>
      rw [hcompletes, if_pos rfl] at h
      cases h
    | false =>
      rw [hcompletes, if_neg Bool.false_ne_true] at h
      cases h
      refine ⟨hlength, progress.next logic source, 1, Progress.fits_next source fits hcompletes,
        rfl, hlength.symm, fun budget => ?_⟩
      show run logic (1 + budget) { source, work } progress = _
      rw [Nat.add_comm 1 budget, hrun, hcompletes, if_neg Bool.false_ne_true]

theorem run_of_dispatch_error (fits : Fits progress.core machine previous) {source : String}
    (work : List String) (depth : Nat) {ended : Walk.Ended σ}
    (h : progress.walk.dispatch logic machine previous source = .error ended) :
    EndsAs (run logic · { source, work } progress) progress depth ended := by
  have hlength := (Progress.length_next logic source progress).symm
  have hrun : run logic 1 { source, work } progress = _ := run_succ fits 0 { source, work }
  rw [Progress.walk_dispatch fits] at h
  cases hresult : (progress.reaction logic).result with
  | error failure =>
    simp only [hresult] at h hrun
    cases h
    exact ⟨progress.next logic source, 1, rfl, hlength, (fun h => by cases h), hrun⟩
  | ok value =>
    simp only [hresult] at h hrun
    cases hcompletes : (progress.reaction logic).deeds.completes with
    | true =>
      rw [hcompletes, if_pos rfl] at h hrun
      cases h
      exact ⟨progress.next logic source, 1, rfl, hlength, (fun h => by cases h), hrun⟩
    | false =>
      rw [hcompletes, if_neg Bool.false_ne_true] at h
      cases h

/-- Where the recursion visits a queued state and its siblings to their end, the loop takes them off
its stack. -/
theorem resume_of_visits_ok {depth : Nat}
    (hvisit : ∀ (p : Progress σ) (source : String) (work : List String) (walk : Walk σ),
      Fits p.core machine previous →
      Walk.visit logic machine previous depth source p.walk = .ok walk →
      Reaches logic machine previous (run logic · { source, work } p) p work walk)
    (queued work : List String) {walk : Walk σ} (fits : Fits progress.core machine previous)
    (h : queued.foldlM (Walk.visitQueued logic machine previous depth) progress.walk = .ok walk) :
    Reaches logic machine previous (resume logic · (queued ++ work) progress) progress work
      walk := by
  induction queued generalizing progress with
  | nil =>
    cases h
    exact ⟨progress, 0, fits, rfl, rfl, fun budget => by rw [Nat.zero_add]; rfl⟩
  | cons state queued ih =>
    rw [List.foldlM_cons] at h
    cases hfirst : Walk.visitQueued logic machine previous depth progress.walk state with
    | error ended =>
      rw [hfirst] at h
      cases h
    | ok first =>
      rw [hfirst] at h
      have hreaches : Reaches logic machine previous
          (resume logic · (state :: (queued ++ work)) progress) progress (queued ++ work) first :=
        hvisit (progress.moveTo state) chainedSource (queued ++ work) first
          (Progress.fits_moveTo fits state) hfirst
      -- The loop takes the first sibling off its stack and comes back to the others.
      exact hreaches.trans fun middle fits hwalk => ih fits (by rw [hwalk]; exact h)

/-- Where the recursion comes back from a visit, the loop has done everything that it visited. -/
theorem run_of_visit_ok (depth : Nat) (progress : Progress σ) (source : String)
    (work : List String) (walk : Walk σ) (fits : Fits progress.core machine previous)
    (h : Walk.visit logic machine previous depth source progress.walk = .ok walk) :
    Reaches logic machine previous (run logic · { source, work } progress) progress work walk := by
  induction depth generalizing progress source work walk with
  -- A visit of no depth is cut off, and does not come back.
  | zero => cases h
  | succ depth ih =>
    rw [Walk.visit] at h
    cases hdispatch : progress.walk.dispatch logic machine previous source with
    | error ended =>
      rw [hdispatch] at h
      cases h
    | ok dispatched =>
      rw [hdispatch] at h
      obtain ⟨first, queued⟩ := dispatched
      obtain ⟨hlength, hreaches⟩ := run_of_dispatch_ok fits hdispatch
      -- What the dispatch queued lies above the rest of the stack.
      refine hreaches.trans fun middle fits hwalk => ?_
      exact resume_of_visits_ok ih queued work fits (by rw [hwalk]; exact h)

/-- Where the recursion ends among queued states, the loop ends as it does. -/
theorem resume_of_visits_error {depth : Nat}
    (hvisit : ∀ (p : Progress σ) (source : String) (work : List String) (ended : Walk.Ended σ),
      Fits p.core machine previous →
      Walk.visit logic machine previous depth source p.walk = .error ended →
      EndsAs (run logic · { source, work } p) p depth ended)
    (queued work : List String) {ended : Walk.Ended σ}
    (fits : Fits progress.core machine previous)
    (h : queued.foldlM (Walk.visitQueued logic machine previous depth) progress.walk =
      .error ended) :
    EndsAs (resume logic · (queued ++ work) progress) progress depth ended := by
  induction queued generalizing progress with
  | nil => cases h
  | cons state queued ih =>
    rw [List.foldlM_cons] at h
    have hmoved := Progress.fits_moveTo fits state
    cases hfirst : Walk.visitQueued logic machine previous depth progress.walk state with
    | error first =>
      rw [hfirst] at h
      cases h
      exact hvisit (progress.moveTo state) chainedSource (queued ++ work) ended hmoved hfirst
    | ok first =>
      rw [hfirst] at h
      have hreaches : Reaches logic machine previous
          (resume logic · (state :: (queued ++ work)) progress) progress (queued ++ work) first :=
        run_of_visit_ok depth (progress.moveTo state) chainedSource (queued ++ work) first hmoved
          hfirst
      -- The first sibling came back, and the end is among the others.
      exact hreaches.endsAs 0 hreaches.length_le fun middle fits hwalk =>
        ih fits (by rw [hwalk]; exact h)

/-- Where the recursion ends as a whole, with a result or cut off, the loop ends as it does. -/
theorem run_of_visit_error (depth : Nat) (progress : Progress σ) (source : String)
    (work : List String) (ended : Walk.Ended σ) (fits : Fits progress.core machine previous)
    (h : Walk.visit logic machine previous depth source progress.walk = .error ended) :
    EndsAs (run logic · { source, work } progress) progress depth ended := by
  induction depth generalizing progress source work ended with
  | zero =>
    -- Cut off at once: the loop has no budget, and stands where it stood.
    cases h
    exact ⟨progress, 0, rfl, rfl, fun _ => Nat.le_refl 0, rfl⟩
  | succ depth ih =>
    rw [Walk.visit] at h
    cases hdispatch : progress.walk.dispatch logic machine previous source with
    | error first =>
      rw [hdispatch] at h
      cases h
      exact run_of_dispatch_error fits work (depth + 1) hdispatch
    | ok dispatched =>
      rw [hdispatch] at h
      obtain ⟨first, queued⟩ := dispatched
      obtain ⟨hlength, hreaches⟩ := run_of_dispatch_ok fits hdispatch
      refine hreaches.endsAs 1 (Nat.le_of_eq hlength.symm) fun middle fits hwalk => ?_
      exact resume_of_visits_error ih queued work fits (by rw [hwalk]; exact h)

/-! ## 5. Budgets -/

theorem run_add {budget : Nat} {chain : Chain} {after : Progress σ}
    {result : Except Failure Unit} (more : Nat)
    (h : run logic budget chain progress = (after, some result)) :
    run logic (budget + more) chain progress = (after, some result) := by
  induction budget generalizing chain progress with
  | zero => cases h
  | succ budget ih =>
    rw [Nat.add_right_comm, run_eq]
    rw [run_eq] at h
    split at h
    · exact h
    · exact ih h

theorem prefix_run (budget : Nat) (chain : Chain) (progress : Progress σ) :
    progress.dispatches <+: (run logic budget chain progress).1.dispatches := by
  induction budget generalizing chain progress with
  | zero => exact List.prefix_rfl
  | succ budget ih =>
    have hnext : progress.dispatches <+: (progress.next logic chain.source).dispatches :=
      List.prefix_append _ _
    rw [run_eq]
    split
    · exact hnext
    · exact hnext.trans (ih _ (settled logic chain progress))

theorem dispatches_run_add (budget more : Nat) (chain : Chain) (progress : Progress σ) :
    (run logic budget chain progress).1.dispatches =
      (run logic (budget + more) chain progress).1.dispatches.take
        (progress.dispatches.length + budget) := by
  induction budget generalizing chain progress with
  | zero =>
    rw [Nat.zero_add]
    exact List.prefix_iff_eq_take.mp (prefix_run more chain progress)
  | succ budget ih =>
    have hlength := length_settled logic chain progress
    rw [Nat.add_right_comm, run_eq, run_eq]
    split
    · rw [List.take_of_length_le (by dsimp only; omega)]
    · rw [ih, hlength, Nat.add_right_comm, Nat.add_assoc]

def transitions : List Dispatch → Nat
  | [] => 0
  | dispatch :: dispatches => dispatch.deeds.transitions + transitions dispatches

theorem transitions_append (dispatches later : List Dispatch) :
    transitions (dispatches ++ later) = transitions dispatches + transitions later := by
  induction dispatches with
  | nil => rw [List.nil_append, transitions, Nat.zero_add]
  | cons dispatch dispatches ih =>
    rw [List.cons_append, transitions, transitions, ih, Nat.add_assoc]

/-- A loop that comes to its end without completing the machine has dispatched the state it stood
in, its work stack, and every state that a transition queued. -/
theorem length_run (fits : Fits progress.core machine previous) {budget : Nat} {chain : Chain}
    {after : Progress σ} (h : run logic budget chain progress = (after, some (.ok ())))
    (hcompleted : after.core.completed = false) :
    after.dispatches.length + transitions progress.dispatches =
      progress.dispatches.length + 1 + chain.work.length + transitions after.dispatches := by
  induction budget generalizing progress chain with
  | zero => cases h
  | succ budget ih =>
    rw [run_succ fits] at h
    have hlength := Progress.length_next logic chain.source progress
    have htransitions : transitions (progress.next logic chain.source).dispatches =
        transitions progress.dispatches + (progress.reaction logic).deeds.transitions :=
      transitions_append _ _
    have hclosings := (progress.reaction logic).deeds.length_closings progress.core.current
    cases hresult : (progress.reaction logic).result with
    | error failure =>
      rw [hresult] at h
      cases h
    | ok value =>
      simp only [hresult] at h
      cases hcompletes : (progress.reaction logic).deeds.completes with
      | true =>
        rw [hcompletes, if_pos rfl] at h
        cases h
        simp [Progress.next, Core.perform_eq, hcompletes] at hcompleted
      | false =>
        rw [hcompletes, if_neg Bool.false_ne_true] at h
        have hfits := Progress.fits_next chain.source fits hcompletes
        cases hwork :
            (progress.reaction logic).deeds.closings progress.core.current ++ chain.work with
        | nil =>
          -- The last dispatch: it queued nothing, and nothing was left on the stack.
          obtain ⟨hnone, hempty⟩ := List.append_eq_nil_iff.mp hwork
          rw [hnone, List.length_nil] at hclosings
          rw [hwork] at h
          cases h
          rw [hempty, List.length_nil]
          dsimp only
          omega
        | cons state work =>
          -- The stack grows by one for every transition and shrinks by the state that comes next.
          have hsum := congrArg List.length hwork
          rw [List.length_append, List.length_cons] at hsum
          rw [hwork] at h
          have hrest := ih (Progress.fits_moveTo hfits state) h
          dsimp only [Progress.moveTo] at hrest
          omega

/-! ## 6. Both as a whole -/

/-- The loop makes exactly as many dispatches as a recursion of any depth, and then stands where the
recursion stands.  A recursion is cut off only after as many dispatches as it is deep. -/
theorem refresh_of_walk (logic : Logic σ) {core : Core} (source : String) (memory : σ)
    (h : core.completed = false) (depth : Nat) :
    let ended := Walk.refresh logic depth core source memory
    ∃ after, after.walk = ended.1 ∧ (ended.2 = none → depth ≤ ended.1.dispatches.length) ∧
      refresh logic ended.1.dispatches.length core source memory = (after, ended.2) := by
  -- A refresh starts from an empty work stack, so that nothing is left when the visit is.
  let start : Progress σ := { core := core.beginRefresh, memory }
  have fits : Fits start.core core.name core.current := ⟨rfl, rfl, h⟩
  dsimp only
  cases hvisit : Walk.visit logic core.name core.current depth source start.walk with
  | error ended =>
    have hwalk : Walk.refresh logic depth core source memory = ended := by
      simp only [Walk.refresh]
      rw [show ({ state := core.current, last := core.lastDispatched, memory } : Walk σ) =
        start.walk from rfl, hvisit]
    obtain ⟨after, count, hafter, hcount, hcut, hrun⟩ :=
      run_of_visit_error depth start source [] ended fits hvisit
    have hlength : count = ended.1.dispatches.length := (Nat.zero_add count).symm.trans hcount
    rw [hwalk, ← hlength]
    exact ⟨after, hafter, hcut, hrun⟩
  | ok walk =>
    have hwalk : Walk.refresh logic depth core source memory = (walk, some (.ok ())) := by
      simp only [Walk.refresh]
      rw [show ({ state := core.current, last := core.lastDispatched, memory } : Walk σ) =
        start.walk from rfl, hvisit]
    obtain ⟨after, count, hfits, hafter, hcount, hrun⟩ :=
      run_of_visit_ok depth start source [] walk fits hvisit
    have hlength : count = walk.dispatches.length := (Nat.zero_add count).symm.trans hcount
    rw [hwalk]
    dsimp only
    rw [← hlength]
    exact ⟨{ after with core := { after.core with pending := [] } }, hafter,
      (fun h => by cases h), hrun 0⟩

theorem dispatches_refresh (logic : Logic σ) {core : Core} (source : String) (memory : σ)
    (h : core.completed = false) (count : Nat) :
    (refresh logic count core source memory).1.dispatches =
      (Walk.refresh logic count core source memory).1.dispatches.take count := by
  -- The recursion is given as much depth as the loop has budget.
  obtain ⟨after, hwalk, hcut, hrun⟩ := refresh_of_walk logic source memory h count
  rw [← hwalk] at hrun ⊢
  show _ = after.dispatches.take count
  change refresh logic after.dispatches.length core source memory = _ at hrun
  by_cases hcount : count ≤ after.dispatches.length
  · obtain ⟨more, hmore⟩ := Nat.exists_eq_add_of_le hcount
    rw [hmore] at hrun
    have htake : (refresh logic count core source memory).1.dispatches =
        (refresh logic (count + more) core source memory).1.dispatches.take (0 + count) :=
      dispatches_run_add count more _ _
    rw [htake, hrun, Nat.zero_add]
  · -- The recursion made fewer dispatches than it is deep, so that it was not cut off.
    cases hended : (Walk.refresh logic count core source memory).2 with
    | none =>
      have hdepth := hcut hended
      rw [← hwalk] at hdepth
      exact absurd hdepth hcount
    | some result =>
      obtain ⟨more, hmore⟩ := Nat.exists_eq_add_of_le (Nat.le_of_not_le hcount)
      rw [hended] at hrun
      have hsame : refresh logic count core source memory = (after, some result) := by
        rw [hmore]
        exact run_add more hrun
      rw [hsame, List.take_of_length_le (Nat.le_of_not_le hcount)]

/-- A refresh that comes to an end is a recursion that comes to that end. -/
theorem walk_of_refresh {logic : Logic σ} {core : Core} {source : String} {memory : σ}
    (h : core.completed = false) {budget : Nat} {after : Progress σ}
    {result : Except Failure Unit}
    (hrun : refresh logic budget core source memory = (after, some result)) :
    Walk.refresh logic (budget + 1) core source memory = (after.walk, some result) := by
  obtain ⟨after', hwalk, hcut, hrun'⟩ := refresh_of_walk logic source memory h (budget + 1)
  cases hended : (Walk.refresh logic (budget + 1) core source memory).2 with
  | none =>
    -- Cut off, it would have made more dispatches than the loop makes in all.
    obtain ⟨more, hmore⟩ := Nat.exists_eq_add_of_le (Nat.le_of_succ_le (hcut hended))
    have hsame : refresh logic (budget + more) core source memory = (after, some result) :=
      run_add more hrun
    rw [← hmore, hrun', hended] at hsame
    cases hsame
  | some result' =>
    rw [hended] at hrun'
    have hsame := (run_add budget hrun').symm.trans
      ((congrArg (run logic · _ _) (Nat.add_comm _ budget)).trans (run_add _ hrun))
    cases hsame
    exact Prod.ext hwalk.symm hended

end Chain

/-- A refresh is the recursion that its work stack stands for.  For every number of dispatches, the
first ones of both are the same, whether they come to an end or not; both come to the same ends,
with the same dispatches, the same current and latest state, the same memory and the same result.
An end with nothing completed takes one dispatch, and one more for every transition. -/
theorem refresh_eq_recursion (logic : Logic σ) (core : Core) (source : String) (memory : σ)
    (h : core.completed = false) :
    (∀ count, (Chain.refresh logic count core source memory).1.dispatches =
      (Walk.refresh logic count core source memory).1.dispatches.take count) ∧
    (∀ walk result,
      (∃ budget after, Chain.refresh logic budget core source memory = (after, some result) ∧
        after.walk = walk) ↔
      ∃ depth, Walk.refresh logic depth core source memory = (walk, some result)) ∧
    (∀ budget after, Chain.refresh logic budget core source memory = (after, some (.ok ())) →
      after.core.completed = false →
      after.dispatches.length = 1 + Chain.transitions after.dispatches) := by
  refine ⟨Chain.dispatches_refresh logic source memory h, fun walk result => ⟨?_, ?_⟩,
    fun budget after hrun hcompleted => ?_⟩
  · rintro ⟨budget, after, hrun, rfl⟩
    exact ⟨budget + 1, Chain.walk_of_refresh h hrun⟩
  · rintro ⟨depth, hended⟩
    obtain ⟨after, hwalk, -, hrun⟩ := Chain.refresh_of_walk logic source memory h depth
    rw [hended] at hwalk hrun
    exact ⟨walk.dispatches.length, after, hrun, hwalk⟩
  · let start : Progress σ := { core := core.beginRefresh, memory }
    have fits : Fits start.core core.name core.current := ⟨rfl, rfl, h⟩
    exact Chain.length_run fits hrun hcompleted

/-- The logic of a fork: `A` queues `B` and `C`, `B` queues `D`, nothing else queues anything. -/
def forkLogic : Logic Unit := fun _ view =>
  { deeds :=
      if view.state = "A" then
        .transition (.become "B" .done) (.transition (.become "C" .done) .done)
      else if view.state = "B" then .transition (.become "D" .done) .done
      else .done
    result := .ok ()
    memory := () }

theorem refresh_eq_recursion_fork :
    (Core.ofState "m" "A").completed = false ∧
    ∃ depth walk, Walk.refresh forkLogic depth (Core.ofState "m" "A") "go" () =
        (walk, some (.ok ())) ∧
      walk.dispatches.map (·.state) = ["A", "B", "D", "C"] ∧
      walk.dispatches.map (·.source) = ["go", "when", "when", "when"] := by
  obtain ⟨-, hends, -⟩ := refresh_eq_recursion forkLogic (Core.ofState "m" "A") "go" () rfl
  obtain ⟨depth, hdepth⟩ := (hends _ _).mp ⟨4, _, rfl, rfl⟩
  exact ⟨rfl, depth, _, hdepth, rfl, rfl⟩

end Sequencer
