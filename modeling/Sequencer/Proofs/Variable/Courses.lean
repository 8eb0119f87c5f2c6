import Sequencer.Proofs.Variable.Supply

/-!
# Courses — what an intake does with one sample after another

An intake is done with a sample before it takes the next one, so that what it did so far, and what
is left to do with the sample at hand, are the courses of the samples in their order.  A variable is
what was written to it last, by whomever.
-/

namespace Sequencer

namespace Supply

variable {x x' : Supply} {p q i : Nat} {stance : Stance} {deed : Option Intake.Deed}

/-! ## 1. Steps -/

/-- What a step can do. -/
inductive Change (x : Supply) : Supply → Prop where
  | nothing : Change x x
  | make (p : Nat) (errand : Errand) (i : Nat) (fault : Option MediumFault)
      (hunmade : (x.intakes p).stance = .unmade) :
      Change x (x.place p { errand, target := i, stance := Intake.opening fault })
  | act (p : Nat) (stance : Stance) (deed : Option Intake.Deed)
      (hturn : (x.intakes p).Turn (x.store (x.intakes p).target) x.traffic.actor.core.name x.meets
        stance deed) : Change x (x.act p (stance, deed))
  | dismiss (p : Nat) (dismissed : Bool) : Change x (x.place p { x.intakes p with dismissed })
  | assign (i : Nat) (value : Value) :
      Change x ({ x with store := Function.update x.store i ((x.store i).assign value) }.note
        (.assigned i ((x.store i).assign value)))
  | traffic (t : Traffic) (hchange : x.traffic.Change t) : Change x { x with traffic := t }

theorem change_step (x : Supply) (move : Move) : x.Change (x.step move) := by
  cases move with
  | make p errand i fault =>
    simp only [step]
    split
    · next h => exact .make p errand i fault h
    · exact .nothing
  | look p polled expired cancelFirst => exact .act p _ _ (Intake.turn_look ..)
  | proceed p => exact .act p _ _ (Intake.turn_proceed ..)
  | dismiss p => exact .dismiss p _
  | assign i value => exact .assign i value
  | traffic move => exact .traffic _ (Traffic.change_step _ move)

theorem run_induction {P : Supply → Prop} (hchange : ∀ x x', P x → x.Change x' → P x') (h : P x)
    (moves : List Move) : P (x.run moves) :=
  List.foldlRecOn moves step h fun y h move _ => hchange y _ h (change_step y move)

theorem run_append (x : Supply) (moves more : List Move) :
    x.run (moves ++ more) = (x.run moves).run more := List.foldl_append

@[simp] theorem intakes_perform (x : Supply) (i : Nat) (deed : Intake.Deed) :
    (x.perform i deed).intakes = x.intakes := by
  cases deed <;> rfl

@[simp] theorem chronicle_perform (x : Supply) (i : Nat) (deed : Intake.Deed) :
    (x.perform i deed).chronicle = x.chronicle := by
  cases deed <;> rfl

@[simp] theorem intakes_act (x : Supply) (p : Nat) (stance : Stance) (deed : Option Intake.Deed) :
    (x.act p (stance, deed)).intakes =
      Function.update x.intakes p { x.intakes p with stance } := by
  cases deed with
  | none => rfl
  | some deed => exact intakes_perform _ _ _

theorem chronicle_act (x : Supply) (p : Nat) (stance : Stance) (deed : Option Intake.Deed) :
    (x.act p (stance, deed)).chronicle =
      x.chronicle ++ (deed.map (Happening.done p (x.intakes p).target)).toList := by
  cases deed with
  | none => exact (List.append_nil _).symm
  | some deed => exact congrArg (· ++ [_]) (chronicle_perform _ _ _)

/-- What the intake `p` does stands at the end of its own trail, and in no other one. -/
theorem trail_act (x : Supply) (p q : Nat) (stance : Stance) (deed : Option Intake.Deed) :
    (x.act p (stance, deed)).trail q = x.trail q ++ if p = q then deed.toList else [] := by
  unfold trail
  rw [chronicle_act, List.filterMap_append]
  cases deed with
  | none => split <;> rfl
  | some deed => by_cases h : p = q <;> simp [Happening.deed?, h]

theorem trail_note_assigned (x : Supply) (i : Nat) (v : Variable) (p : Nat) :
    (x.note (.assigned i v)).trail p = x.trail p := by
  unfold trail note
  rw [List.filterMap_append]
  exact List.append_nil _

theorem writes_act (x : Supply) (p i : Nat) (stance : Stance) (deed : Option Intake.Deed) :
    (x.act p (stance, deed)).writes i = x.writes i ++
      if (x.intakes p).target = i then (deed.bind Intake.Deed.written?).toList else [] := by
  unfold writes
  rw [chronicle_act, List.filterMap_append]
  cases deed with
  | none => split <;> rfl
  | some deed =>
    by_cases h : (x.intakes p).target = i
    · cases deed <;> simp [Happening.written?, Intake.Deed.written?, h]
    · simp [Happening.written?, h]

theorem store_act (x : Supply) (p : Nat) (stance : Stance) (deed : Option Intake.Deed) :
    (x.act p (stance, deed)).store = match deed.bind Intake.Deed.written? with
      | none => x.store
      | some v => Function.update x.store (x.intakes p).target v := by
  cases deed with
  | none => rfl
  | some deed => cases deed <;> rfl

theorem traffic_act (x : Supply) (p : Nat) (stance : Stance) (deed : Option Intake.Deed) :
    (x.act p (stance, deed)).traffic = match deed with
      | some (.told event) => x.traffic.tell event
      | some (.asked source) => (x.traffic.notify source).1
      | _ => x.traffic := by
  cases deed with
  | none => rfl
  | some deed => cases deed <;> rfl

@[simp] theorem intakes_place (x : Supply) (p : Nat) (intake : Intake) :
    (x.place p intake).intakes p = intake := Function.update_self ..

theorem intakes_place_of_ne {p q : Nat} (h : q ≠ p) (x : Supply) (intake : Intake) :
    (x.place p intake).intakes q = x.intakes q := Function.update_of_ne h ..

theorem trail_place (x : Supply) (p q : Nat) (intake : Intake) :
    (x.place p intake).trail q = x.trail q := rfl

theorem intakes_act_self (x : Supply) (p : Nat) (turn : Stance × Option Intake.Deed) :
    (x.act p turn).intakes p = { x.intakes p with stance := turn.1 } := by
  obtain ⟨stance, deed⟩ := turn
  rw [intakes_act, Function.update_self]

theorem stance_act (x : Supply) (p : Nat) (turn : Stance × Option Intake.Deed) :
    ((x.act p turn).intakes p).stance = turn.1 := congrArg Intake.stance (intakes_act_self x p turn)

theorem trail_act_self (x : Supply) (p : Nat) (turn : Stance × Option Intake.Deed) :
    (x.act p turn).trail p = x.trail p ++ turn.2.toList := by
  obtain ⟨stance, deed⟩ := turn
  rw [trail_act, if_pos rfl]

theorem step_of_ne {move : Move} (h : move.intake? ≠ some p) :
    (x.step move).intakes p = x.intakes p ∧ (x.step move).trail p = x.trail p := by
  have hact : ∀ q stance deed, q ≠ p → (x.act q (stance, deed)).intakes p = x.intakes p ∧
      (x.act q (stance, deed)).trail p = x.trail p := fun q stance deed hne =>
    ⟨by rw [intakes_act, Function.update_of_ne (Ne.symm hne)],
      by rw [trail_act, if_neg hne, List.append_nil]⟩
  cases move with
  | make q errand i fault =>
    have hne : q ≠ p := fun hq => h (congrArg some hq)
    simp only [step]
    split
    · exact ⟨Function.update_of_ne (Ne.symm hne) .., rfl⟩
    · exact ⟨rfl, rfl⟩
  | look q polled expired cancelFirst => exact hact q _ _ fun hq => h (congrArg some hq)
  | proceed q => exact hact q _ _ fun hq => h (congrArg some hq)
  | dismiss q =>
    have hne : q ≠ p := fun hq => h (congrArg some hq)
    exact ⟨Function.update_of_ne (Ne.symm hne) .., rfl⟩
  | assign i value => exact ⟨rfl, trail_note_assigned _ _ _ _⟩
  | traffic move => exact ⟨rfl, rfl⟩

/-- What an intake is for is said once, when it is made. -/
theorem errand_change (hchange : x.Change x') (hmade : (x.intakes p).stance ≠ .unmade) :
    (x'.intakes p).errand = (x.intakes p).errand ∧
      (x'.intakes p).target = (x.intakes p).target := by
  cases hchange with
  | make q errand i fault hunmade =>
    have hne : p ≠ q := fun h => hmade (h ▸ hunmade)
    rw [intakes_place_of_ne hne]
    exact ⟨rfl, rfl⟩
  | act q stance deed hturn =>
    rw [intakes_act]
    by_cases h : p = q
    · rw [h, Function.update_self]
      exact ⟨rfl, rfl⟩
    · rw [Function.update_of_ne h]
      exact ⟨rfl, rfl⟩
  | dismiss q dismissed =>
    by_cases h : p = q
    · rw [h, intakes_place]
      exact ⟨rfl, rfl⟩
    · rw [intakes_place_of_ne h]
      exact ⟨rfl, rfl⟩
  | _ => exact ⟨rfl, rfl⟩

/-- An intake that is made goes on by its looks and its deeds, and by nothing else. -/
theorem step_still {move : Move} (hmade : (x.intakes p).stance ≠ .unmade)
    (hlook : ∀ polled expired cancelFirst, move ≠ .look p polled expired cancelFirst)
    (hproceed : move ≠ .proceed p) :
    ((x.step move).intakes p).stance = (x.intakes p).stance ∧
      (x.step move).trail p = x.trail p := by
  by_cases hown : move.intake? = some p
  · cases move with
    | make q errand i fault =>
      cases hown
      have hsame : x.step (.make p errand i fault) = x := by simp only [step]
      rw [hsame]
      exact ⟨rfl, rfl⟩
    | look q polled expired cancelFirst =>
      cases hown
      exact absurd rfl (hlook polled expired cancelFirst)
    | proceed q =>
      cases hown
      exact absurd rfl hproceed
    | dismiss q =>
      cases hown
      exact ⟨by rw [step, intakes_place], rfl⟩
    | assign i value => cases hown
    | traffic move => cases hown
  · obtain ⟨hintake, htrail⟩ := step_of_ne hown
    exact ⟨congrArg Intake.stance hintake, htrail⟩

/-- While it is busy with a sample it sees nothing of its stream. -/
theorem step_busy {move : Move} (hmade : (x.intakes p).stance ≠ .unmade)
    (hbusy : (x.intakes p).stance ≠ .waiting) (hproceed : move ≠ .proceed p) :
    ((x.step move).intakes p).stance = (x.intakes p).stance ∧
      (x.step move).trail p = x.trail p := by
  by_cases hlook : ∃ polled expired cancelFirst, move = .look p polled expired cancelFirst
  · obtain ⟨polled, expired, cancelFirst, rfl⟩ := hlook
    rw [step, Intake.look_busy hbusy]
    exact ⟨stance_act .., (trail_act_self ..).trans (List.append_nil _)⟩
  · exact step_still hmade
      (fun polled expired cancelFirst h => hlook ⟨polled, expired, cancelFirst, h⟩) hproceed

theorem step_finished {finish : Finish} (h : (x.intakes p).stance = .finished finish)
    (move : Move) :
    ((x.step move).intakes p).stance = .finished finish ∧ (x.step move).trail p = x.trail p := by
  by_cases hproceed : move = .proceed p
  · subst hproceed
    have hnothing : (x.intakes p).proceed x.meets = (.finished finish, none) := by
      rw [Intake.proceed, h]
    rw [step, hnothing]
    exact ⟨stance_act .., (trail_act_self ..).trans (List.append_nil _)⟩
  · have hbusy := step_busy (by rw [h]; nofun) (by rw [h]; nofun) hproceed
    exact ⟨hbusy.1.trans h, hbusy.2⟩

/-! ## 2. Variables -/

/-- Every variable is what was written to it last, and nothing but its value was ever changed. -/
structure Replayed (store : Nat → Variable) (x : Supply) : Prop where
  last : ∀ i, x.store i = (x.writes i).getLast?.getD (store i)
  assigned : ∀ i, ∀ v ∈ x.writes i, ∃ value, v = (store i).assign value

variable {store : Nat → Variable} {name : String}

theorem Replayed.akin (replayed : x.Replayed store) (i : Nat) : (x.store i).Akin (store i) := by
  rw [replayed.last i]
  cases hlast : (x.writes i).getLast? with
  | none => exact .refl _
  | some v =>
    obtain ⟨value, hvalue⟩ := replayed.assigned i v (List.mem_of_getLast? hlast)
    exact hvalue ▸ Variable.akin_assign (store i) value

theorem Replayed.keep (replayed : x.Replayed store) (hstore : x'.store = x.store)
    (hwrites : x'.writes = x.writes) : x'.Replayed store where
  last := by rw [hstore, hwrites]; exact replayed.last
  assigned := by rw [hwrites]; exact replayed.assigned

theorem Replayed.write (replayed : x.Replayed store) {i : Nat} {v : Variable}
    (hvalue : ∃ value, v = (store i).assign value)
    (hstore : x'.store = Function.update x.store i v)
    (hwrites : ∀ j, x'.writes j = x.writes j ++ if i = j then [v] else []) :
    x'.Replayed store where
  last j := by
    rw [hstore, hwrites]
    by_cases hij : i = j
    · subst hij
      rw [Function.update_self, if_pos rfl, List.getLast?_concat, Option.getD_some]
    · rw [Function.update_of_ne (Ne.symm hij), if_neg hij, List.append_nil]
      exact replayed.last j
  assigned j w hmem := by
    rw [hwrites] at hmem
    rcases List.mem_append.mp hmem with hmem | hmem
    · exact replayed.assigned j w hmem
    · by_cases hij : i = j
      · rw [if_pos hij, List.mem_singleton] at hmem
        exact hij ▸ hmem ▸ hvalue
      · rw [if_neg hij] at hmem
        cases hmem

/-! ## 3. Intakes -/

/-- The samples that the intake `p` took, in order. -/
def taken (x : Supply) (p : Nat) : List Sample := (x.trail p).filterMap Intake.Deed.sample?

/-- The intake `p` follows the courses of the samples that it took. -/
structure Follows (name : String) (store : Nat → Variable) (p : Nat) (x : Supply) : Prop where
  course : x.trail p ++ Intake.left (x.intakes p).stance = (x.taken p).flatMap
    (Intake.course (x.intakes p).errand name (store (x.intakes p).target))
  held : ∀ v event, (x.intakes p).stance = .holding v event →
    ∃ value, v = (store (x.intakes p).target).assign value
  stored : ∀ v, Intake.stored? (x.intakes p).stance = some v →
    ((x.trail p).filterMap Intake.Deed.written?).getLast? = some v
  fresh : (x.intakes p).stance = .unmade → x.trail p = [] ∧ (x.intakes p).errand = .fetch
  aimed : ∀ i deed, Happening.done p i deed ∈ x.chronicle → i = (x.intakes p).target

/-- It does not matter whether the intake is told to end. -/
theorem Follows.keep (follows : x.Follows name store p) {dismissed : Bool}
    (hintake : x'.intakes p = { x.intakes p with dismissed }) (htrail : x'.trail p = x.trail p)
    (hdone : ∀ i deed, Happening.done p i deed ∈ x'.chronicle →
      Happening.done p i deed ∈ x.chronicle) : x'.Follows name store p where
  course := by rw [taken, htrail, hintake]; exact follows.course
  held := by rw [hintake]; exact follows.held
  stored := by rw [hintake, htrail]; exact follows.stored
  fresh := by rw [hintake, htrail]; exact follows.fresh
  aimed i deed hmem := by rw [hintake]; exact follows.aimed i deed (hdone i deed hmem)

theorem trail_eq_nil_iff : x.trail p = [] ↔ ∀ i deed, Happening.done p i deed ∉ x.chronicle := by
  unfold trail
  rw [List.filterMap_eq_nil_iff]
  constructor
  · intro h i deed hmem
    have hnone := h _ hmem
    simp [Happening.deed?] at hnone
  · intro h happening hmem
    cases hdeed : happening.deed? p with
    | none => rfl
    | some deed =>
      obtain ⟨i, rfl⟩ := Happening.deed?_eq_some hdeed
      exact absurd hmem (h i deed)

/-- An intake that was just made has done nothing and has nothing left to do. -/
theorem follows_made (hnothing : x.trail p = []) (hstance : (x.intakes p).stance = .waiting ∨
    ∃ finish, (x.intakes p).stance = .finished finish) : x.Follows name store p := by
  have hquiet : Intake.left (x.intakes p).stance = [] ∧
      Intake.stored? (x.intakes p).stance = none ∧
      (∀ v event, (x.intakes p).stance ≠ .holding v event) ∧
      (x.intakes p).stance ≠ .unmade := by
    rcases hstance with h | ⟨finish, h⟩
    · rw [h]
      exact ⟨rfl, rfl, fun _ _ => nofun, nofun⟩
    · rw [h]
      exact ⟨rfl, rfl, fun _ _ => nofun, nofun⟩
  obtain ⟨hleft, hstored, hheld, hmade⟩ := hquiet
  constructor
  · rw [taken, hnothing, hleft]
    rfl
  · exact fun v event h => absurd h (hheld v event)
  · intro v h
    cases hstored.symm.trans h
  · exact fun h => absurd h hmade
  · exact fun i deed hmem => absurd hmem (trail_eq_nil_iff.mp hnothing i deed)

/-- A step of the intake takes the next deed off what is left to do, or takes the next sample. -/
theorem follows_act (follows : x.Follows name store p) (akin : ∀ i, (x.store i).Akin (store i))
    (hname : x.traffic.actor.core.name = name)
    (hturn : (x.intakes p).Turn (x.store (x.intakes p).target) x.traffic.actor.core.name x.meets
      stance deed) : (x.act p (stance, deed)).Follows name store p := by
  have hintake : (x.act p (stance, deed)).intakes p = { x.intakes p with stance } := by
    rw [intakes_act, Function.update_self]
  have htrail : (x.act p (stance, deed)).trail p = x.trail p ++ deed.toList := by
    rw [trail_act, if_pos rfl]
  have hcourse := Intake.course_turn hturn
  rw [hname, Intake.course_akin (akin _)] at hcourse
  refine ⟨?_, fun v event h => ?_, fun v h => ?_, fun h => ?_, fun i done hmem => ?_⟩
  · -- The course of a sample that is taken now is left to do, but for the first deed.
    rw [taken, hintake, htrail, List.filterMap_append, List.flatMap_append, List.append_assoc,
      hcourse, ← List.append_assoc, follows.course]
    rfl
  · rw [hintake] at h ⊢
    rcases Intake.held_turn hturn h with hheld | ⟨value, hvalue⟩
    · exact follows.held v event hheld
    · exact ⟨value, hvalue.trans ((akin _).assign value)⟩
  · rw [hintake] at h
    rw [htrail, List.filterMap_append]
    rcases Intake.stored_turn hturn h with hwrites | ⟨hstored, hquiet⟩
    · cases deed with
      | none => cases hwrites
      | some deed => simp [show deed.written? = some v from hwrites]
    · cases deed with
      | none => simpa using follows.stored v hstored
      | some deed => simpa [show deed.written? = none from hquiet] using follows.stored v hstored
  · rw [hintake] at h
    obtain ⟨hunmade, rfl⟩ := Intake.unmade_turn hturn h
    rw [htrail, hintake]
    exact ⟨(List.append_nil _).trans (follows.fresh hunmade).1, (follows.fresh hunmade).2⟩
  · rw [hintake]
    rw [chronicle_act] at hmem
    rcases List.mem_append.mp hmem with hmem | hmem
    · exact follows.aimed i done hmem
    · rw [Option.mem_toList, Option.map_eq_some_iff] at hmem
      obtain ⟨_, -, heq⟩ := hmem
      cases heq
      rfl

/-! ## 4. What a run keeps -/

/-- A machine of the name `name` whose variables began as `store`. -/
structure Sound (name : String) (store : Nat → Variable) (x : Supply) : Prop where
  called : x.traffic.actor.core.name = name
  replayed : x.Replayed store
  follows : ∀ p, x.Follows name store p

theorem sound_start (config : Config) (name initial : String) (hosted : Bool)
    (store : Nat → Variable) : (start config name initial hosted store).Sound name store where
  called := rfl
  replayed := ⟨fun _ => rfl, fun _ _ h => nomatch h⟩
  follows _ := ⟨rfl, (fun _ _ h => nomatch h), (fun _ h => nomatch h), fun _ => ⟨rfl, rfl⟩,
    fun _ _ h => nomatch h⟩

theorem name_tell (t : Traffic) (event : Event) :
    (t.tell event).actor.core.name = t.actor.core.name := by
  unfold Traffic.tell
  split <;> rfl

theorem traffic_change (hchange : x.Change x') :
    x.traffic.Change x'.traffic ∨ ∃ event, x'.traffic = x.traffic.tell event := by
  cases hchange with
  | act p stance deed hturn =>
    rw [traffic_act]
    match deed with
    | none => exact .inl .nothing
    | some (.took sample) => exact .inl .nothing
    | some (.wrote v) => exact .inl .nothing
    | some (.told event) => exact .inr ⟨event, rfl⟩
    | some (.asked source) => exact .inl (Traffic.change_notify source)
  | traffic t hchange => exact .inl hchange
  | _ => exact .inl .nothing

theorem name_change (hchange : x.Change x') :
    x'.traffic.actor.core.name = x.traffic.actor.core.name := by
  rcases traffic_change hchange with hchange | ⟨event, htold⟩
  · exact Traffic.name_change hchange
  · rw [htold, name_tell]

theorem Sound.replayed_change (sound : x.Sound name store) (hchange : x.Change x') :
    x'.Replayed store := by
  have replayed := sound.replayed
  cases hchange with
  | act p stance deed hturn =>
    have hstore := store_act x p stance deed
    have hwrites := fun i => writes_act x p i stance deed
    cases hwritten : deed.bind Intake.Deed.written? with
    | none =>
      rw [hwritten] at hstore hwrites
      refine replayed.keep hstore (funext fun i => (hwrites i).trans ?_)
      rw [Option.toList_none, ite_self, List.append_nil]
    | some v =>
      rw [hwritten] at hstore hwrites
      -- What is written was read for this variable.
      have hheld : ∃ value, v = (store (x.intakes p).target).assign value := by
        cases hturn with
        | write w event hstance =>
          cases hwritten
          exact (sound.follows p).held _ event hstance
        | _ => cases hwritten
      exact replayed.write hheld hstore hwrites
  | assign i value =>
    refine replayed.write ⟨value, (replayed.akin i).assign value⟩ rfl fun j => ?_
    unfold writes note
    rw [List.filterMap_append]
    by_cases hij : i = j <;> simp [Happening.written?, hij]
  | _ => exact replayed.keep rfl rfl

theorem Sound.follows_change (sound : x.Sound name store) (hchange : x.Change x') (p : Nat) :
    x'.Follows name store p := by
  have follows := sound.follows p
  cases hchange with
  | nothing => exact follows
  | make q errand i fault hunmade =>
    by_cases hq : p = q
    · subst hq
      have hnothing : (x.place p { errand, target := i, stance := Intake.opening fault }).trail p =
          [] := (follows.fresh hunmade).1
      apply follows_made hnothing
      rw [intakes_place]
      exact Intake.opening_eq fault
    · have hsame : (x.place q { errand, target := i, stance := Intake.opening fault }).intakes p =
          x.intakes p := Function.update_of_ne hq ..
      exact follows.keep hsame rfl fun _ _ h => h
  | act q stance deed hturn =>
    by_cases hq : p = q
    · subst hq
      exact follows_act follows sound.replayed.akin sound.called hturn
    · have hsame : (x.act q (stance, deed)).intakes p = x.intakes p := by
        rw [intakes_act, Function.update_of_ne hq]
      refine follows.keep hsame ?_ fun i done hmem => ?_
      · rw [trail_act, if_neg (Ne.symm hq), List.append_nil]
      · rw [chronicle_act] at hmem
        refine (List.mem_append.mp hmem).resolve_right fun h => ?_
        rw [Option.mem_toList, Option.map_eq_some_iff] at h
        obtain ⟨_, -, heq⟩ := h
        cases heq
        exact hq rfl
  | dismiss q dismissed =>
    by_cases hq : p = q
    · subst hq
      have hsame : (x.place p { x.intakes p with dismissed }).intakes p =
          { x.intakes p with dismissed } := Function.update_self ..
      exact follows.keep hsame rfl fun _ _ h => h
    · have hsame : (x.place q { x.intakes q with dismissed }).intakes p = x.intakes p :=
        Function.update_of_ne hq ..
      exact follows.keep hsame rfl fun _ _ h => h
  | assign i value =>
    have hsame : x.intakes p = { x.intakes p with dismissed := (x.intakes p).dismissed } := rfl
    refine follows.keep hsame (trail_note_assigned _ _ _ _) fun j done hmem => ?_
    exact (List.mem_append.mp hmem).resolve_right (by simp)
  | traffic t hchange =>
    exact follows.keep rfl rfl fun _ _ h => h

theorem sound_change (sound : x.Sound name store) (hchange : x.Change x') :
    x'.Sound name store :=
  ⟨(name_change hchange).trans sound.called, sound.replayed_change hchange,
    sound.follows_change hchange⟩

theorem sound_run (config : Config) (name initial : String) (hosted : Bool)
    (store : Nat → Variable) (moves : List Move) :
    ((start config name initial hosted store).run moves).Sound name store :=
  run_induction (P := Sound name store) (fun _ _ => sound_change)
    (sound_start config name initial hosted store) moves

/-! ## 5. The machine -/

theorem served_tell (t : Traffic) (event : Event) : (t.tell event).served = t.served := by
  unfold Traffic.tell
  split <;> rfl

theorem seats_change {slots : Nat} (seats : x.traffic.Seats slots) (hchange : x.Change x') :
    x'.traffic.Seats slots := by
  rcases traffic_change hchange with hchange | ⟨event, htold⟩
  · exact Traffic.seats_change seats hchange
  · rw [htold, Traffic.tell]
    split
    · exact seats.record
    · exact seats

theorem ledger_change {slots : Nat} (seats : x.traffic.Seats slots) (ledger : x.traffic.Ledger)
    (hchange : x.Change x') : x'.traffic.Ledger := by
  rcases traffic_change hchange with hchange | ⟨event, htold⟩
  · exact Traffic.ledger_change seats ledger hchange
  · rw [htold, Traffic.tell]
    split
    · exact ledger.keep rfl rfl rfl rfl rfl rfl id
    · exact ledger

/-- What is told of the variables does not keep the machine from serving in order. -/
theorem ledger_run (config : Config) (name initial : String) (hosted : Bool)
    (store : Nat → Variable) (moves : List Move) :
    let x := (start config name initial hosted store).run moves
    x.traffic.Seats config.mailboxSlots ∧ x.traffic.Ledger :=
  run_induction (P := fun x => x.traffic.Seats config.mailboxSlots ∧ x.traffic.Ledger)
    (fun _ _ h hchange => ⟨seats_change h.1 hchange, ledger_change h.1 h.2 hchange⟩)
    ⟨Traffic.seats_start config name initial hosted,
      Traffic.ledger_start config name initial hosted⟩ moves

end Supply

end Sequencer
