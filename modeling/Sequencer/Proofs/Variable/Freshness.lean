import Sequencer.Proofs.Variable.Courses

/-!
# Freshness — a dispatch that is asked for by a value finds that value, or a more recent one

A request for a value enters the mailbox after the value was stored, and what is stored is only ever
written over.  However long the request waits in the mailbox, the dispatch that serves it comes
later still.
-/

namespace Sequencer

namespace Traffic

variable {t t' : Traffic}

/-! ## 1. Requests of the log -/

theorem log_conduct (t : Traffic) (actor : Actor) (effects : List Effect) :
    t.log <:+ (t.conduct actor effects).log := List.suffix_append _ _

theorem log_record (t : Traffic) (o : Occurrence) : t.log <:+ (t.record o).log :=
  List.suffix_cons _ _

theorem log_change (hchange : t.Change t') : t.log <:+ t'.log := by
  cases hchange with
  | serve request queue hidle hcancelled hqueue =>
    exact ((log_record t _).trans (log_conduct _ _ _)).trans (log_record _ _)
  | cut request queue hidle hqueue => exact (log_record t _).trans (log_conduct _ _ _)
  | finish service result final hservice hfinal => exact (log_record t _).trans (log_conduct _ _ _)
  | next service state work hservice hcompleted hwork hcancelled =>
    exact ((log_record t _).trans (log_conduct _ _ _)).trans (log_record _ _)
  | overflow source hopen hfull => exact log_conduct _ _ _
  | post source hopen hroom => exact log_conduct _ _ _
  | enter c source mailbox hphase hsend => exact log_conduct t _ _
  | wait c source mailbox hphase hsend => exact log_conduct t _ _
  | refuse c source mailbox hphase hsend =>
    exact (log_conduct t { t.actor with mailbox } []).trans (List.suffix_cons _ _)
  | hear c result hphase hreply => exact List.suffix_cons _ _
  | giveUp c source hphase => exact log_conduct t _ _
  | leave hidle => exact log_conduct _ _ _
  | collapse service hservice => exact log_conduct _ _ _
  | _ => exact List.suffix_rfl

/-- The request that is taken next is the oldest one that was not taken, and its dispatch has its
source. -/
theorem Ledger.next_served (ledger : t'.Ledger) {request asked : Request} {tick : Tick}
    {earlier : List Request} (hserved : t'.served = { request, running := some tick } :: t.served)
    (hentered : asked :: earlier <:+ t'.entered) (hcount : t.served.length = earlier.length) :
    request = asked ∧ tick.source = asked.source := by
  obtain ⟨unserved, booked, -⟩ := ledger.booked
  obtain ⟨more, hmore⟩ := hentered
  -- Both ends of the list of requests tell which one comes after so many others.
  have hsplit : (unserved.reverse ++ [request]) ++ t.served.map (·.request) =
      (more ++ [asked]) ++ earlier := by
    have hall := booked.entered
    rw [hserved, ← hmore, List.map_cons] at hall
    simpa using hall.symm
  have hlast := (List.append_inj' hsplit (by rw [List.length_map, hcount])).1
  have hrequest : request = asked := by
    have hends := congrArg List.getLast? hlast
    simpa using hends
  have hchain := booked.chains _ (hserved ▸ List.mem_cons_self)
  exact ⟨hrequest, hrequest ▸ hchain.1⟩

end Traffic

namespace Supply

variable {x x' : Supply} {p i : Nat} {v : Variable} {name : String} {store : Nat → Variable}

/-! ## 2. What is written to a variable -/

theorem chronicle_change (hchange : x.Change x') : x.chronicle <+: x'.chronicle := by
  cases hchange with
  | act p stance deed hturn =>
    rw [chronicle_act]
    exact List.prefix_append _ _
  | assign i value => exact List.prefix_append _ _
  | _ => exact List.prefix_rfl

theorem chronicle_run (x : Supply) (moves : List Move) :
    x.chronicle <+: (x.run moves).chronicle :=
  run_induction (P := fun x' => x.chronicle <+: x'.chronicle)
    (fun _ _ h hchange => h.trans (chronicle_change hchange)) List.prefix_rfl moves

theorem log_change (hchange : x.Change x') : x.traffic.log <:+ x'.traffic.log := by
  rcases traffic_change hchange with hchange | ⟨event, htold⟩
  · exact Traffic.log_change hchange
  · rw [htold, Traffic.tell]
    split
    · exact Traffic.log_record _ _
    · exact List.suffix_rfl

theorem log_run (x : Supply) (moves : List Move) : x.traffic.log <:+ (x.run moves).traffic.log :=
  run_induction (P := fun x' => x.traffic.log <:+ x'.traffic.log)
    (fun _ _ h hchange => h.trans (log_change hchange)) List.suffix_rfl moves

/-- The value that an intake stored last stands in the chronicle, before everything that was done
since. -/
theorem Follows.split_stored (follows : x.Follows name store p)
    (h : Intake.stored? (x.intakes p).stance = some v) :
    ∃ earlier since, x.chronicle =
        earlier ++ .done p (x.intakes p).target (.wrote v) :: since ∧
      ∀ i w, .done p i (.wrote w) ∉ since := by
  have hlast := follows.stored v h
  unfold trail at hlast
  rw [List.filterMap_filterMap] at hlast
  obtain ⟨others, hothers⟩ := List.getLast?_eq_some_iff.mp hlast
  -- The last one that wrote something splits the chronicle.
  obtain ⟨earlier, ending, hchronicle, -, hending⟩ := List.filterMap_eq_append_iff.mp hothers
  obtain ⟨between, happening, since, rfl, -, hwrote, hsince⟩ :=
    List.filterMap_eq_cons_iff.mp hending
  obtain ⟨deed, hdeed, hwritten⟩ := Option.bind_eq_some_iff.mp hwrote
  obtain ⟨i, rfl⟩ := Happening.deed?_eq_some hdeed
  cases deed with
  | wrote w =>
    cases hwritten
    have hmem : Happening.done p i (.wrote v) ∈ x.chronicle := by simp [hchronicle]
    rw [← follows.aimed i _ hmem]
    refine ⟨earlier ++ between, since, by simp [hchronicle], fun j u hu => ?_⟩
    have hnone := List.filterMap_eq_nil_iff.mp hsince _ hu
    simp [Happening.deed?, Intake.Deed.written?] at hnone
  | _ => cases hwritten

/-- A variable is what was written to it last, and that is not older than anything that was. -/
theorem Replayed.since (replayed : x.Replayed store) {earlier since : List Happening}
    (hchronicle : x.chronicle = earlier ++ since)
    (h : since.filterMap (Happening.written? i) ≠ []) :
    (since.filterMap (Happening.written? i)).getLast? = some (x.store i) := by
  have hlast := replayed.last i
  rw [writes, hchronicle, List.filterMap_append, List.getLast?_append_of_ne_nil _ h] at hlast
  cases hsome : (since.filterMap (Happening.written? i)).getLast? with
  | none => exact absurd (List.getLast?_eq_none_iff.mp hsome) h
  | some w => rw [hlast, hsome, Option.getD_some]

/-- A step of the variables takes no request out of the mailbox. -/
theorem served_step {move : Move} (h : (x.step move).traffic.served ≠ x.traffic.served) :
    (x.step move).store = x.store := by
  have hact : ∀ q stance deed, (x.act q (stance, deed)).traffic.served = x.traffic.served := by
    intro q stance deed
    rw [traffic_act]
    match deed with
    | none => rfl
    | some (.took sample) => rfl
    | some (.wrote w) => rfl
    | some (.told event) => exact served_tell _ _
    | some (.asked source) => exact Traffic.served_conduct _ _
  cases move with
  | traffic move => rfl
  | look q polled expired cancelFirst => exact absurd (hact q _ _) h
  | proceed q => exact absurd (hact q _ _) h
  | make q errand i fault =>
    simp only [step]
    split <;> rfl
  | dismiss q => rfl
  | assign i value => exact absurd rfl h

end Supply

/-- A fetch or a standing subscription that is about to ask for a refresh has stored its value
before, and from then on the variable holds what was written to it last since that value, the value
itself included.  If the request enters the mailbox, the dispatch that takes it out, after as many
services as there were requests before it, starts with the variable so. -/
theorem dispatch_finds_the_value_it_is_for (config : Config) (name initial : String) (hosted : Bool)
    (store : Nat → Variable) (before after : List Supply.Move) (p : Nat) (v : Variable) :
    let x := (Supply.start config name initial hosted store).run before
    let i := (x.intakes p).target
    let asked := x.step (.proceed p)
    let y := asked.run after
    (x.intakes p).stance = .told v →
    (∃ earlier between later,
      x.chronicle = earlier ++ .done p i (.wrote v) :: between ∧
      (∀ j w, .done p j (.wrote w) ∉ between) ∧
      y.chronicle = x.chronicle ++ later ∧
      ((.done p i (.wrote v) :: between ++ later).filterMap (Happening.written? i)).getLast? =
        some (y.store i) ∧
      (y.store i).value.isSome = true) ∧
    ∀ move request tick,
      asked.traffic.entered = { source := v.key } :: x.traffic.entered →
      y.traffic.served.length = x.traffic.entered.length →
      (y.step move).traffic.served = { request, running := some tick } :: y.traffic.served →
      request = { source := v.key } ∧ tick.source = v.key ∧ (y.step move).store = y.store := by
  intro x i asked y htold
  have sound : x.Sound name store := Supply.sound_run config name initial hosted store before
  have hrun : y = (Supply.start config name initial hosted store).run
      (before ++ .proceed p :: after) := (Supply.run_append _ before (.proceed p :: after)).symm
  have later_sound : y.Sound name store :=
    hrun ▸ Supply.sound_run config name initial hosted store _
  have hheld : Intake.stored? (x.intakes p).stance = some v := by rw [htold]; rfl
  obtain ⟨earlier, between, hchronicle, hlast⟩ := (sound.follows p).split_stored hheld
  obtain ⟨later, hlater⟩ : x.chronicle <+: y.chronicle :=
    Supply.chronicle_run x (.proceed p :: after)
  have hsplit : y.chronicle = earlier ++ (.done p i (.wrote v) :: between ++ later) := by
    rw [← hlater, hchronicle, List.append_assoc]
  refine ⟨⟨earlier, between, later, hchronicle, hlast, hlater.symm, ?_, ?_⟩, ?_⟩
  · apply later_sound.replayed.since hsplit
    simp [Happening.written?, Intake.Deed.written?]
  · -- Whatever was written last is a value.
    have hwritten : y.store i ∈ y.writes i := by
      have hmem : Happening.done p i (.wrote v) ∈ y.chronicle := by simp [hsplit]
      have hnil : y.writes i ≠ [] := List.ne_nil_of_mem
        (List.mem_filterMap.mpr ⟨_, hmem, if_pos rfl⟩)
      have hwhole : y.chronicle = [] ++ y.chronicle := rfl
      have hsome := later_sound.replayed.since hwhole hnil
      exact List.mem_of_getLast? hsome
    obtain ⟨value, hvalue⟩ := later_sound.replayed.assigned i _ hwritten
    rw [hvalue]
    rfl
  · intro move request tick hentered hcount hserved
    have ledger : (y.step move).traffic.Ledger := by
      have hafter := Supply.ledger_run config name initial hosted store
        ((before ++ .proceed p :: after) ++ [move])
      rw [Supply.run_append, ← hrun] at hafter
      exact hafter.2
    have hgrown : { source := v.key } :: x.traffic.entered <:+ (y.step move).traffic.entered := by
      have hlog := (Supply.log_run asked after).trans (Supply.log_run y [move])
      rw [← hentered]
      exact hlog.filterMap _
    obtain ⟨hrequest, hsource⟩ := ledger.next_served hserved hgrown hcount
    refine ⟨hrequest, hsource, Supply.served_step ?_⟩
    rw [hserved]
    exact List.cons_ne_self _ _

/-- A fetch asks for a refresh behind a request of somebody else, and its variable is assigned
before its turn comes. -/
theorem dispatch_finds_the_value_it_is_for_later :
    let x := (Supply.start {} "m" "A" true fun _ => { key := "k", shape := .bool }).run
      [.make 0 .fetch 0 none, .traffic (.notify (.trigger "other")),
        .look 0 (.sample { key := "k", value := .bool false } (.feed [] .close)) none true,
        .proceed 0, .proceed 0]
    let y := (x.step (.proceed 0)).run
      [.assign 0 (.bool true), .traffic (.turn false), .traffic (.settle (.ok ()))]
    (y.step (.traffic (.turn false))).traffic.served.head? = some
      { request := { source := "k" }, running := some { state := "A", source := "k" } } ∧
    (y.step (.traffic (.turn false))).store 0 =
      { key := "k", shape := .bool, value := some (.bool true) } := by
  intro x y
  obtain ⟨-, hserves⟩ :=
    dispatch_finds_the_value_it_is_for {} "m" "A" true (fun _ => { key := "k", shape := .bool })
      [.make 0 .fetch 0 none, .traffic (.notify (.trigger "other")),
        .look 0 (.sample { key := "k", value := .bool false } (.feed [] .close)) none true,
        .proceed 0, .proceed 0]
      [.assign 0 (.bool true), .traffic (.turn false), .traffic (.settle (.ok ()))] 0
      { key := "k", shape := .bool, value := some (.bool false) } rfl
  obtain ⟨-, -, hstore⟩ := hserves (.traffic (.turn false)) { source := "k" }
    { state := "A", source := "k" } rfl rfl rfl
  have hassigned : y.store 0 = { key := "k", shape := .bool, value := some (.bool true) } := by rfl
  exact ⟨by rfl, by rw [hstore, hassigned]⟩

end Sequencer
