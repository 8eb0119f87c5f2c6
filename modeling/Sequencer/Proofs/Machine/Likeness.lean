import Sequencer.Proofs.Machine.Entries

/-!
# Likeness — machines that differ only in what is over

What a machine does next depends on little of what it went through: on where it is, what it
dispatched last, what its mailbox holds and who still asks for a refresh, and as long as a dispatch
runs, on what that dispatch noted and queued.  Machines that agree on these go on alike, whatever
else is different between them: their logs, what others see of them, how many dispatches they had,
and what was noted and queued by dispatches that are over.
-/

namespace Sequencer

/-! ## 1. Actors -/

/-- Cores that agree on what the next dispatch depends on. -/
structure Core.Alike (core other : Core) : Prop where
  name : core.name = other.name
  current : core.current = other.current
  last : core.lastDispatched = other.lastDispatched
  completed : core.completed = other.completed

namespace Actor

structure Alike (actor other : Actor) : Prop where
  core : actor.core.Alike other.core
  mailbox : actor.mailbox = other.mailbox
  service : actor.service = other.service
  ended : actor.ended = other.ended
  /-- What belongs to the running dispatch. -/
  running : actor.service ≠ none → actor.core.previous = other.core.previous ∧
    actor.core.entered = other.core.entered ∧ actor.core.pending = other.core.pending

/-- Operations that leave actors alike and do the same besides. -/
def Likewise {ρ : Type} (did other : Actor × ρ) : Prop := did.1.Alike other.1 ∧ did.2 = other.2

variable {actor other : Actor}

theorem Alike.notify (alike : actor.Alike other) (source : String) :
    Likewise (actor.notify source) (other.notify source) := by
  unfold Actor.notify
  rw [← alike.mailbox]
  obtain ⟨mailbox, posting⟩ := actor.mailbox.post { source }
  cases posting with
  | entered => exact ⟨{ alike with mailbox := rfl }, rfl⟩
  | full => exact ⟨alike, by simp only [Core.overflowEvent, alike.core.name]⟩
  | closed => exact ⟨alike, by simp only [Core.stopped, alike.core.name]⟩

theorem Alike.request (alike : actor.Alike other) (sender : Nat) (request : Request) :
    Likewise (actor.request sender request) (other.request sender request) := by
  unfold Actor.request
  rw [← alike.mailbox]
  exact ⟨{ alike with mailbox := rfl }, rfl⟩

theorem Alike.abandon (alike : actor.Alike other) (sender : Nat) :
    Likewise (actor.abandon sender) (other.abandon sender) := by
  unfold Actor.abandon
  rw [← alike.mailbox]
  exact ⟨{ alike with mailbox := rfl }, rfl⟩

theorem Alike.startDispatch (alike : actor.Alike other) {core core' : Core}
    (hcore : core.Alike core') (hprevious : core.previous = core'.previous) (chain : Chain)
    (reply : Option Nat) (cancelled : Bool) :
    Likewise (actor.startDispatch core chain reply cancelled)
      (other.startDispatch core' chain reply cancelled) := by
  unfold Actor.startDispatch Chain.start
  cases cancelled with
  | true =>
    have hstopped : core.stopped = core'.stopped := by rw [Core.stopped, Core.stopped, hcore.name]
    refine ⟨⟨hcore, alike.mailbox, rfl, alike.ended, (absurd rfl ·)⟩, ?_⟩
    simp only [if_true, hstopped]
  | false =>
    -- The dispatch notes anew whatever may be different.
    have hbegun : core.beginTick.Alike core'.beginTick :=
      ⟨hcore.name, hcore.current, congrArg some hcore.current, hcore.completed⟩
    have hentered : core.beginTick.entered = core'.beginTick.entered := by
      simp only [Core.beginTick, hcore.last, hcore.current]
    refine ⟨⟨hbegun, alike.mailbox, ?_, alike.ended, fun _ => ⟨hprevious, hentered, rfl⟩⟩, ?_⟩
    · simp only [Bool.false_eq_true, if_false, Core.beginTick, hcore.current]
    · simp only [Bool.false_eq_true, if_false, Core.tickEvent, Core.beginTick, hcore.name,
        hcore.current, hprevious]

theorem Alike.serve (alike : actor.Alike other) (cancelled : Bool) :
    Option.Rel Likewise (actor.serve cancelled) (other.serve cancelled) := by
  unfold Actor.serve
  rw [← alike.mailbox]
  cases actor.mailbox.take with
  | none => exact .none
  | some taken =>
    obtain ⟨request, mailbox, reserved⟩ := taken
    have hbegun : actor.core.beginRefresh.Alike other.core.beginRefresh := { alike.core with }
    have hopened : Alike { actor with mailbox } { other with mailbox } :=
      { alike with mailbox := rfl }
    have hstarts := hopened.startDispatch hbegun (congrArg some alike.core.current)
      { source := request.source } request.reply cancelled
    exact .some ⟨hstarts.1, congrArg
      (fun did => ((reserved.map Effect.reserve).toList ++ did.1, did.2)) hstarts.2⟩

theorem Alike.leave (alike : actor.Alike other) : Likewise actor.leave other.leave := by
  unfold Actor.leave
  rw [← alike.mailbox]
  refine ⟨{ alike with mailbox := rfl, ended := rfl }, ?_⟩
  simp only [Core.stopped, Core.stoppedEvent, alike.core.name, alike.core.current]

theorem Alike.collapse (alike : actor.Alike other) : Likewise actor.collapse other.collapse := by
  unfold Actor.collapse
  rw [← alike.mailbox, ← alike.service]
  exact ⟨⟨alike.core, rfl, rfl, rfl, (absurd rfl ·)⟩, rfl⟩

theorem Alike.turn (alike : actor.Alike other) (cancelled orphaned : Bool) :
    Likewise (actor.turn cancelled orphaned) (other.turn cancelled orphaned) := by
  have hleave : Likewise (actor.leave.1, actor.leave.2, Doing.left)
      (other.leave.1, other.leave.2, Doing.left) :=
    ⟨alike.leave.1, by rw [alike.leave.2]⟩
  have hserve := alike.serve cancelled
  unfold Actor.turn
  cases cancelled with
  | true => exact hleave
  | false =>
    generalize actor.serve false = served, other.serve false = served' at hserve
    cases hserve with
    | some h => exact h
    | none =>
      cases orphaned with
      | true => exact hleave
      | false => exact ⟨alike, rfl⟩

theorem Alike.core_running (alike : actor.Alike other) (h : actor.service ≠ none) :
    other.core = { actor.core with ticks := other.core.ticks } := by
  obtain ⟨hprevious, hentered, hpending⟩ := alike.running h
  obtain ⟨hname, hcurrent, hlast, hcompleted⟩ := alike.core
  dsimp only
  rw [hname, hcurrent, hprevious, hlast, hentered, hpending, hcompleted]

theorem settle_ticks (core : Core) (ticks : Nat) (chain : Chain) (state : String)
    (result : Except Failure Unit) :
    Chain.settle { core with ticks } chain state result =
      { Chain.settle core chain state result with
        core := { (Chain.settle core chain state result).core with ticks } } := by
  obtain ⟨name, current, previous, last, entered, pending, completed, count⟩ := core
  cases result with
  | error failure => rfl
  | ok value =>
    cases completed with
    | true => rfl
    | false =>
      simp only [Chain.settle, if_neg Bool.false_ne_true]
      cases pending ++ chain.work <;> rfl

theorem Alike.settle (alike : actor.Alike other) (result : Except Failure Unit)
    (cancelled : Bool) :
    Likewise (actor.settle result cancelled) (other.settle result cancelled) := by
  unfold Actor.settle
  rw [← alike.service]
  cases hservice : actor.service with
  | none => exact ⟨alike, rfl⟩
  | some service =>
    have hcore := alike.core_running (hservice ▸ Option.some_ne_none service)
    have hafter := settle_ticks actor.core other.core.ticks service.chain service.state result
    rw [← hcore] at hafter
    dsimp only
    rw [hafter]
    generalize Chain.settle actor.core service.chain service.state result = after
    dsimp only
    cases after.next with
    | error final =>
      exact ⟨⟨⟨rfl, rfl, rfl, rfl⟩, alike.mailbox, rfl, alike.ended, (absurd rfl ·)⟩, rfl⟩
    | ok chain =>
      have halike : Alike { actor with seen := actor.core.snapshot, version := actor.version + 1 }
          { other with seen := other.core.snapshot, version := other.version + 1 } :=
        { alike with }
      have hmoved : after.core.Alike { after.core with ticks := other.core.ticks } :=
        ⟨rfl, rfl, rfl, rfl⟩
      have hstarts := halike.startDispatch hmoved rfl chain service.reply cancelled
      exact ⟨hstarts.1, congrArg (fun did => (_ ++ did.1, did.2)) hstarts.2⟩

theorem Alike.perform (alike : actor.Alike other) (h : actor.service ≠ none) (deed : Deed) :
    Alike { actor with core := deed.perform actor.core }
      { other with core := deed.perform other.core } := by
  rw [alike.core_running h]
  refine ⟨?_, alike.mailbox, alike.service, alike.ended, fun _ => ?_⟩
  · cases deed <;> exact ⟨rfl, rfl, rfl, rfl⟩
  · cases deed <;> exact ⟨rfl, rfl, rfl⟩

end Actor

/-! ## 2. Machines among their callers -/

/-- What a call may still ask for. -/
def Phase.intent : Phase → Option (Option String)
  | unmade => some none
  | sending source => some (some source)
  | _ => none

theorem Phase.intent_unmade {phase : Phase} : phase.intent = some none ↔ phase = .unmade := by
  cases phase <;> simp [intent]

theorem Phase.intent_sending {phase : Phase} {source : String} :
    phase.intent = some (some source) ↔ phase = .sending source := by
  cases phase <;> simp [intent]

namespace Traffic

/-- Machines that agree on what they will do, and on who may still ask them for a refresh.  What the
calls that need not ask any more have heard does not count. -/
structure Alike (t u : Traffic) : Prop where
  actor : t.actor.Alike u.actor
  cancelled : t.cancelled = u.cancelled
  intents : ∀ c, (t.calls c).phase.intent = (u.calls c).phase.intent

theorem Alike.refl (t : Traffic) : t.Alike t :=
  ⟨⟨⟨rfl, rfl, rfl, rfl⟩, rfl, rfl, rfl, fun _ => ⟨rfl, rfl, rfl⟩⟩, rfl, fun _ => rfl⟩

/-- Something that the machine does not notice. -/
structure Aside (t t' : Traffic) : Prop where
  actor : t'.actor = t.actor
  cancelled : t'.cancelled = t.cancelled
  intents : ∀ c, (t'.calls c).phase.intent = (t.calls c).phase.intent
  dispatches : t'.dispatches = t.dispatches

/-- Machines that came from `t` and `u` are alike, and had the same dispatches on the way. -/
structure Abreast (t u t' u' : Traffic) : Prop where
  alike : t'.Alike u'
  dispatches : ∃ started,
    t'.dispatches = started ++ t.dispatches ∧ u'.dispatches = started ++ u.dispatches

variable {t u t' u' : Traffic}

theorem Aside.alike (alike : t.Alike u) (aside : t.Aside t') (aside' : u.Aside u') :
    t'.Alike u' where
  actor := by
    rw [aside.actor, aside'.actor]
    exact alike.actor
  cancelled := by rw [aside.cancelled, aside'.cancelled, alike.cancelled]
  intents c := by rw [aside.intents, aside'.intents, alike.intents]

theorem Aside.abreast (alike : t.Alike u) (aside : t.Aside t') (aside' : u.Aside u') :
    Abreast t u t' u' :=
  ⟨aside.alike alike aside', [], aside.dispatches, aside'.dispatches⟩

theorem Abreast.refl (alike : t.Alike u) : Abreast t u t u := ⟨alike, [], rfl, rfl⟩

theorem Abreast.trans {t'' u'' : Traffic} (first : Abreast t u t' u')
    (next : Abreast t' u' t'' u'') : Abreast t u t'' u'' := by
  obtain ⟨before, hbefore, hbefore'⟩ := first.dispatches
  obtain ⟨started, hstarted, hstarted'⟩ := next.dispatches
  refine ⟨next.alike, started ++ before, ?_, ?_⟩
  · rw [hstarted, hbefore, List.append_assoc]
  · rw [hstarted', hbefore', List.append_assoc]

theorem aside_record {o : Occurrence} (h : o.tick? = none) : t.Aside (t.record o) :=
  ⟨rfl, rfl, fun _ => rfl, List.filterMap_cons_none h⟩

theorem aside_place {c : Nat} {phase : Phase} (h : (t.calls c).phase.intent = phase.intent) :
    t.Aside (t.place c phase) where
  actor := rfl
  cancelled := rfl
  intents d := by
    rw [phase_place]
    split
    · next hd => rw [hd, h]
    · rfl
  dispatches := rfl

theorem Alike.place (alike : t.Alike u) (c : Nat) (phase : Phase) :
    (t.place c phase).Alike (u.place c phase) where
  actor := alike.actor
  cancelled := alike.cancelled
  intents d := by
    rw [phase_place, phase_place]
    split
    · rfl
    · exact alike.intents d

theorem Alike.conduct (alike : t.Alike u) {actor other : Actor} (hactor : actor.Alike other)
    {effects effects' : List Effect} (h : effects = effects') :
    Abreast t u (t.conduct actor effects) (u.conduct other effects') where
  alike :=
    { actor := hactor
      cancelled := h ▸ congrArg (· || effects.any Effect.cancels) alike.cancelled
      intents := fun c => by rw [phase_conduct, phase_conduct, alike.intents] }
  dispatches := ⟨[], dispatches_conduct _ _, dispatches_conduct _ _⟩

theorem Alike.follow (alike : t.Alike u) {acted acted' : Actor × List Effect × Doing}
    (h : Actor.Likewise acted acted') : Abreast t u (t.follow acted) (u.follow acted') := by
  obtain ⟨actor, effects, doing⟩ := acted
  obtain ⟨other, effects', doing'⟩ := acted'
  obtain ⟨hactor, hdid⟩ := h
  cases hdid
  have hconducts : Abreast t u (t.conduct actor effects) (u.conduct other effects) :=
    alike.conduct hactor rfl
  cases doing with
  | dispatch =>
    have hservice : other.service = actor.service := hactor.service.symm
    show Abreast t u (t.conduct actor effects).noteDispatch (u.conduct other effects).noteDispatch
    simp only [noteDispatch, Traffic.conduct, hservice]
    cases actor.service with
    | none => exact hconducts
    | some service =>
      exact ⟨⟨hactor, hconducts.alike.cancelled, hconducts.alike.intents⟩, [_],
        congrArg (List.cons _) (dispatches_conduct actor effects),
        congrArg (List.cons _) (dispatches_conduct other effects)⟩
  | served => exact hconducts
  | waiting => exact hconducts
  | left => exact hconducts

/-! ## 3. Steps -/

theorem Alike.notify (alike : t.Alike u) (source : String) :
    Abreast t u (t.notify source).1 (u.notify source).1 := by
  obtain ⟨hactor, hdid⟩ := alike.actor.notify source
  exact alike.conduct hactor (congrArg Prod.fst hdid)

theorem Alike.send (alike : t.Alike u) (c : Nat) (source : String) :
    Abreast t u (t.send c source) (u.send c source) := by
  have hrequests := alike.actor.request c { source, reply := some c }
  unfold Traffic.send
  generalize t.actor.request c { source, reply := some c } = did,
    u.actor.request c { source, reply := some c } = did' at hrequests
  obtain ⟨actor, effects, posting⟩ := did
  obtain ⟨other, effects', posting'⟩ := did'
  obtain ⟨hactor, hdid⟩ := hrequests
  cases hdid
  have hconducts : Abreast t u (t.conduct actor effects) (u.conduct other effects) :=
    alike.conduct hactor rfl
  have hplaces : ∀ phase, Abreast t u ((t.conduct actor effects).place c phase)
      ((u.conduct other effects).place c phase) := fun phase =>
    ⟨hconducts.alike.place c phase, hconducts.dispatches⟩
  cases posting with
  | entered => exact hplaces _
  | full => exact hplaces _
  | closed =>
    have hstopped : u.actor.core.stopped = t.actor.core.stopped := by
      rw [Core.stopped, Core.stopped, alike.actor.core.name]
    have hheard := hplaces (.heard (.error t.actor.core.stopped))
    dsimp only
    rw [hstopped]
    exact hheard.trans ((aside_record rfl).abreast hheard.alike (aside_record rfl))

theorem aside_poll {c : Nat} (h : ∀ source, (t.calls c).phase ≠ .sending source) :
    t.Aside (t.poll c) := by
  have hnothing : t.Aside t := ⟨rfl, rfl, fun _ => rfl, rfl⟩
  -- Only a call that waits for a slot comes to the mailbox as it looks.
  unfold poll
  cases hphase : (t.calls c).phase with
  | sending source => exact absurd hphase (h source)
  | expecting =>
    have hplaces : ∀ phase, phase.intent = none → t.Aside (t.place c phase) := fun phase hnone =>
      aside_place (by rw [hphase, hnone]; rfl)
    cases (t.calls c).reply with
    | awaited => exact hplaces _ rfl
    | answered result => exact { hplaces (.heard result) rfl with }
    | forgotten => exact { hplaces (.heard (.error t.actor.core.stopped)) rfl with }
  | unmade => exact hnothing
  | heard result => exact hnothing
  | dropped => exact hnothing

theorem aside_drop {c : Nat} (h : ∀ source, (t.calls c).phase ≠ .sending source) :
    t.Aside (t.drop c) := by
  have hnothing : t.Aside t := ⟨rfl, rfl, fun _ => rfl, rfl⟩
  unfold drop
  cases hphase : (t.calls c).phase with
  | sending source => exact absurd hphase (h source)
  | expecting => exact aside_place (by rw [hphase]; rfl)
  | unmade => exact hnothing
  | heard result => exact hnothing
  | dropped => exact hnothing

theorem Alike.sending_or (alike : t.Alike u) (c : Nat) :
    (∃ source, (t.calls c).phase = .sending source ∧ (u.calls c).phase = .sending source) ∨
      (∀ source, (t.calls c).phase ≠ .sending source) ∧
        ∀ source, (u.calls c).phase ≠ .sending source := by
  have hiff : ∀ source, (t.calls c).phase = .sending source ↔
      (u.calls c).phase = .sending source := fun source => by
    rw [← Phase.intent_sending, alike.intents c, Phase.intent_sending]
  by_cases h : ∃ source, (t.calls c).phase = .sending source
  · obtain ⟨source, hsource⟩ := h
    exact .inl ⟨source, hsource, (hiff source).mp hsource⟩
  · exact .inr ⟨not_exists.mp h, fun source hsource => h ⟨source, (hiff source).mpr hsource⟩⟩

theorem Alike.poll (alike : t.Alike u) (c : Nat) : Abreast t u (t.poll c) (u.poll c) := by
  rcases alike.sending_or c with ⟨source, hphase, hphase'⟩ | ⟨hnot, hnot'⟩
  · simp only [Traffic.poll, hphase, hphase']
    exact alike.send c source
  · exact (aside_poll hnot).abreast alike (aside_poll hnot')

theorem Alike.drop (alike : t.Alike u) (c : Nat) : Abreast t u (t.drop c) (u.drop c) := by
  rcases alike.sending_or c with ⟨source, hphase, hphase'⟩ | ⟨hnot, hnot'⟩
  · obtain ⟨hactor, hdid⟩ := alike.actor.abandon c
    have hconducts := alike.conduct hactor hdid
    simp only [Traffic.drop, hphase, hphase']
    exact ⟨hconducts.alike.place c .dropped, hconducts.dispatches⟩
  · exact (aside_drop hnot).abreast alike (aside_drop hnot')

theorem aside_noteTaken (t : Traffic) : t.Aside t.noteTaken := by
  unfold noteTaken
  split
  · exact ⟨rfl, rfl, fun _ => rfl, rfl⟩
  · exact aside_record rfl

theorem Alike.turn (alike : t.Alike u) (orphaned : Bool) :
    Abreast t u (t.turn orphaned) (u.turn orphaned) := by
  have htaken := (aside_noteTaken t).abreast alike (aside_noteTaken u)
  have hacts := alike.actor.turn t.cancelled orphaned
  unfold Traffic.turn
  rw [← alike.cancelled]
  generalize t.actor.turn t.cancelled orphaned = acted,
    u.actor.turn t.cancelled orphaned = acted' at hacts
  obtain ⟨actor, effects, doing⟩ := acted
  obtain ⟨other, effects', doing'⟩ := acted'
  obtain rfl : doing = doing' := congrArg Prod.snd hacts.2
  cases doing with
  | dispatch => exact htaken.trans (htaken.alike.follow hacts)
  | served => exact htaken.trans (htaken.alike.follow hacts)
  | waiting => exact alike.follow hacts
  | left => exact alike.follow hacts

theorem Alike.overtake (alike : t.Alike u) : Abreast t u t.overtake u.overtake := by
  have htaken := (aside_noteTaken t).abreast alike (aside_noteTaken u)
  have hserves := alike.actor.serve true
  unfold Traffic.overtake
  generalize t.actor.serve true = served, u.actor.serve true = served' at hserves
  cases hserves with
  | none => exact .refl alike
  | some hacts =>
    have hcut : Abreast t u { t.noteTaken with cancelled := true }
        { u.noteTaken with cancelled := true } :=
      ⟨{ htaken.alike with cancelled := rfl }, htaken.dispatches⟩
    exact hcut.trans (hcut.alike.follow hacts)

theorem Alike.settle (alike : t.Alike u) (service : Service) (result : Except Failure Unit) :
    Abreast t u (t.settle service result) (u.settle service result) := by
  have hreturns : ∀ round round', Abreast t u (t.record (.returned round))
      (u.record (.returned round')) := fun round round' =>
    (aside_record rfl).abreast alike (aside_record rfl)
  have hsettles := alike.actor.settle result t.cancelled
  unfold Traffic.settle
  rw [← alike.cancelled]
  exact (hreturns _ _).trans ((hreturns _ _).alike.follow hsettles)

theorem Alike.call (alike : t.Alike u) (c : Nat) (source : String) :
    Abreast t u (t.step (.call c source)) (u.step (.call c source)) := by
  have hiff : (t.calls c).phase = .unmade ↔ (u.calls c).phase = .unmade := by
    rw [← Phase.intent_unmade, alike.intents c, Phase.intent_unmade]
  simp only [Traffic.step]
  split
  · next h =>
    rw [hiff.mp h]
    exact alike.send c source
  · next h =>
    split
    · next h' => exact absurd (hiff.mpr h') h
    · exact .refl alike

theorem Alike.deed (alike : t.Alike u) (deed : Deed) :
    Abreast t u (t.step (.deed deed)) (u.step (.deed deed)) := by
  have hservice := alike.actor.service
  simp only [Traffic.step]
  split
  · next h =>
    rw [← hservice, h]
    exact .refl alike
  · next service h =>
    split
    · next h' => cases h.symm.trans (hservice.trans h')
    · have hperforms := alike.actor.perform (h ▸ Option.some_ne_none service) deed
      exact ⟨⟨hperforms, alike.cancelled, alike.intents⟩, [], rfl, rfl⟩

/-- Machines that are alike take every step alike, and start the same dispatch by it, if any. -/
theorem Alike.step (alike : t.Alike u) (move : Move) :
    Abreast t u (t.step move) (u.step move) := by
  have hservice := alike.actor.service
  have hidle : u.idle = t.idle := by rw [idle, idle, hservice, alike.actor.ended]
  cases move with
  | notify notice => exact alike.notify notice.source
  | call c source => exact alike.call c source
  | poll c => exact alike.poll c
  | drop c => exact alike.drop c
  | cancel => exact ⟨{ alike with cancelled := rfl }, [], rfl, rfl⟩
  | turn orphaned =>
    simp only [Traffic.step, hidle]
    split
    · exact alike.turn orphaned
    · exact .refl alike
  | overtake =>
    simp only [Traffic.step, hidle, ← alike.cancelled]
    split
    · exact alike.overtake
    · exact .refl alike
  | deed deed => exact alike.deed deed
  | settle result =>
    simp only [Traffic.step, ← hservice]
    cases t.actor.service with
    | none => exact .refl alike
    | some service => exact alike.settle service result
  | panic =>
    simp only [Traffic.step, ← hservice]
    cases t.actor.service with
    | none => exact .refl alike
    | some service => exact alike.conduct alike.actor.collapse.1 alike.actor.collapse.2

/-! ## 4. Runs -/

theorem Abreast.opening (abreast : Abreast t u t' u') (hchange : t.Change t') :
    t.opening t' = u.opening u' := by
  obtain ⟨started, hstarted, hstarted'⟩ := abreast.dispatches
  have halike := abreast.alike.actor
  -- A dispatch that starts is running after the step, and what it noted is the same for both.
  by_cases h : started = []
  · subst h
    rw [opening_same hstarted, opening_same hstarted']
  · have hnew : t'.dispatches ≠ t.dispatches := by simpa [hstarted] using h
    have hnew' : u'.dispatches ≠ u.dispatches := by simpa [hstarted'] using h
    have hruns : t'.actor.service ≠ none := by
      rcases entry_change hchange with ⟨hnone, -⟩ | ⟨service, hsome, -⟩
      · exact absurd hnone hnew
      · rw [hsome]
        exact Option.some_ne_none service
    obtain ⟨hprevious, hentered, -⟩ := halike.running hruns
    have hview : t'.actor.core.view = u'.actor.core.view := by
      rw [Core.view, Core.view, halike.core.name, halike.core.current, hprevious, hentered]
    rw [Traffic.opening, Traffic.opening, if_neg hnew, if_neg hnew', hview]

/-- Machines that are alike have the same dispatches in every run, and their logic sees the same in
them. -/
theorem Alike.run (alike : t.Alike u) (moves : List Move) :
    Abreast t u (t.run moves) (u.run moves) ∧ t.views moves = u.views moves := by
  induction moves generalizing t u with
  | nil => exact ⟨.refl alike, rfl⟩
  | cons move moves ih =>
    have hstep := alike.step move
    obtain ⟨hrun, hviews⟩ := ih hstep.alike
    refine ⟨hstep.trans hrun, ?_⟩
    rw [views, views, hviews, hstep.opening (change_step t move)]

end Traffic

end Sequencer
