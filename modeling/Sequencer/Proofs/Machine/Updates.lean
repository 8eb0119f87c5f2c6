import Sequencer.Proofs.Machine.Closing

/-!
# Updates — the values that the variables of a machine take, and the dispatches that find them

A variable that takes a value stores it first and asks for a refresh then.  The request may be
dropped, but only by a mailbox all of whose slots are used: whoever has a slot is served later, by a
dispatch that finds the value or a more recent one.
-/

namespace Sequencer

/-! ## 1. A machine with its variables -/

/-- What is told of the variables of a machine, in order. -/
inductive Episode where
  /-- The variable `i` took a value, in a fetch or under a monitor, and is `v` now. -/
  | took (i : Nat) (v : Variable)
  | assigned (i : Nat) (v : Variable)
  /-- A dispatch starts, and finds the variables so. -/
  | began (tick : Tick) (found : Nat → Variable)

namespace Episode

/-- What it makes of the variable `i`. -/
def written? (i : Nat) : Episode → Option Variable
  | took j v => if j = i then some v else none
  | assigned j v => if j = i then some v else none
  | began _ _ => none

def tick? : Episode → Option Tick
  | began tick _ => some tick
  | _ => none

end Episode

/-- A machine among its callers, with its variables. -/
structure Plant where
  traffic : Traffic
  store : Nat → Variable
  /-- The values that were stored and for which a refresh is still to be asked: their places in the
  history. -/
  due : List (Nat × Variable) := []
  /-- What happened to the variables, in order. -/
  history : List Episode := []

namespace Plant

def start (config : Config) (name initial : String) (hosted : Bool)
    (store : Nat → Variable) : Plant :=
  { traffic := Traffic.start config name initial hosted, store }

/-- The machine and its callers go on to `t`. -/
def advance (x : Plant) (t : Traffic) : Plant :=
  let started := t.dispatches.take (t.dispatches.length - x.traffic.dispatches.length)
  { x with
    traffic := t
    history := x.history ++ started.reverse.map (Episode.began · x.store) }

def tell (x : Plant) (event : Event) : Plant :=
  if x.traffic.hosted then { x with traffic := x.traffic.record (.published event) } else x

/-- The variable `i` becomes `v`, and requests fall due. -/
def write (x : Plant) (i : Nat) (v : Variable) (episode : Episode) (due : List (Nat × Variable)) :
    Plant :=
  { x with
    store := Function.update x.store i v
    due := x.due ++ due
    history := x.history ++ [episode] }

/-- The refresh for the value at the place `n` is asked for. -/
def ask (x : Plant) (n : Nat) : Plant :=
  match x.due.find? (·.1 = n) with
  | none => x
  | some (_, v) =>
    { x.advance (x.traffic.step (.notify (.update v))) with due := x.due.filter (·.1 ≠ n) }

/-- The variable `i` takes a value: it is stored, then told, and a refresh is to be asked for. -/
def take (x : Plant) (i : Nat) (v : Variable) (event : Event) (prompt : Bool) : Plant :=
  let taken := (x.write i v (.took i v) [(x.history.length, v)]).tell event
  if prompt then taken.ask x.history.length else taken

/-- A step of the machine, of a caller or of a variable.  A variable that takes a value is `prompt`
if nothing happens before it asks for the refresh. -/
inductive Move where
  | fetch (i : Nat) (polled : Polled) (expired : Option Duration) (prompt : Bool)
  | monitor (i : Nat) (stopped cancelFirst : Bool) (polled : Polled) (prompt : Bool)
  | ask (n : Nat)
  | assign (i : Nat) (value : Value)
  | traffic (move : Traffic.Move)

def Move.isPrompt : Move → Bool
  | fetch _ _ _ prompt => prompt
  | monitor _ _ _ _ prompt => prompt
  | _ => true

def step (x : Plant) : Move → Plant
  | .fetch i polled expired prompt =>
    match (x.store i).fetch x.traffic.actor.core.name polled expired with
    | .stored _ v event => x.take i v event prompt
    | _ => x
  | .monitor i stopped cancelFirst polled prompt =>
    match (x.store i).monitor x.traffic.actor.core.name (x.traffic.cancelled || stopped)
        cancelFirst polled with
    | .stored v event _ => x.take i v event prompt
    | .rejected event _ => x.tell event
    | _ => x
  | .ask n => x.ask n
  | .assign i value =>
    x.write i ((x.store i).assign value) (.assigned i ((x.store i).assign value)) []
  | .traffic move => x.advance (x.traffic.step move)

def run (x : Plant) (moves : List Move) : Plant := moves.foldl step x

end Plant

namespace Traffic

/-! ## 2. Slots in use -/

variable {t t' : Traffic} {slots : Nat}

/-- A slot of the mailbox is used or reserved, so that a dispatch will come; or the machine is gone,
or a call was dropped and perhaps gave its slot back. -/
def Attentive (t : Traffic) : Prop :=
  0 < t.actor.mailbox.taken ∨ t.cancelled = true ∨ t.actor.ended = true ∨
    ∃ c, (t.calls c).phase = .dropped

/-- A request that does not wait leaves a slot in use, whether it enters or not. -/
theorem attentive_notify (seats : t.Seats slots) (hslots : 0 < slots) (source : String) :
    (t.notify source).1.Attentive := by
  rcases notify_cases seats source with ⟨-, -, hqueue, -⟩ | ⟨hfull, -, hactor, -⟩ | ⟨hclosed, hsame⟩
  · left
    unfold Mailbox.taken
    rw [hqueue, List.length_append, List.length_singleton]
    omega
  · left
    rw [hactor, hfull]
    exact hslots
  · right
    right
    left
    rw [hsame]
    exact seats.closed.symm.trans hclosed

theorem ended_change (hchange : t.Change t') (h : t.actor.ended = true) :
    t'.actor.ended = true := by
  cases hchange <;> first | exact h | rfl

theorem dropped_place {u : Traffic} {c d : Nat} (phase : Phase)
    (hsame : (u.calls c).phase = (t.calls c).phase) (h : (t.calls c).phase = .dropped)
    (hother : (t.calls d).phase ≠ .dropped) : ((u.place d phase).calls c).phase = .dropped := by
  have hne : c ≠ d := by
    intro hcd
    rw [← hcd] at hother
    exact hother h
  rw [phase_place, if_neg hne, hsame, h]

/-- A call that was dropped makes no step any more. -/
theorem dropped_change (hchange : t.Change t') {c : Nat} (h : (t.calls c).phase = .dropped) :
    (t'.calls c).phase = .dropped := by
  have hasking : ∀ {d : Nat} {source : String},
      (t.calls d).phase = .unmade ∨ (t.calls d).phase = .sending source →
        (t.calls d).phase ≠ .dropped := by
    intro d source hphase
    cases hphase with
    | inl hphase => rw [hphase]; exact nofun
    | inr hphase => rw [hphase]; exact nofun
  cases hchange with
  | enter d source mailbox hphase hsend =>
    exact dropped_place _ (phase_conduct _ _ _ _) h (hasking hphase)
  | wait d source mailbox hphase hsend =>
    exact dropped_place _ (phase_conduct _ _ _ _) h (hasking hphase)
  | refuse d source mailbox hphase hsend =>
    exact dropped_place _ (phase_conduct _ _ _ _) h (hasking hphase)
  | look d hphase hreply => exact dropped_place _ rfl h (by rw [hphase]; exact nofun)
  | hear d result hphase hreply => exact dropped_place _ rfl h (by rw [hphase]; exact nofun)
  | giveUp d source hphase =>
    exact dropped_place _ (phase_conduct _ _ _ _) h (hasking (.inr hphase))
  | forgo d hphase => exact dropped_place _ rfl h (by rw [hphase]; exact nofun)
  | _ => first | exact h | simpa [record] using h

theorem taken_send_full {mailbox mailbox' : Mailbox Request} {sender : Nat} {request : Request}
    (h : mailbox.send sender request = (mailbox', .full)) : mailbox'.taken = mailbox.taken := by
  unfold Mailbox.send at h
  split at h
  · cases h
  · split at h
    · cases h
    · split at h
      · cases h
        rfl
      · split at h
        · cases h
        · cases h
          rfl

/-- A slot in use stays in use until a dispatch starts. -/
theorem attentive_change (seats : t.Seats slots) (hchange : t.Change t') (h : t.Attentive) :
    t'.Attentive ∨ t.dispatches.length < t'.dispatches.length := by
  rcases h with hused | hcancelled | hended | ⟨c, hdropped⟩
  · cases hchange with
    | post source hopen hroom =>
      left; left
      show 0 < (t.actor.mailbox.queue ++ [_]).length + _
      rw [List.length_append, List.length_singleton]
      omega
    | enter c source mailbox hphase hsend =>
      left; left
      obtain ⟨-, -, -, hqueue⟩ := Mailbox.send_cases hsend
      show 0 < mailbox.queue.length + _
      rw [hqueue, if_pos rfl, List.length_append, List.length_singleton]
      omega
    | wait c source mailbox hphase hsend =>
      left; left
      exact (taken_send_full hsend).symm ▸ hused
    | refuse c source mailbox hphase hsend =>
      left; right; right; left
      obtain ⟨-, -, hposting, -⟩ := Mailbox.send_cases hsend
      exact seats.closed.symm.trans (hposting.mp rfl)
    | giveUp c source hphase =>
      left; right; right; right
      exact ⟨c, (phase_place _).trans (if_pos rfl)⟩
    | cut request queue hidle hqueue => exact .inl (.inr (.inl rfl))
    | serve request queue hidle hcancelled hqueue =>
      right
      rw [dispatches_dispatched, dispatches_conduct, List.length_cons]
      exact Nat.lt_succ_self _
    | next service state work hservice hcompleted hwork hcancelled =>
      right
      rw [dispatches_dispatched, dispatches_conduct, List.length_cons]
      exact Nat.lt_succ_self _
    | leave hidle => exact .inl (.inr (.inr (.inl rfl)))
    | collapse service hservice => exact .inl (.inr (.inr (.inl rfl)))
    | _ => exact .inl (.inl hused)
  · exact .inl (.inr (.inl (cancelled_change hchange hcancelled)))
  · exact .inl (.inr (.inr (.inl (ended_change hchange hended))))
  · exact .inl (.inr (.inr (.inr ⟨c, dropped_change hchange hdropped⟩)))

end Traffic

/-! ## 3. Values that a dispatch finds -/

/-- A dispatch that started after the place `n` of the history found the variable `i` as it was
written there, or later. -/
def Heeded (history : List Episode) (n i : Nat) : Prop :=
  ∃ k m tick found episode, n ≤ k ∧ k < m ∧ history[k]? = some episode ∧
    episode.written? i = some (found i) ∧ history[m]? = some (.began tick found)

/-- What is written at a place of the history is there, or has been written over. -/
def Kept (history : List Episode) (store : Nat → Variable) : Prop :=
  ∀ (n i : Nat) (episode : Episode) (v : Variable), history[n]? = some episode →
    episode.written? i = some v →
      ∃ k later, n ≤ k ∧ history[k]? = some later ∧ later.written? i = some (store i)

variable {history : List Episode} {store : Nat → Variable}

theorem getElem?_grow {n : Nat} {episode : Episode} (more : List Episode)
    (h : history[n]? = some episode) : (history ++ more)[n]? = some episode := by
  have hlt : n < history.length := (List.getElem?_eq_some_iff.mp h).1
  rw [List.getElem?_append_left hlt, h]

theorem Heeded.grow {n i : Nat} (h : Heeded history n i) (more : List Episode) :
    Heeded (history ++ more) n i := by
  obtain ⟨k, m, tick, found, episode, hnk, hkm, hk, hwritten, hm⟩ := h
  exact ⟨k, m, tick, found, episode, hnk, hkm, getElem?_grow more hk, hwritten,
    getElem?_grow more hm⟩

theorem Kept.begin (kept : Kept history store) (started : List Tick) :
    Kept (history ++ started.map (Episode.began · store)) store := by
  intro n i episode v hn hwritten
  by_cases hlt : n < history.length
  · rw [List.getElem?_append_left hlt] at hn
    obtain ⟨k, later, hnk, hk, hlater⟩ := kept n i episode v hn hwritten
    exact ⟨k, later, hnk, getElem?_grow _ hk, hlater⟩
  · -- A dispatch that starts writes nothing.
    rw [List.getElem?_append_right (by omega), List.getElem?_map] at hn
    obtain ⟨tick, -, rfl⟩ := Option.map_eq_some_iff.mp hn
    cases hwritten

theorem Kept.write (kept : Kept history store) (i : Nat) (v : Variable) {episode : Episode}
    (hepisode : ∀ j, episode.written? j = if i = j then some v else none) :
    Kept (history ++ [episode]) (Function.update store i v) := by
  have hlast : (history ++ [episode])[history.length]? = some episode := by simp
  intro n j other w hn hwritten
  by_cases hij : i = j
  · -- The latest one is the one that was written last.
    have hle : n ≤ history.length := by
      have hlt := (List.getElem?_eq_some_iff.mp hn).1
      rw [List.length_append, List.length_singleton] at hlt
      omega
    refine ⟨history.length, episode, hle, hlast, ?_⟩
    rw [hepisode, if_pos hij, hij, Function.update_self]
  · rw [Function.update_of_ne (Ne.symm hij)]
    by_cases hlt : n < history.length
    · rw [List.getElem?_append_left hlt] at hn
      obtain ⟨k, later, hnk, hk, hlater⟩ := kept n j other w hn hwritten
      exact ⟨k, later, hnk, getElem?_grow _ hk, hlater⟩
    · have hle : n = history.length := by
        have hlt := (List.getElem?_eq_some_iff.mp hn).1
        rw [List.length_append, List.length_singleton] at hlt
        omega
      rw [hle, hlast] at hn
      cases hn
      rw [hepisode, if_neg hij] at hwritten
      cases hwritten

/-- A dispatch that starts finds every variable as it was written last. -/
theorem Kept.heeded (kept : Kept history store) {n i : Nat} {episode : Episode} {v : Variable}
    (hn : history[n]? = some episode) (hwritten : episode.written? i = some v)
    {started : List Tick} (hstarted : started ≠ []) :
    Heeded (history ++ started.map (Episode.began · store)) n i := by
  obtain ⟨k, later, hnk, hk, hlater⟩ := kept n i episode v hn hwritten
  have hlt : k < history.length := (List.getElem?_eq_some_iff.mp hk).1
  cases started with
  | nil => exact absurd rfl hstarted
  | cons tick others =>
    refine ⟨k, history.length, tick, store, later, hnk, hlt, getElem?_grow _ hk, hlater, ?_⟩
    rw [List.getElem?_append_right (Nat.le_refl _), Nat.sub_self]
    rfl

namespace Plant

variable {x : Plant} {slots : Nat}

/-! ## 4. What a run keeps -/

/-- A value that was taken has been found by a dispatch, or one is still to come for it. -/
structure Tended (x : Plant) : Prop where
  told : x.history.filterMap Episode.tick? = x.traffic.dispatches.reverse
  kept : Kept x.history x.store
  asked : ∀ n i v, x.history[n]? = some (.took i v) →
    (∃ w, (n, w) ∈ x.due) ∨ Heeded x.history n i ∨ x.traffic.Attentive

theorem tended_start (config : Config) (name initial : String) (hosted : Bool)
    (store : Nat → Variable) : (start config name initial hosted store).Tended where
  told := rfl
  kept n i episode v h := by cases h
  asked n i v h := by cases h

/-- What started is told at the end of the history. -/
theorem advance_eq {t : Traffic} {started : List Tick}
    (h : t.dispatches = started ++ x.traffic.dispatches) :
    x.advance t = { x with
      traffic := t
      history := x.history ++ started.reverse.map (Episode.began · x.store) } := by
  have hstarted : t.dispatches.take (t.dispatches.length - x.traffic.dispatches.length) =
      started := by
    rw [h, List.length_append, Nat.add_sub_cancel, List.take_left]
  unfold advance
  rw [hstarted]

theorem filterMap_began (started : List Tick) (store : Nat → Variable) :
    (started.map (Episode.began · store)).filterMap Episode.tick? = started := by
  rw [List.filterMap_map]
  exact List.filterMap_some

theorem tended_advance (tended : x.Tended) (seats : x.traffic.Seats slots) {t : Traffic}
    (hchange : x.traffic.Change t) : (x.advance t).Tended := by
  obtain ⟨started, hstarted⟩ := Traffic.dispatches_grow hchange
  rw [advance_eq hstarted]
  refine ⟨?_, tended.kept.begin _, fun n i v hn => ?_⟩
  · show (x.history ++ _).filterMap _ = t.dispatches.reverse
    rw [List.filterMap_append, filterMap_began, tended.told, hstarted, List.reverse_append]
  · by_cases hnone : started = []
    · -- Without a dispatch the slot stays in use.
      subst hnone
      have hsame : x.history ++ ([] : List Tick).reverse.map (Episode.began · x.store) =
          x.history := List.append_nil _
      rw [hsame] at hn ⊢
      rcases tended.asked n i v hn with hdue | hheeded | hattentive
      · exact .inl hdue
      · exact .inr (.inl hheeded)
      · rcases Traffic.attentive_change seats hchange hattentive with hattentive | hmore
        · exact .inr (.inr hattentive)
        · rw [hstarted, List.nil_append] at hmore
          exact absurd hmore (Nat.lt_irrefl _)
    · -- The dispatch finds every value that was stored before it.
      right
      left
      by_cases hlt : n < x.history.length
      · rw [List.getElem?_append_left hlt] at hn
        exact tended.kept.heeded hn (if_pos rfl) (List.reverse_ne_nil_iff.mpr hnone)
      · rw [List.getElem?_append_right (by omega), List.getElem?_map] at hn
        obtain ⟨tick, -, hbegan⟩ := Option.map_eq_some_iff.mp hn
        cases hbegan

/-- A step of the variables alone keeps what is stored, and what falls due is not lost. -/
theorem Tended.write (tended : x.Tended) (i : Nat) (v : Variable) {episode : Episode}
    (due : List (Nat × Variable))
    (hepisode : ∀ j, episode.written? j = if i = j then some v else none)
    (hquiet : episode.tick? = none)
    (hdue : ∀ j w, episode = .took j w → (x.history.length, w) ∈ due) :
    (x.write i v episode due).Tended := by
  refine ⟨?_, tended.kept.write i v hepisode, fun n j w hn => ?_⟩
  · show (x.history ++ [episode]).filterMap _ = _
    rw [List.filterMap_append, List.filterMap_cons_none hquiet, List.filterMap_nil,
      List.append_nil]
    exact tended.told
  · by_cases hlt : n < x.history.length
    · replace hn : (x.history ++ [episode])[n]? = some (.took j w) := hn
      rw [List.getElem?_append_left hlt] at hn
      rcases tended.asked n j w hn with ⟨other, hother⟩ | hheeded | hattentive
      · exact .inl ⟨other, List.mem_append_left _ hother⟩
      · exact .inr (.inl (hheeded.grow _))
      · exact .inr (.inr hattentive)
    · have hbound := (List.getElem?_eq_some_iff.mp hn).1
      have hlast : n = x.history.length := by
        replace hbound : n < (x.history ++ [episode]).length := hbound
        rw [List.length_append, List.length_singleton] at hbound
        omega
      subst hlast
      have htook : episode = .took j w := by
        replace hn : (x.history ++ [episode])[x.history.length]? = some (.took j w) := hn
        simpa using hn
      exact .inl ⟨w, List.mem_append_right _ (hdue j w htook)⟩

theorem tended_tell (tended : x.Tended) (event : Event) : (x.tell event).Tended := by
  unfold tell
  split
  · exact ⟨tended.told, tended.kept, tended.asked⟩
  · exact tended

theorem seats_tell (seats : x.traffic.Seats slots) (event : Event) :
    (x.tell event).traffic.Seats slots := by
  unfold tell
  split
  · exact seats.record
  · exact seats

/-- Whatever becomes of the request, it leaves a slot in use. -/
theorem tended_ask (tended : x.Tended) (seats : x.traffic.Seats slots) (hslots : 0 < slots)
    (n : Nat) : (x.ask n).Tended := by
  unfold ask
  split
  · exact tended
  · next place v hfind =>
    have hadvanced := tended_advance tended seats
      (Traffic.change_step x.traffic (.notify (.update v)))
    refine ⟨hadvanced.told, hadvanced.kept, fun m i w hm => ?_⟩
    exact .inr (.inr (Traffic.attentive_notify seats hslots _))

theorem seats_ask (seats : x.traffic.Seats slots) (n : Nat) : (x.ask n).traffic.Seats slots := by
  unfold ask
  split
  · exact seats
  · next place v hfind =>
    exact Traffic.seats_change seats (Traffic.change_step x.traffic (.notify (.update v)))

theorem kept_take (tended : x.Tended) (seats : x.traffic.Seats slots) (hslots : 0 < slots) (i : Nat)
    (v : Variable) (event : Event) (prompt : Bool) :
    (x.take i v event prompt).Tended ∧ (x.take i v event prompt).traffic.Seats slots := by
  have hwritten : (x.write i v (.took i v) [(x.history.length, v)]).Tended := by
    apply tended.write i v _ (fun j => rfl) rfl
    intro j w h
    cases h
    exact List.mem_singleton_self _
  have htold := tended_tell hwritten event
  have hseats : ((x.write i v (.took i v) [(x.history.length, v)]).tell event).traffic.Seats
    slots := seats_tell (x := x.write i v (.took i v) [(x.history.length, v)]) seats event
  unfold take
  cases prompt with
  | false => exact ⟨htold, hseats⟩
  | true => exact ⟨tended_ask htold hseats hslots _, seats_ask hseats _⟩

theorem kept_step (tended : x.Tended) (seats : x.traffic.Seats slots) (hslots : 0 < slots)
    (move : Move) : (x.step move).Tended ∧ (x.step move).traffic.Seats slots := by
  cases move with
  | fetch i polled expired prompt =>
    simp only [step]
    split
    · exact kept_take tended seats hslots _ _ _ _
    · exact ⟨tended, seats⟩
  | monitor i stopped cancelFirst polled prompt =>
    simp only [step]
    split
    · exact kept_take tended seats hslots _ _ _ _
    · exact ⟨tended_tell tended _, seats_tell seats _⟩
    · exact ⟨tended, seats⟩
  | ask n => exact ⟨tended_ask tended seats hslots n, seats_ask seats n⟩
  | assign i value =>
    exact ⟨tended.write i _ [] (fun j => rfl) rfl (fun j w h => by cases h), seats⟩
  | traffic move =>
    have hchange := Traffic.change_step x.traffic move
    exact ⟨tended_advance tended seats hchange, Traffic.seats_change seats hchange⟩

theorem kept_run (tended : x.Tended) (seats : x.traffic.Seats slots) (hslots : 0 < slots)
    (moves : List Move) : (x.run moves).Tended ∧ (x.run moves).traffic.Seats slots := by
  induction moves generalizing x with
  | nil => exact ⟨tended, seats⟩
  | cons move moves ih =>
    have hstep := kept_step tended seats hslots move
    exact ih hstep.1 hstep.2

/-! ## 5. Prompt requests -/

theorem due_tell (x : Plant) (event : Event) : (x.tell event).due = x.due := by
  unfold tell
  split <;> rfl

theorem due_take (hdue : x.due = []) (i : Nat) (v : Variable) (event : Event) :
    (x.take i v event true).due = [] := by
  unfold take ask
  rw [if_pos rfl, due_tell]
  simp [write, hdue]

theorem due_run (hdue : x.due = []) {moves : List Move}
    (hprompt : ∀ move ∈ moves, move.isPrompt = true) : (x.run moves).due = [] := by
  induction moves generalizing x with
  | nil => exact hdue
  | cons move moves ih =>
    refine ih ?_ fun m hm => hprompt m (List.mem_cons_of_mem _ hm)
    have hmove := hprompt move List.mem_cons_self
    cases move with
    | fetch i polled expired prompt =>
      cases hmove
      simp only [step]
      split
      · exact due_take hdue _ _ _
      · exact hdue
    | monitor i stopped cancelFirst polled prompt =>
      cases hmove
      simp only [step]
      split
      · exact due_take hdue _ _ _
      · exact (due_tell x _).trans hdue
      · exact hdue
    | ask n =>
      simp only [step, ask, hdue, List.find?_nil]
    | assign i value => exact (List.append_nil _).trans hdue
    | traffic move => exact hdue

end Plant

/-- Whatever happens to a machine and its variables in whatever order, a value that a variable took
in a fetch or under a monitor is not lost, as long as nobody drops a call of a refresh.  When the
machine waits on an empty mailbox, and no call waits for a slot, some dispatch started after the
value was stored and found it, or a more recent one; only a value for which the refresh was not
asked yet may still wait for its dispatch, and there is none if every request is made at once. -/
theorem no_update_lost (config : Config) (name initial : String) (hosted : Bool)
    (store : Nat → Variable) (moves : List Plant.Move) :
    let x := (Plant.start config name initial hosted store).run moves
    x.history.filterMap Episode.tick? = x.traffic.dispatches.reverse ∧
    ((∀ move ∈ moves, move.isPrompt = true) → x.due = []) ∧
    (x.traffic.cancelled = false → x.traffic.idle = true → x.traffic.actor.mailbox.queue = [] →
      (∀ c source, (x.traffic.calls c).phase ≠ .sending source) →
      (∀ c, (x.traffic.calls c).phase ≠ .dropped) →
      ∀ n i v, x.history[n]? = some (.took i v) →
        (∃ w, (n, w) ∈ x.due) ∨ Heeded x.history n i) := by
  intro x
  have hslots : 0 < config.mailboxSlots := Nat.le_max_right _ _
  obtain ⟨tended, seats⟩ : x.Tended ∧ x.traffic.Seats config.mailboxSlots :=
    Plant.kept_run (Plant.tended_start config name initial hosted store)
      (Traffic.seats_start config name initial hosted) hslots moves
  refine ⟨tended.told, Plant.due_run rfl, ?_⟩
  intro hcancelled hidle hqueue hsending hdropped n i v hn
  rcases tended.asked n i v hn with hdue | hheeded | hattentive
  · exact .inl hdue
  · exact .inr hheeded
  · -- A slot is in use by a request or by a call that waits for it, and here is neither.
    exfalso
    rcases hattentive with hused | hgone | hended | ⟨c, hc⟩
    · have hgranted : x.traffic.actor.mailbox.granted = [] := by
        apply List.eq_nil_iff_forall_not_mem.mpr
        intro c hc
        obtain ⟨source, hphase⟩ := seats.sending c (.inl hc)
        exact hsending c source hphase
      rw [Mailbox.taken, hqueue, hgranted] at hused
      exact Nat.lt_irrefl 0 hused
    · cases hcancelled.symm.trans hgone
    · cases (Traffic.idle_iff.mp hidle).1.symm.trans hended
    · exact hdropped c hc

/-- Two values for a mailbox with one slot: the request for the second one is dropped. -/
theorem no_update_lost_overflow :
    let x := (Plant.start { mailboxCapacity := 1 } "m" "A" true
        fun _ => { key := "k", shape := .bool }).run
      [.fetch 0 (.sample { key := "k", value := .bool false } (.feed [] .close)) none true,
        .monitor 0 false false (.sample { key := "k", value := .bool true } (.feed [] .close)) true,
        .traffic (.turn false), .traffic (.settle (.ok ()))]
    .published { kind := .mailboxOverflow, name := some "m", source := some "k" } ∈ x.traffic.log ∧
      Heeded x.history 1 0 := by
  intro x
  obtain ⟨-, hprompt, hheeded⟩ := no_update_lost { mailboxCapacity := 1 } "m" "A" true
    (fun _ => { key := "k", shape := .bool })
    [.fetch 0 (.sample { key := "k", value := .bool false } (.feed [] .close)) none true,
      .monitor 0 false false (.sample { key := "k", value := .bool true } (.feed [] .close)) true,
      .traffic (.turn false), .traffic (.settle (.ok ()))]
  constructor
  · exact List.mem_of_getElem? (i := 4) rfl
  · have hsettled := hheeded rfl rfl rfl (fun c source => nofun) (fun c => nofun) 1 0 _ rfl
    rcases hsettled with ⟨w, hdue⟩ | hfound
    · rw [hprompt (by simp [Plant.Move.isPrompt])] at hdue
      cases hdue
    · exact hfound

end Sequencer
