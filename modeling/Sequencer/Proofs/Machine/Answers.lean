import Sequencer.Proofs.Machine.Serving

/-!
# Answers — what the callers of a machine hear

A call of a refresh hears the truth about its own service: that it was dispatched to its end, the
failure of its last dispatch, or that the machine stopped.  The actor owes an answer to the calls
whose requests are in service or in the mailbox, and it pays all of them before it ends or when it
ends.
-/

namespace Sequencer

/-! ## 1. Verdicts -/

namespace Served

/-- All its dispatches came back well, and either the last one completed the machine or nothing was
left to dispatch. -/
structure RanToEnd (served : Served) : Prop where
  idle : served.running = none
  unfailed : ∀ round ∈ served.rounds, round.result = .ok ()
  finished : (∃ round, served.rounds.getLast? = some round ∧ round.completed = true) ∨
    served.rounds ≠ [] ∧ left served.rounds = []

/-- Its last dispatch, and no other one, came back with the failure. -/
def FailedWith (served : Served) (failure : Failure) : Prop :=
  served.running = none ∧ ∃ rounds round, served.rounds = rounds ++ [round] ∧
    (∀ earlier ∈ rounds, earlier.result = .ok ()) ∧ round.result = .error failure

end Served

/-- What is true of a call on the machine `name` with the given service, if it has one. -/
inductive Verdict (name : String) : Option Served → Except Failure Unit → Prop where
  | done {served : Served} (h : served.RanToEnd) : Verdict name (some served) (.ok ())
  | failed {served : Served} {failure : Failure} (h : served.FailedWith failure) :
    Verdict name (some served) (.error failure)
  | untouched : Verdict name none (.error (.machineStopped name))
  | stopped {served : Served} (hunfailed : ∀ round ∈ served.rounds, round.result = .ok ())
      (hunfinished : ¬ served.RanToEnd) :
    Verdict name (some served) (.error (.machineStopped name))

/-- What a dispatch leads to is true of its service. -/
theorem verdict_of_outcome {name : String} {served : Served} {service : Service} {round : Round}
    {cancelled : Bool} {final : Except Failure Unit} (under : served.Under service)
    (h : round.outcome name service.chain.work cancelled = some final) :
    Verdict name (some (served.settle round)) final := by
  have hunfailed : ∀ earlier ∈ served.rounds, earlier.result = .ok () := fun earlier hmem =>
    (under.unfailed earlier hmem).1
  have hleft : Served.left (served.settle round).rounds = round.queued ++ service.chain.work := by
    rw [Served.left_settle, under.work]
  have hlast : (served.settle round).rounds.getLast? = some round := List.getLast?_concat
  -- The cases are those of the outcome: a failure, the end of the logic, no work left, and a
  -- cancelled machine.
  unfold Round.outcome at h
  cases hresult : round.result with
  | error failure =>
    rw [hresult] at h
    cases h
    exact .failed ⟨rfl, served.rounds, round, rfl, hunfailed, hresult⟩
  | ok value =>
    have hall : ∀ earlier ∈ (served.settle round).rounds, earlier.result = .ok () := by
      intro earlier hmem
      rcases List.mem_append.mp hmem with hmem | hmem
      · exact hunfailed earlier hmem
      · rw [List.mem_singleton.mp hmem, hresult]
    simp only [hresult] at h
    split at h
    · next hcompleted =>
      cases h
      exact .done ⟨rfl, hall, .inl ⟨round, hlast, hcompleted⟩⟩
    · next hcompleted =>
      split at h
      · next hnothing =>
        cases h
        exact .done ⟨rfl, hall, .inr ⟨by simp [Served.settle], hleft.trans hnothing⟩⟩
      · next hsome =>
        split at h
        · cases h
          refine .stopped hall ?_
          rintro ⟨-, -, ⟨last, hmem, hcompletes⟩ | ⟨-, hnothing⟩⟩
          · cases hlast.symm.trans hmem
            exact hcompleted hcompletes
          · exact hsome (hleft.symm.trans hnothing)
        · cases h

theorem verdict_unbegun (name : String) (request : Request) :
    Verdict name (some { request }) (.error (.machineStopped name)) := by
  refine .stopped (fun _ h => by cases h) ?_
  rintro ⟨-, -, ⟨round, hmem, -⟩ | ⟨hsome, -⟩⟩
  · cases hmem
  · exact hsome rfl

theorem verdict_under (name : String) {served : Served} {service : Service}
    (under : served.Under service) :
    Verdict name (some served) (.error (.machineStopped name)) :=
  .stopped (fun round hmem => (under.unfailed round hmem).1) fun hran =>
    by cases hran.idle.symm.trans under.running

/-! ## 2. Replies -/

/-- What an effect leaves for the call `c`. -/
def Effect.settles (c : Nat) : Effect → Option Reply
  | .answer d result => if d = c then some (.answered result) else none
  | .forget d => if d = c then some .forgotten else none
  | _ => none

theorem Effect.reply_reach {c : Nat} {call : Call} (effect : Effect) :
    (reach c call effect).reply = (effect.settles c).getD call.reply := by
  cases effect <;> simp only [reach, settles, Option.getD_none] <;> split <;> rfl

/-- The calls to which an actor owes an answer. -/
def Actor.owed (actor : Actor) : List Nat :=
  (actor.service.bind (·.reply)).toList ++ actor.mailbox.queue.filterMap (·.reply)

def Phase.result? : Phase → Option (Except Failure Unit)
  | heard result => some result
  | _ => none

def Occurrence.heardBy (c : Nat) : Occurrence → Option (Except Failure Unit)
  | heard d result => if d = c then some result else none
  | _ => none

/-- What a call was told, or was left to be told, by the machine `name`. -/
def Call.Says (name : String) (call : Call) (result : Except Failure Unit) : Prop :=
  call.phase = .heard result ∨ call.reply = .answered result ∨
    call.reply = .forgotten ∧ result = .error (.machineStopped name)

namespace Traffic

variable {t t' : Traffic} {actor : Actor} {effects : List Effect} {c d : Nat}

theorem reply_conduct (t : Traffic) (actor : Actor)
    (h : ∀ effect ∈ effects, effect.settles c = none) :
    ((t.conduct actor effects).calls c).reply = (t.calls c).reply := by
  show (effects.foldl (Effect.reach c) (t.calls c)).reply = _
  generalize t.calls c = call
  induction effects generalizing call with
  | nil => rfl
  | cons effect effects ih =>
    rw [List.forall_mem_cons] at h
    rw [List.foldl_cons, ih h.2, Effect.reply_reach, h.1, Option.getD_none]

/-- A call gets the reply that effects leave for it. -/
theorem reply_conduct_settled (t : Traffic) (actor : Actor) {reply : Reply}
    (h : ∀ effect ∈ effects, effect.settles c = none ∨ effect.settles c = some reply)
    (hsome : ∃ effect ∈ effects, effect.settles c = some reply) :
    ((t.conduct actor effects).calls c).reply = reply := by
  show (effects.foldl (Effect.reach c) (t.calls c)).reply = _
  -- A reply that is there stays, whether further effects leave the same one or none.
  have hkeep : ∀ (effects : List Effect) (call : Call), call.reply = reply →
      (∀ effect ∈ effects, effect.settles c = none ∨ effect.settles c = some reply) →
      (effects.foldl (Effect.reach c) call).reply = reply := by
    intro effects
    induction effects with
    | nil => exact fun call hcall _ => hcall
    | cons effect effects ih =>
      intro call hcall hall
      rw [List.forall_mem_cons] at hall
      refine ih _ ?_ hall.2
      rw [Effect.reply_reach]
      rcases hall.1 with hnone | hreply
      · rw [hnone, Option.getD_none, hcall]
      · rw [hreply, Option.getD_some]
  generalize t.calls c = call
  induction effects generalizing call with
  | nil => simp at hsome
  | cons effect effects ih =>
    rw [List.forall_mem_cons] at h
    rcases h.1 with hnone | hreply
    · refine ih h.2 ?_ _
      simpa [hnone] using hsome
    · refine hkeep effects _ ?_ h.2
      rw [Effect.reply_reach, hreply, Option.getD_some]

end Traffic

namespace Effect

variable {reply : Reply} {paid paid' : List Nat} {effects effects' : List Effect} {c : Nat}

/-- The effects leave `reply` for the calls `paid`, and nothing for any other call. -/
structure Pays (reply : Reply) (paid : List Nat) (effects : List Effect) : Prop where
  pays : ∀ c ∈ paid, ∃ effect ∈ effects, effect.settles c = some reply
  only : ∀ effect ∈ effects, ∀ c,
    effect.settles c = none ∨ effect.settles c = some reply ∧ c ∈ paid

theorem Pays.append (h : Pays reply paid effects) (h' : Pays reply paid' effects') :
    Pays reply (paid ++ paid') (effects ++ effects') where
  pays c hc := by
    rcases List.mem_append.mp hc with hc | hc
    · obtain ⟨effect, hmem, hsettles⟩ := h.pays c hc
      exact ⟨effect, List.mem_append_left _ hmem, hsettles⟩
    · obtain ⟨effect, hmem, hsettles⟩ := h'.pays c hc
      exact ⟨effect, List.mem_append_right _ hmem, hsettles⟩
  only effect hmem c := by
    rcases List.mem_append.mp hmem with hmem | hmem
    · exact (h.only effect hmem c).imp_right (And.imp_right (List.mem_append_left _))
    · exact (h'.only effect hmem c).imp_right (And.imp_right (List.mem_append_right _))

theorem pays_nothing (h : ∀ effect ∈ effects, ∀ c, effect.settles c = none) :
    Pays reply [] effects :=
  ⟨(fun _ h => by cases h), fun effect hmem c => .inl (h effect hmem c)⟩

theorem pays_map {effect : Nat → Effect}
    (h : ∀ c d, (effect d).settles c = if d = c then some reply else none) (paid : List Nat) :
    Pays reply paid (paid.map effect) where
  pays c hc := ⟨effect c, List.mem_map_of_mem hc, by rw [h, if_pos rfl]⟩
  only e hmem c := by
    obtain ⟨d, hd, rfl⟩ := List.mem_map.mp hmem
    rw [h]
    split
    · next hdc => exact .inr ⟨rfl, hdc ▸ hd⟩
    · exact .inl rfl

theorem pays_answers (final : Except Failure Unit) (paid : List Nat) :
    Pays (.answered final) paid (paid.map (Effect.answer · final)) :=
  pays_map (fun _ _ => rfl) paid

theorem pays_answer (final : Except Failure Unit) (reply : Option Nat) :
    Pays (.answered final) reply.toList (reply.map (Effect.answer · final)).toList := by
  rw [Option.toList_map]
  exact pays_answers final _

theorem pays_forgets (paid : List Nat) : Pays .forgotten paid (paid.map Effect.forget) :=
  pays_map (fun _ _ => rfl) paid

theorem wakes_of_settles {effect : Effect} (h : effect.settles c = some reply) :
    effect.wakes c = true := by
  cases effect <;> simp only [settles, wakes] at h ⊢ <;> grind

end Effect

namespace Traffic

variable {t t' : Traffic} {actor : Actor} {effects : List Effect} {c d : Nat}

/-! ## 3. Own services -/

/-- The service of the call `c`, if its request was taken. -/
def own (t : Traffic) (c : Nat) : Option Served :=
  t.served.find? fun served => served.request.reply = some c

def heardBy (t : Traffic) (c : Nat) : List (Except Failure Unit) :=
  t.log.filterMap (Occurrence.heardBy c)

/-- The calls whose requests entered the mailbox, the latest first. -/
def callers (t : Traffic) : List Nat := t.entered.filterMap (·.reply)

theorem own_of_notMem (ledger : t.Ledger) (h : c ∉ t.callers) : t.own c = none := by
  obtain ⟨unserved, booked, -⟩ := ledger.booked
  refine List.find?_eq_none.mpr fun served hmem hreply => h ?_
  refine List.mem_filterMap.mpr ⟨served.request, ?_, of_decide_eq_true hreply⟩
  rw [booked.entered]
  exact List.mem_append_right _ (List.mem_map_of_mem hmem)

theorem own_of_queued (ledger : t.Ledger) (hnodup : t.callers.Nodup)
    (hrunning : t.actor.ended = false) (h : c ∈ t.actor.mailbox.queue.filterMap (·.reply)) :
    t.own c = none := by
  obtain ⟨unserved, booked, hunserved⟩ := ledger.booked
  refine List.find?_eq_none.mpr fun served hmem hreply => ?_
  -- A call is numbered once, and its request is in the mailbox.
  have hcallers : t.callers = (t.actor.mailbox.queue.reverse.filterMap (·.reply)) ++
      (t.served.map (·.request)).filterMap (·.reply) := by
    rw [callers, booked.entered, List.filterMap_append, hunserved hrunning]
  rw [hcallers, List.nodup_append] at hnodup
  refine hnodup.2.2 c ?_ c (List.mem_filterMap.mpr ⟨served.request, List.mem_map_of_mem hmem,
    of_decide_eq_true hreply⟩) rfl
  rw [List.filterMap_reverse, List.mem_reverse]
  exact h

/-- The call whose refresh is in service has the latest service. -/
theorem own_of_service (ledger : t.Ledger) {service : Service}
    (hservice : t.actor.service = some service) (hreply : service.reply = some c) :
    ∃ served, t.own c = some served ∧ served.Under service := by
  obtain ⟨latest, earlier, hlatest, under⟩ := ledger.current service hservice
  refine ⟨latest, ?_, under⟩
  rw [own, hlatest]
  exact List.find?_cons_of_pos (decide_eq_true (under.reply.trans hreply))

/-! ## 4. Accounts -/

/-- Every call whose request entered is owed one answer until it has it, and has heard nothing but
the truth. -/
structure Accounts (t : Traffic) : Prop where
  numbered : t.callers.Nodup
  made : ∀ c ∈ t.callers, (t.calls c).phase ≠ .unmade ∧
    ∀ source, (t.calls c).phase ≠ .sending source
  unpaid : ∀ c, c ∉ t.callers → (t.calls c).reply = .awaited
  owed : ∀ c ∈ t.actor.owed, (t.calls c).reply = .awaited ∧
    ((t.calls c).phase = .expecting ∨ (t.calls c).phase = .dropped)
  expecting : ∀ c, (t.calls c).phase = .expecting → c ∈ t.actor.owed ∨
    (t.calls c).reply ≠ .awaited ∧ (t.calls c).woken = true
  truthful : ∀ c result, (t.calls c).Says t.actor.core.name result →
    Verdict t.actor.core.name (t.own c) result
  heard : ∀ c, t.heardBy c = (t.calls c).phase.result?.toList
  drained : t.actor.ended = true → t.actor.mailbox.queue = []

theorem accounts_start (config : Config) (name initial : String) (hosted : Bool) :
    (start config name initial hosted).Accounts where
  numbered := List.nodup_nil
  made := fun _ h => by cases h
  unpaid _ _ := rfl
  owed := fun _ h => by cases h
  expecting _ h := by cases h
  truthful _ _ h := by rcases h with h | h | ⟨h, -⟩ <;> cases h
  heard _ := rfl
  drained h := by cases h

/-- The actor owes answers to calls whose requests entered, and one answer to each. -/
theorem owed_callers (ledger : t.Ledger) (accounts : t.Accounts) :
    t.actor.owed.Nodup ∧ ∀ c ∈ t.actor.owed, c ∈ t.callers := by
  cases hended : t.actor.ended with
  | true =>
    have hnothing : t.actor.owed = [] := by
      rw [Actor.owed, ledger.ended hended, accounts.drained hended]
      rfl
    rw [hnothing]
    exact ⟨List.nodup_nil, fun _ h => by cases h⟩
  | false =>
    obtain ⟨unserved, booked, hunserved⟩ := ledger.booked
    have hcallers : t.callers = (t.actor.mailbox.queue.filterMap (·.reply)).reverse ++
        (t.served.map (·.request)).filterMap (·.reply) := by
      rw [callers, booked.entered, List.filterMap_append, hunserved hended, List.filterMap_reverse]
    have hserved : ∀ c ∈ (t.actor.service.bind (·.reply)).toList,
        c ∈ (t.served.map (·.request)).filterMap (·.reply) := by
      intro c h
      obtain ⟨service, hservice, hreply⟩ := Option.bind_eq_some_iff.mp (Option.mem_toList.mp h)
      obtain ⟨latest, earlier, hlatest, under⟩ := ledger.current service hservice
      rw [hlatest]
      exact List.mem_filterMap.mpr ⟨latest.request, List.mem_cons_self, under.reply.trans hreply⟩
    -- The call in service entered before those in the mailbox, and every call enters once.
    have hnodup := accounts.numbered
    rw [hcallers, List.nodup_append, List.nodup_reverse] at hnodup
    refine ⟨List.nodup_append.mpr ⟨?_, hnodup.1, fun a ha b hb hab => ?_⟩, fun c h => ?_⟩
    · cases t.actor.service.bind (·.reply) with
      | none => exact List.nodup_nil
      | some c => exact List.pairwise_singleton _ _
    · exact hnodup.2.2 b (List.mem_reverse.mpr hb) a (hserved a ha) hab.symm
    · rw [hcallers]
      rcases List.mem_append.mp h with h | h
      · exact List.mem_append_right _ (hserved c h)
      · exact List.mem_append_left _ (List.mem_reverse.mpr h)

/-- The actor pays some of the answers that it owes, and lets no call in. -/
theorem Accounts.pay (accounts : t.Accounts) (ledger : t.Ledger) (paid : List Nat)
    (howed : t.actor.owed = paid ++ t'.actor.owed) (hcallers : t'.callers = t.callers)
    (hphase : ∀ c, (t'.calls c).phase = (t.calls c).phase)
    (hwoken : ∀ c, (t.calls c).woken = true → (t'.calls c).woken = true)
    (hkept : ∀ c, c ∉ paid → (t'.calls c).reply = (t.calls c).reply)
    (hpaid : ∀ c ∈ paid, (t'.calls c).reply ≠ .awaited ∧ (t'.calls c).woken = true ∧
      ∀ result, (t'.calls c).Says t.actor.core.name result →
        Verdict t.actor.core.name (t'.own c) result)
    (hown : ∀ c, c ∉ t.actor.owed → t'.own c = t.own c)
    (hname : t'.actor.core.name = t.actor.core.name) (hheard : ∀ c, t'.heardBy c = t.heardBy c)
    (hdrained : t'.actor.ended = true → t'.actor.mailbox.queue = []) : t'.Accounts := by
  obtain ⟨hnodup, hsubset⟩ := owed_callers ledger accounts
  -- Nobody is owed two answers, so that those who are still owed were not paid.
  have hpaying : ∀ c ∈ paid, c ∈ t.actor.owed := fun c h =>
    howed ▸ List.mem_append_left _ h
  have howing : ∀ c ∈ t'.actor.owed, c ∈ t.actor.owed ∧ c ∉ paid := fun c h => by
    rw [howed] at hnodup ⊢
    exact ⟨List.mem_append_right _ h, fun hc => (List.nodup_append.mp hnodup).2.2 c hc c h rfl⟩
  refine ⟨hcallers ▸ accounts.numbered, fun c h => ?_, fun c h => ?_, fun c h => ?_, fun c h => ?_,
    fun c result h => ?_, fun c => ?_, hdrained⟩
  · rw [hphase]
    exact accounts.made c (hcallers ▸ h)
  · rw [hcallers] at h
    rw [hkept c fun hc => h (hsubset c (hpaying c hc))]
    exact accounts.unpaid c h
  · rw [hkept c (howing c h).2, hphase]
    exact accounts.owed c (howing c h).1
  · rw [hphase] at h
    -- A call that waits was paid and told, or goes on waiting.
    by_cases hc : c ∈ paid
    · exact .inr ⟨(hpaid c hc).1, (hpaid c hc).2.1⟩
    · rw [hkept c hc]
      refine (accounts.expecting c h).imp (fun hbefore => ?_) (And.imp_right (hwoken c))
      rw [howed] at hbefore
      exact (List.mem_append.mp hbefore).resolve_left hc
  · rw [hname] at h ⊢
    by_cases hc : c ∈ paid
    · exact (hpaid c hc).2.2 result h
    · rw [Call.Says, hphase, hkept c hc] at h
      by_cases howes : c ∈ t.actor.owed
      · -- A call that is still owed was told nothing.
        obtain ⟨hreply, hwaits⟩ := accounts.owed c howes
        rcases h with h | h | ⟨h, -⟩
        · rcases hwaits with hw | hw <;> cases hw.symm.trans h
        · cases hreply.symm.trans h
        · cases hreply.symm.trans h
      · rw [hown c howes]
        exact accounts.truthful c result h
  · rw [hheard, hphase, accounts.heard]

/-- The machine after the call `c` has looked and stands at `phase`; nobody has entered, and nobody
was paid. -/
structure Placed (t : Traffic) (c : Nat) (phase : Phase) (t' : Traffic) : Prop where
  callers : t'.callers = t.callers
  owed : t'.actor.owed = t.actor.owed
  phase : ∀ d, (t'.calls d).phase = if d = c then phase else (t.calls d).phase
  reply : ∀ d, (t'.calls d).reply = (t.calls d).reply
  woken : ∀ d, d ≠ c → (t.calls d).woken = true → (t'.calls d).woken = true
  served : t'.served = t.served
  name : t'.actor.core.name = t.actor.core.name
  ended : t'.actor.ended = t.actor.ended
  queue : t'.actor.mailbox.queue = t.actor.mailbox.queue

/-- A call that moves to a phase of which the verdict is true leaves all verdicts true. -/
theorem Accounts.truthful_placed (accounts : t.Accounts) {phase : Phase}
    (hphase : ∀ d, (t'.calls d).phase = if d = c then phase else (t.calls d).phase)
    (hreply : ∀ d, (t'.calls d).reply = (t.calls d).reply)
    (hverdict : ∀ result, phase = .heard result → Verdict t.actor.core.name (t.own c) result)
    (hserved : t'.served = t.served) (hname : t'.actor.core.name = t.actor.core.name)
    (d : Nat) (result : Except Failure Unit) (h : (t'.calls d).Says t'.actor.core.name result) :
    Verdict t'.actor.core.name (t'.own d) result := by
  have hown : t'.own d = t.own d := congrArg (List.find? _) hserved
  rw [hname] at h ⊢
  rw [hown]
  rw [Call.Says, hphase, hreply] at h
  split at h
  · next hd =>
    subst hd
    rcases h with h | h
    · exact hverdict result h
    · exact accounts.truthful d result (.inr h)
  · exact accounts.truthful d result h

/-- A call may stand where it is owed what it waits for, and where it has heard the truth. -/
theorem Accounts.place (accounts : t.Accounts) {phase : Phase} (placed : t.Placed c phase t')
    (hmade : c ∈ t.callers → phase ≠ .unmade ∧ ∀ source, phase ≠ .sending source)
    (hwaits : c ∈ t.actor.owed → phase = .expecting ∨ phase = .dropped)
    (hexpecting : phase = .expecting → c ∈ t.actor.owed)
    (hverdict : ∀ result, phase = .heard result → Verdict t.actor.core.name (t.own c) result)
    (hheard : ∀ d, t'.heardBy d = if d = c then phase.result?.toList else t.heardBy d) :
    t'.Accounts where
  numbered := placed.callers ▸ accounts.numbered
  made d h := by
    rw [placed.callers] at h
    rw [placed.phase]
    split
    · next hd => exact hmade (hd ▸ h)
    · exact accounts.made d h
  unpaid d h := by
    rw [placed.reply]
    exact accounts.unpaid d (placed.callers ▸ h)
  owed d h := by
    rw [placed.owed] at h
    rw [placed.reply, placed.phase]
    refine ⟨(accounts.owed d h).1, ?_⟩
    split
    · next hd => exact hwaits (hd ▸ h)
    · exact (accounts.owed d h).2
  expecting d h := by
    rw [placed.phase] at h
    rw [placed.owed, placed.reply]
    split at h
    · next hd => exact .inl (hd ▸ hexpecting h)
    · next hd => exact (accounts.expecting d h).imp_right (And.imp_right (placed.woken d hd))
  truthful := accounts.truthful_placed placed.phase placed.reply hverdict placed.served placed.name
  heard d := by
    rw [hheard, placed.phase]
    split
    · rfl
    · exact accounts.heard d
  drained h := by
    rw [placed.queue]
    exact accounts.drained (placed.ended ▸ h)

/-- The request of a call enters, and the actor owes it an answer. -/
theorem Accounts.enter (accounts : t.Accounts) (hnew : c ∉ t.callers)
    (hcallers : t'.callers = c :: t.callers) (howed : t'.actor.owed = t.actor.owed ++ [c])
    (hphase : ∀ d, (t'.calls d).phase = if d = c then .expecting else (t.calls d).phase)
    (hreply : ∀ d, (t'.calls d).reply = (t.calls d).reply)
    (hwoken : ∀ d, d ≠ c → (t.calls d).woken = true → (t'.calls d).woken = true)
    (hunheard : (t.calls c).phase.result? = none) (hserved : t'.served = t.served)
    (hname : t'.actor.core.name = t.actor.core.name) (hheard : ∀ d, t'.heardBy d = t.heardBy d)
    (hrunning : t'.actor.ended = false) : t'.Accounts where
  numbered := by
    rw [hcallers]
    exact List.nodup_cons.mpr ⟨hnew, accounts.numbered⟩
  made d h := by
    rw [hcallers] at h
    rw [hphase]
    split
    · exact ⟨(fun h => by cases h), fun _ h => by cases h⟩
    · next hd => exact accounts.made d ((List.mem_cons.mp h).resolve_left hd)
  unpaid d h := by
    rw [hcallers] at h
    rw [hreply]
    exact accounts.unpaid d fun hd => h (List.mem_cons_of_mem _ hd)
  owed d h := by
    rw [howed] at h
    rw [hreply, hphase]
    split
    · next hd => exact ⟨hd ▸ accounts.unpaid c hnew, .inl rfl⟩
    · next hd =>
      exact accounts.owed d ((List.mem_append.mp h).resolve_right fun h =>
        hd (List.mem_singleton.mp h))
  expecting d h := by
    rw [hphase] at h
    rw [howed, hreply]
    split at h
    · next hd => exact .inl (List.mem_append_right _ (List.mem_singleton.mpr hd))
    · next hd =>
      exact (accounts.expecting d h).imp (List.mem_append_left _) (And.imp_right (hwoken d hd))
  truthful := accounts.truthful_placed hphase hreply (fun _ h => by cases h) hserved hname
  heard d := by
    rw [hheard, hphase, accounts.heard]
    split
    · next hd =>
      rw [hd, hunheard]
      rfl
    · rfl
  drained h := by cases h.symm.trans hrunning

/-! ## 5. Steps -/

@[simp] theorem reply_place (phase : Phase) :
    ((t.place c phase).calls d).reply = (t.calls d).reply := by
  simp only [place]
  split <;> rfl

theorem heardBy_record {o : Occurrence} (h : ∀ c, o.heardBy c = none) :
    (t.record o).heardBy c = t.heardBy c := by
  simp only [heardBy, record, List.filterMap_cons, h]

@[simp] theorem heardBy_conduct (t : Traffic) (actor : Actor) (effects : List Effect) (c : Nat) :
    (t.conduct actor effects).heardBy c = t.heardBy c := by
  simp only [heardBy, conduct, List.filterMap_append]
  rw [List.filterMap_eq_nil_iff.mpr, List.nil_append]
  intro o ho
  obtain ⟨effect, -, heffect⟩ := List.mem_filterMap.mp (List.mem_reverse.mp ho)
  rcases entry_cases heffect with ⟨event, rfl⟩ | ⟨-, request, rfl⟩
  · rfl
  · rfl

theorem callers_conduct (actor : Actor) (h : Effect.deliver ∉ effects) :
    (t.conduct actor effects).callers = t.callers :=
  congrArg (List.filterMap _) (entered_conduct actor h)

theorem callers_deliver (t : Traffic) (actor : Actor) (request : Request)
    {queue : List Request} (h : actor.mailbox.queue = queue ++ [request]) :
    (t.conduct actor [.deliver]).callers = request.reply.toList ++ t.callers := by
  rw [callers, entered_deliver h, List.filterMap_cons]
  cases request.reply <;> rfl

theorem own_of_latest {latest : Served} {earlier : List Served} (h : t.served = latest :: earlier)
    (hreply : latest.request.reply ≠ some c) :
    t.own c = earlier.find? fun served => served.request.reply = some c := by
  rw [own, h]
  exact List.find?_cons_of_neg (by simpa using hreply)

theorem mem_owed_of_service {service : Service} (hservice : t.actor.service = some service)
    (h : service.reply = some c) : c ∈ t.actor.owed := by
  refine List.mem_append_left _ ?_
  rw [hservice, Option.mem_toList]
  exact h

theorem mem_owed_of_queue {request : Request} (hmem : request ∈ t.actor.mailbox.queue)
    (h : request.reply = some c) : c ∈ t.actor.owed :=
  List.mem_append_right _ (List.mem_filterMap.mpr ⟨request, hmem, h⟩)

theorem placed_conduct (phase : Phase) (hdeliver : Effect.deliver ∉ effects)
    (hsettles : ∀ d, ∀ effect ∈ effects, effect.settles d = none)
    (hservice : actor.service = t.actor.service)
    (hqueue : actor.mailbox.queue = t.actor.mailbox.queue)
    (hname : actor.core.name = t.actor.core.name) (hended : actor.ended = t.actor.ended) :
    t.Placed c phase ((t.conduct actor effects).place c phase) where
  callers := callers_conduct actor hdeliver
  owed := by
    show actor.owed = t.actor.owed
    rw [Actor.owed, Actor.owed, hservice, hqueue]
  phase d := by rw [phase_place, phase_conduct]
  reply d := by rw [reply_place, reply_conduct _ _ (hsettles d)]
  woken d hd h := by
    rw [woken_place _ hd]
    exact woken_kept t _ _ h
  served := served_conduct _ _
  name := hname
  ended := hended
  queue := hqueue

theorem placed_place (t : Traffic) (c : Nat) (phase : Phase) :
    t.Placed c phase (t.place c phase) where
  callers := rfl
  owed := rfl
  phase _ := phase_place _
  reply _ := reply_place _
  woken _ hd h := (woken_place _ hd).trans h
  served := rfl
  name := rfl
  ended := rfl
  queue := rfl

theorem Placed.hear {phase : Phase} (placed : t.Placed c phase t') (result : Except Failure Unit) :
    t.Placed c phase (t'.record (.heard c result)) :=
  ⟨placed.callers, placed.owed, placed.phase, placed.reply, placed.woken, placed.served,
    placed.name, placed.ended, placed.queue⟩

/-- The actor goes on owing what it owed. -/
theorem Accounts.keep (accounts : t.Accounts) (ledger : t.Ledger)
    (hcallers : t'.callers = t.callers)
    (hphase : ∀ c, (t'.calls c).phase = (t.calls c).phase)
    (hreply : ∀ c, (t'.calls c).reply = (t.calls c).reply)
    (hwoken : ∀ c, (t.calls c).woken = true → (t'.calls c).woken = true)
    (howed : t'.actor.owed = t.actor.owed) (hown : ∀ c, c ∉ t.actor.owed → t'.own c = t.own c)
    (hname : t'.actor.core.name = t.actor.core.name) (hheard : ∀ c, t'.heardBy c = t.heardBy c)
    (hdrained : t'.actor.ended = true → t'.actor.mailbox.queue = []) : t'.Accounts :=
  accounts.pay ledger [] howed.symm hcallers hphase hwoken (fun c _ => hreply c)
    (fun _ h => by cases h) hown hname hheard hdrained

theorem accounts_serve (accounts : t.Accounts) (ledger : t.Ledger) {request : Request}
    {queue : List Request} (hidle : t.idle = true)
    (hqueue : t.actor.mailbox.queue = request :: queue) {state : String}
    (hservice : actor.service =
      some { reply := request.reply, chain := { source := request.source }, state })
    (hleft : actor.mailbox.queue = queue) (hended : actor.ended = t.actor.ended)
    (hname : actor.core.name = t.actor.core.name) (hdeliver : Effect.deliver ∉ effects)
    (hsettles : ∀ c, ∀ effect ∈ effects, effect.settles c = none) :
    (((t.record (.taken request)).conduct actor effects).record
      (.dispatched { state, source := request.source })).Accounts := by
  obtain ⟨hrunning, hnone⟩ := idle_iff.mp hidle
  refine accounts.keep ledger (callers_conduct actor hdeliver)
    (fun c => phase_conduct _ actor effects c) (fun c => reply_conduct _ actor (hsettles c))
    (fun c => woken_kept _ actor effects) ?_ (fun c h => ?_) hname (fun c => ?_) ?_
  · -- What was owed for the first request of the mailbox is owed for the service of it.
    show actor.owed = _
    rw [Actor.owed, Actor.owed, hservice, hleft, hnone, hqueue, List.filterMap_cons]
    cases request.reply <;> rfl
  · have hserved : (((t.record (.taken request)).conduct actor effects).record
        (.dispatched { state, source := request.source })).served =
        { request, running := some { state, source := request.source } } :: t.served := by
      rw [served_dispatched, served_conduct]
      rfl
    refine own_of_latest hserved fun hreply => h (mem_owed_of_queue ?_ hreply)
    rw [hqueue]
    exact List.mem_cons_self
  · rw [heardBy_record fun _ => rfl, heardBy_conduct, heardBy_record fun _ => rfl]
  · intro hover
    cases hover.symm.trans (hended.trans hrunning)

theorem accounts_next (accounts : t.Accounts) (ledger : t.Ledger) {service service' : Service}
    {round : Round} {tick : Tick} (hsome : t.actor.service = some service)
    (hservice : actor.service = some service') (hreply : service'.reply = service.reply)
    (hmailbox : actor.mailbox = t.actor.mailbox) (hended : actor.ended = t.actor.ended)
    (hname : actor.core.name = t.actor.core.name) (hdeliver : Effect.deliver ∉ effects)
    (hsettles : ∀ c, ∀ effect ∈ effects, effect.settles c = none) :
    (((t.record (.returned round)).conduct actor effects).record (.dispatched tick)).Accounts := by
  obtain ⟨latest, earlier, hlatest, under⟩ := ledger.current service hsome
  refine accounts.keep ledger (callers_conduct actor hdeliver)
    (fun c => phase_conduct _ actor effects c) (fun c => reply_conduct _ actor (hsettles c))
    (fun c => woken_kept _ actor effects) ?_ (fun c h => ?_) hname (fun c => ?_) ?_
  · show actor.owed = _
    rw [Actor.owed, Actor.owed, hservice, hsome, hmailbox, Option.bind_some, Option.bind_some,
      hreply]
  · have hserved : (((t.record (.returned round)).conduct actor effects).record
        (.dispatched tick)).served = (latest.settle round).dispatch tick :: earlier := by
      rw [served_dispatched, served_conduct, served_returned, hlatest]
      rfl
    -- The latest service changes, and it belongs to a call that is owed an answer.
    have hother : latest.request.reply ≠ some c := fun hreply =>
      h (mem_owed_of_service hsome (under.reply.symm.trans hreply))
    rw [own_of_latest hserved hother, own_of_latest hlatest hother]
  · rw [heardBy_record fun _ => rfl, heardBy_conduct, heardBy_record fun _ => rfl]
  · intro hover
    cases (hover.symm.trans hended).trans (ledger.running hsome)

/-- A call that waits hears what it is left. -/
theorem says_of_reply {name : String} {call : Call} {reply : Reply}
    {final result : Except Failure Unit} (hwaits : call.phase = .expecting ∨ call.phase = .dropped)
    (hmeans : reply = .answered final ∨ reply = .forgotten ∧ final = .error (.machineStopped name))
    (hreply : call.reply = reply) (h : call.Says name result) : result = final := by
  rcases h with h | h | ⟨h, hresult⟩
  · rcases hwaits with hw | hw <;> cases hw.symm.trans h
  · rcases hmeans with hm | ⟨hm, -⟩
    · cases (h.symm.trans hreply).trans hm
      rfl
    · cases (h.symm.trans hreply).trans hm
  · rcases hmeans with hm | ⟨-, hm⟩
    · cases (h.symm.trans hreply).trans hm
    · exact hresult.trans hm.symm

/-- The actor pays answers that are true. -/
theorem Accounts.answer (accounts : t.Accounts) (ledger : t.Ledger) {base : Traffic}
    (hcalls : base.calls = t.calls) (hcallers : base.callers = t.callers)
    (hheard : ∀ c, base.heardBy c = t.heardBy c) {reply : Reply} {paid : List Nat}
    {final : Except Failure Unit} (hpays : Effect.Pays reply paid effects)
    (hmeans : reply = .answered final ∨
      reply = .forgotten ∧ final = .error (.machineStopped t.actor.core.name))
    (hdeliver : Effect.deliver ∉ effects) (howed : t.actor.owed = paid ++ actor.owed)
    (hverdict : ∀ c ∈ paid, Verdict t.actor.core.name (base.own c) final)
    (hown : ∀ c, c ∉ t.actor.owed → base.own c = t.own c)
    (hname : actor.core.name = t.actor.core.name)
    (hdrained : actor.ended = true → actor.mailbox.queue = []) :
    (base.conduct actor effects).Accounts := by
  have hphase : ∀ c, ((base.conduct actor effects).calls c).phase = (t.calls c).phase := fun c => by
    rw [phase_conduct, hcalls]
  have hserved : ∀ c, (base.conduct actor effects).own c = base.own c := fun c => by
    rw [own, own, served_conduct]
  have hreply : ∀ c ∈ paid, ((base.conduct actor effects).calls c).reply = reply := fun c hc =>
    reply_conduct_settled base actor
      (fun effect hmem => (hpays.only effect hmem c).imp_right And.left) (hpays.pays c hc)
  refine accounts.pay ledger paid howed ((callers_conduct actor hdeliver).trans hcallers) hphase
    (fun c h => woken_kept base actor effects (hcalls ▸ h)) (fun c hc => ?_) (fun c hc => ?_)
    (fun c hc => (hserved c).trans (hown c hc)) hname
    (fun c => (heardBy_conduct _ _ _ c).trans (hheard c)) hdrained
  · rw [reply_conduct base actor, hcalls]
    exact fun effect hmem => (hpays.only effect hmem c).resolve_right fun h => hc h.2
  · refine ⟨?_, ?_, fun result h => ?_⟩
    · rw [hreply c hc]
      rcases hmeans with rfl | ⟨rfl, -⟩ <;> intro h <;> cases h
    · obtain ⟨effect, hmem, hsettles⟩ := hpays.pays c hc
      exact woken_told hmem (Effect.wakes_of_settles hsettles)
    · -- A call that was owed an answer heard nothing before, so that it says what it is paid.
      have hwaits := (accounts.owed c (howed ▸ List.mem_append_left _ hc)).2
      rw [← hphase c] at hwaits
      rw [says_of_reply hwaits hmeans (hreply c hc) h, hserved]
      exact hverdict c hc

theorem settles_told {told : List Effect} (h : ∀ effect ∈ told, effect.isTold = true) :
    ∀ effect ∈ told, ∀ c, effect.settles c = none := by
  intro effect hmem c
  have htold := h effect hmem
  cases effect <;> first | rfl | cases htold

theorem accounts_over (accounts : t.Accounts) (ledger : t.Ledger) {service : Service}
    {round : Round} {final : Except Failure Unit} {told : List Effect}
    (hsome : t.actor.service = some service)
    (hfinal : round.outcome t.actor.core.name service.chain.work t.cancelled = some final)
    (htold : ∀ effect ∈ told, effect.isTold = true)
    (hservice : actor.service = none) (hmailbox : actor.mailbox = t.actor.mailbox)
    (hended : actor.ended = t.actor.ended) (hname : actor.core.name = t.actor.core.name) :
    ((t.record (.returned round)).conduct actor
      (told ++ (service.reply.map (Effect.answer · final)).toList)).Accounts := by
  obtain ⟨latest, earlier, hlatest, under⟩ := ledger.current service hsome
  have hserved : (t.record (.returned round)).served = latest.settle round :: earlier := by
    rw [served_returned, hlatest, List.modifyHead_cons]
  have hpays : Effect.Pays (.answered final) service.reply.toList
      (told ++ (service.reply.map (Effect.answer · final)).toList) :=
    (Effect.pays_nothing (settles_told htold)).append (Effect.pays_answer final _)
  refine accounts.answer ledger rfl rfl (fun c => heardBy_record fun _ => rfl) hpays (.inl rfl)
    (deliver_notMem_told htold _ _) ?_ (fun c hc => ?_) (fun c hc => ?_) hname ?_
  · rw [Actor.owed, Actor.owed, hservice, hsome, hmailbox]
    rfl
  · -- The call that is paid is the one whose service ends.
    have hmine : latest.request.reply = some c := under.reply.trans (Option.mem_toList.mp hc)
    have hown : (t.record (.returned round)).own c = some (latest.settle round) := by
      rw [own, hserved]
      exact List.find?_cons_of_pos (decide_eq_true hmine)
    rw [hown]
    exact verdict_of_outcome under hfinal
  · -- Every other call keeps its service.
    have hother : latest.request.reply ≠ some c := fun hreply =>
      hc (mem_owed_of_service hsome (under.reply.symm.trans hreply))
    exact (own_of_latest hserved hother).trans (own_of_latest hlatest hother).symm
  · intro hover
    cases (hover.symm.trans hended).trans (ledger.running hsome)

theorem accounts_cut (accounts : t.Accounts) (ledger : t.Ledger) {request : Request}
    {queue : List Request} {reserved : Option Nat} (hidle : t.idle = true)
    (hqueue : t.actor.mailbox.queue = request :: queue) (hservice : actor.service = none)
    (hleft : actor.mailbox.queue = queue) (hended : actor.ended = t.actor.ended)
    (hname : actor.core.name = t.actor.core.name) :
    (({ t with cancelled := true }.record (.taken request)).conduct actor
      ((reserved.map Effect.reserve).toList ++
        (request.reply.map (Effect.answer · (.error t.actor.core.stopped))).toList)).Accounts := by
  obtain ⟨hrunning, hnone⟩ := idle_iff.mp hidle
  have hserved : ({ t with cancelled := true }.record (.taken request)).served =
      { request } :: t.served := rfl
  have hpays : Effect.Pays (.answered (.error t.actor.core.stopped)) request.reply.toList
      ((reserved.map Effect.reserve).toList ++
        (request.reply.map (Effect.answer · (.error t.actor.core.stopped))).toList) :=
    (Effect.pays_nothing (by simp [Effect.settles])).append (Effect.pays_answer _ _)
  refine accounts.answer ledger rfl rfl (fun c => heardBy_record fun _ => rfl) hpays (.inl rfl)
    (by simp) ?_ (fun c hc => ?_) (fun c hc => ?_) hname ?_
  · rw [Actor.owed, Actor.owed, hservice, hnone, hleft, hqueue, List.filterMap_cons]
    cases request.reply <;> rfl
  · -- The request was taken, but none of its dispatches began.
    have hown : ({ t with cancelled := true }.record (.taken request)).own c =
        some { request } := by
      rw [own, hserved]
      exact List.find?_cons_of_pos (decide_eq_true (Option.mem_toList.mp hc))
    rw [hown]
    exact verdict_unbegun _ _
  · refine own_of_latest hserved fun hreply => hc (mem_owed_of_queue ?_ hreply)
    rw [hqueue]
    exact List.mem_cons_self
  · intro hover
    cases hover.symm.trans (hended.trans hrunning)

theorem accounts_leave (accounts : t.Accounts) (ledger : t.Ledger) (hidle : t.idle = true) :
    (t.conduct t.actor.leave.1 t.actor.leave.2).Accounts := by
  obtain ⟨hrunning, hnone⟩ := idle_iff.mp hidle
  have howed : t.actor.owed = t.actor.mailbox.queue.filterMap (·.reply) := by
    rw [Actor.owed, hnone]
    rfl
  have hpays : Effect.Pays (.answered (.error t.actor.core.stopped)) t.actor.owed
      t.actor.leave.2 := by
    rw [howed, ← List.append_nil (List.filterMap _ _)]
    exact ((Effect.pays_nothing (by simp [Effect.settles])).append
      (Effect.pays_answers _ _)).append (Effect.pays_nothing (by simp [Effect.settles]))
  refine accounts.answer ledger rfl rfl (fun _ => rfl) hpays (.inl rfl) (by simp [Actor.leave]) ?_
    (fun c hc => ?_) (fun _ _ => rfl) rfl fun _ => rfl
  · show _ = t.actor.owed ++ t.actor.leave.1.owed
    rw [show t.actor.leave.1.owed = [] by simp [Actor.owed, Actor.leave, hnone, Mailbox.drain],
      List.append_nil]
  · rw [own_of_queued ledger accounts.numbered hrunning (howed ▸ hc)]
    exact .untouched

/-- The logic panics, and the calls to which the actor owes an answer will get none. -/
theorem accounts_collapse (accounts : t.Accounts) (ledger : t.Ledger) {service : Service}
    (hservice : t.actor.service = some service) :
    (t.conduct t.actor.collapse.1 t.actor.collapse.2).Accounts := by
  have hpays : Effect.Pays .forgotten t.actor.owed t.actor.collapse.2 := by
    have hrefused : Effect.Pays .forgotten [] (t.actor.mailbox.close.2.map Effect.refuse) :=
      Effect.pays_nothing (by simp [Effect.settles])
    have hforgets := ((Effect.pays_forgets (t.actor.service.bind (·.reply)).toList).append
      hrefused).append (Effect.pays_forgets (t.actor.mailbox.queue.filterMap (·.reply)))
    rw [List.append_nil, ← Option.toList_map] at hforgets
    exact hforgets
  refine accounts.answer ledger rfl rfl (fun _ => rfl) hpays (.inr ⟨rfl, rfl⟩)
    (by simp [Actor.collapse, hservice]) ?_ (fun c hc => ?_) (fun _ _ => rfl) rfl fun _ => rfl
  · rw [show t.actor.collapse.1.owed = [] by simp [Actor.owed, Actor.collapse, Mailbox.drain],
      List.append_nil]
  · -- The call in service was dispatched, and those in the mailbox were not.
    rcases List.mem_append.mp hc with hc | hc
    · rw [hservice] at hc
      obtain ⟨served, hown, under⟩ := own_of_service ledger hservice (Option.mem_toList.mp hc)
      rw [hown]
      exact verdict_under _ under
    · rw [own_of_queued ledger accounts.numbered (ledger.running hservice) hc]
      exact .untouched

/-- A call that still asks for a slot has no request in the mailbox. -/
theorem Accounts.asking (accounts : t.Accounts) {source : String}
    (h : (t.calls c).phase = .unmade ∨ (t.calls c).phase = .sending source) :
    c ∉ t.callers ∧ (t.calls c).phase.result? = none := by
  refine ⟨fun hc => ?_, ?_⟩
  · rcases h with h | h
    · exact (accounts.made c hc).1 h
    · exact (accounts.made c hc).2 source h
  · rcases h with h | h <;> rw [h] <;> rfl

theorem Accounts.silent (accounts : t.Accounts) (h : (t.calls c).phase.result? = none) (d : Nat) :
    t.heardBy d = if d = c then [] else t.heardBy d := by
  split
  · next hd =>
    rw [hd, accounts.heard, h]
    rfl
  · rfl

theorem heardBy_hear (result : Except Failure Unit) (h : t.heardBy c = []) (d : Nat) :
    (t.hear c result).heardBy d = if d = c then [result] else t.heardBy d := by
  by_cases hd : d = c
  · subst hd
    rw [if_pos rfl, ← h]
    show (Occurrence.heard d result :: t.log).filterMap _ = _
    rw [List.filterMap_cons_some (b := result)]
    · rfl
    · exact if_pos rfl
  · rw [if_neg hd]
    show (Occurrence.heard c result :: t.log).filterMap _ = _
    rw [List.filterMap_cons_none]
    · rfl
    · exact if_neg fun h => hd h.symm

theorem accounts_change {slots : Nat} (seats : t.Seats slots) (ledger : t.Ledger)
    (accounts : t.Accounts) (h : t.Change t') : t'.Accounts := by
  -- A step of a call moves that call alone; the actor pays with `finish`, `cut`, `leave` and
  -- `collapse`, and goes on owing the same with all other steps.
  have hsubset := (owed_callers ledger accounts).2
  cases h with
  | nothing => exact accounts
  | cancel =>
    exact accounts.keep ledger rfl (fun _ => rfl) (fun _ => rfl) (fun _ => id) rfl (fun _ _ => rfl)
      rfl (fun _ => rfl) accounts.drained
  | overflow source hopen hfull =>
    exact accounts.keep ledger (callers_conduct _ (by simp)) (fun _ => phase_conduct _ _ _ _)
      (fun _ => reply_conduct _ _ (by simp [Effect.settles])) (fun _ => woken_kept _ _ _) rfl
      (fun _ _ => congrArg (List.find? _) (served_conduct _ _)) rfl
      (fun _ => heardBy_conduct _ _ _ _)
      accounts.drained
  | post source hopen hroom =>
    exact accounts.keep ledger (callers_deliver t _ { source } rfl) (fun _ => phase_conduct _ _ _ _)
      (fun _ => reply_conduct _ _ (by simp [Effect.settles])) (fun _ => woken_kept _ _ _)
      (by simp [Actor.owed, Mailbox.enter, conduct])
      (fun _ _ => congrArg (List.find? _) (served_conduct _ _)) rfl
      (fun _ => heardBy_conduct _ _ _ _)
      (fun h => by cases (seats.closed.symm.trans hopen).symm.trans h)
  | enter c source mailbox hphase hsend =>
    obtain ⟨hclosed, -, hposting, hqueue⟩ := Mailbox.send_cases hsend
    obtain ⟨hnew, hunheard⟩ := accounts.asking hphase
    have hopen : t.actor.mailbox.closed = false := by simpa using hposting
    refine accounts.enter hnew (callers_deliver t _ { source, reply := some c } hqueue) ?_
      (fun d => ?_) (fun d => ?_) (fun d hd hwoken => ?_) hunheard (served_conduct _ _) rfl
      (fun d => heardBy_conduct _ _ _ _) (seats.closed.symm.trans hopen)
    · show (t.actor.service.bind (·.reply)).toList ++ mailbox.queue.filterMap (·.reply) = _
      rw [hqueue, if_pos rfl, List.filterMap_append, ← List.append_assoc]
      rfl
    · rw [phase_place, phase_conduct]
    · rw [reply_place, reply_conduct _ _ (by simp [Effect.settles])]
    · rw [woken_place _ hd]
      exact woken_kept t _ _ hwoken
  | wait c source mailbox hphase hsend =>
    obtain ⟨-, -, -, hqueue⟩ := Mailbox.send_cases hsend
    obtain ⟨hnew, hunheard⟩ := accounts.asking hphase
    have placed : t.Placed c (.sending source)
        ((t.conduct { t.actor with mailbox } []).place c (.sending source)) :=
      placed_conduct _ (by simp) (by simp) rfl hqueue rfl rfl
    refine accounts.place placed (fun h => absurd h hnew) (fun h => absurd (hsubset c h) hnew)
      (fun h => by cases h) (fun _ h => by cases h) fun d => ?_
    exact (heardBy_conduct _ _ _ _).trans (accounts.silent hunheard d)
  | refuse c source mailbox hphase hsend =>
    obtain ⟨-, -, -, hqueue⟩ := Mailbox.send_cases hsend
    obtain ⟨hnew, hunheard⟩ := accounts.asking hphase
    have hsilent : (t.conduct { t.actor with mailbox } []).heardBy c = [] := by
      rw [heardBy_conduct, accounts.heard, hunheard]
      rfl
    have placed : t.Placed c (.heard (.error t.actor.core.stopped))
        ((t.conduct { t.actor with mailbox } []).place c (.heard (.error t.actor.core.stopped))) :=
      placed_conduct _ (by simp) (by simp) rfl hqueue rfl rfl
    refine accounts.place (placed.hear _)
      (fun h => absurd h hnew) (fun h => absurd (hsubset c h) hnew) (fun h => by cases h)
      (fun result h => ?_) fun d => ?_
    · cases h
      rw [own_of_notMem ledger hnew]
      exact .untouched
    · refine (heardBy_hear _ hsilent d).trans ?_
      rw [heardBy_conduct]
      rfl
  | look c hphase hreply =>
    have howes := (accounts.expecting c hphase).resolve_right fun h => h.1 hreply
    have hunheard : (t.calls c).phase.result? = none := by rw [hphase]; rfl
    exact accounts.place (placed_place t c .expecting)
      (fun _ => ⟨(fun h => by cases h), fun _ h => by cases h⟩) (fun _ => .inl rfl)
      (fun _ => howes) (fun _ h => by cases h) (accounts.silent hunheard)
  | hear c result hphase hreply =>
    have hsilent : t.heardBy c = [] := by
      rw [accounts.heard, hphase]
      rfl
    have htrue : Verdict t.actor.core.name (t.own c) result :=
      accounts.truthful c result (.inr hreply)
    refine accounts.place ((placed_place t c (.heard result)).hear result)
      (fun _ => ⟨(fun h => by cases h), fun _ h => by cases h⟩) (fun h => ?_)
      (fun h => by cases h) (fun other h => ?_) (heardBy_hear result hsilent)
    · -- A call with an answer is not owed one.
      have hawaited := (accounts.owed c h).1
      rcases hreply with hreply | ⟨hreply, -⟩ <;> cases hawaited.symm.trans hreply
    · cases h
      exact htrue
  | giveUp c source hphase =>
    obtain ⟨hnew, hunheard⟩ := accounts.asking (.inr hphase)
    have placed : t.Placed c .dropped
        ((t.conduct { t.actor with mailbox := (t.actor.mailbox.abandon c).1 }
          ((t.actor.mailbox.abandon c).2.map Effect.reserve).toList).place c .dropped) :=
      placed_conduct _ (by simp) (by simp [Effect.settles]) rfl (Mailbox.queue_abandon _ _) rfl rfl
    refine accounts.place placed (fun h => absurd h hnew) (fun _ => .inr rfl)
      (fun h => by cases h) (fun _ h => by cases h) fun d => ?_
    exact (heardBy_conduct _ _ _ _).trans (accounts.silent hunheard d)
  | forgo c hphase =>
    have hunheard : (t.calls c).phase.result? = none := by rw [hphase]; rfl
    exact accounts.place (placed_place t c .dropped)
      (fun _ => ⟨(fun h => by cases h), fun _ h => by cases h⟩) (fun _ => .inr rfl)
      (fun h => by cases h) (fun _ h => by cases h) (accounts.silent hunheard)
  | serve request queue hidle hcancelled hqueue =>
    exact accounts_serve accounts ledger hidle hqueue rfl (Mailbox.queue_grant _) rfl rfl (by simp)
      (by simp [or_imp, forall_and, Effect.settles])
  | cut request queue hidle hqueue =>
    exact accounts_cut accounts ledger hidle hqueue rfl (Mailbox.queue_grant _) rfl rfl
  | deed service hservice deed =>
    exact accounts.keep ledger rfl (fun _ => rfl) (fun _ => rfl) (fun _ => id) rfl (fun _ _ => rfl)
      (by cases deed <;> rfl) (fun _ => rfl) accounts.drained
  | finish service result final hservice hfinal =>
    exact accounts_over accounts ledger hservice hfinal (isTold_told _) rfl rfl rfl
      (Chain.name_settle _ _ _ _)
  | next service state work hservice hcompleted hwork hcancelled =>
    exact accounts_next accounts ledger hservice rfl rfl rfl rfl rfl (by simp)
      (by simp [Effect.settles])
  | leave hidle => exact accounts_leave accounts ledger hidle
  | collapse service hservice => exact accounts_collapse accounts ledger hservice

theorem kept_run {slots : Nat} (seats : t.Seats slots) (ledger : t.Ledger) (accounts : t.Accounts)
    (moves : List Move) :
    (t.run moves).Seats slots ∧ (t.run moves).Ledger ∧ (t.run moves).Accounts := by
  refine run_induction (P := fun t => t.Seats slots ∧ t.Ledger ∧ t.Accounts) ?_
    ⟨seats, ledger, accounts⟩ moves
  rintro t t' ⟨seats, ledger, accounts⟩ hchange
  exact ⟨seats_change seats hchange, ledger_change seats ledger hchange,
    accounts_change seats ledger accounts hchange⟩

/-! ## 6. After the end -/

theorem served_change (ledger : t.Ledger) (hended : t.actor.ended = true) (h : t.Change t') :
    t'.served = t.served ∧ t'.actor.ended = true := by
  have hidle : ¬ t.idle = true := by simp [idle, hended]
  have hnone := ledger.ended hended
  cases h with
  | serve request queue h => exact absurd h hidle
  | cut request queue h => exact absurd h hidle
  | leave h => exact absurd h hidle
  | deed service h => cases h.symm.trans hnone
  | finish service result final h => cases h.symm.trans hnone
  | next service state work h => cases h.symm.trans hnone
  | collapse service h => cases h.symm.trans hnone
  | _ => exact ⟨by first | rfl | exact served_conduct _ _, hended⟩

theorem served_run {slots : Nat} (seats : t.Seats slots) (ledger : t.Ledger)
    (hended : t.actor.ended = true) (moves : List Move) : (t.run moves).served = t.served := by
  have hkept := run_induction
    (P := fun t' => t'.Seats slots ∧ t'.Ledger ∧ t'.actor.ended = true ∧ t'.served = t.served)
    ?_ ⟨seats, ledger, hended, rfl⟩ moves
  · exact hkept.2.2.2
  · rintro before after ⟨seats, ledger, hended, hserved⟩ hchange
    obtain ⟨hsame, hended'⟩ := served_change ledger hended hchange
    exact ⟨seats_change seats hchange, ledger_change seats ledger hchange, hended',
      hsame.trans hserved⟩

theorem own_unique (ledger : t.Ledger) (accounts : t.Accounts) (c : Nat) :
    (t.served.filter fun served => served.request.reply = some c).length ≤ 1 := by
  obtain ⟨unserved, booked, -⟩ := ledger.booked
  have hnodup := accounts.numbered
  rw [callers, booked.entered, List.filterMap_append, List.nodup_append,
    List.filterMap_map] at hnodup
  have hcount := List.nodup_iff_count_le_one.mp hnodup.2.1 c
  rw [List.count, List.countP_filterMap, List.countP_eq_length_filter] at hcount
  refine Nat.le_trans (Nat.le_of_eq (congrArg List.length (List.filter_congr ?_))) hcount
  intro served _
  cases h : served.request.reply <;> simp [h, Bool.beq_eq_decide_eq]

theorem phase_hear (t : Traffic) (c : Nat) (result : Except Failure Unit) :
    ((t.hear c result).calls c).phase = .heard result :=
  (phase_place _).trans (if_pos rfl)

/-- A call that asks a closed mailbox for a slot comes back. -/
theorem poll_sending {source : String} (hclosed : t.actor.mailbox.closed = true)
    (hphase : (t.calls c).phase = .sending source) :
    ((t.poll c).calls c).phase = .heard (.error t.actor.core.stopped) := by
  have hsend : t.actor.mailbox.send c { source, reply := some c } =
      (t.actor.mailbox.forget c, .closed) := by
    simp only [Mailbox.send, hclosed, if_true]
  simp only [poll, hphase, send, Actor.request, hsend]
  exact phase_hear _ c _

theorem poll_expecting (hphase : (t.calls c).phase = .expecting)
    (hreply : (t.calls c).reply ≠ .awaited) :
    ∃ result, ((t.poll c).calls c).phase = .heard result := by
  cases h : (t.calls c).reply with
  | awaited => exact absurd h hreply
  | answered result =>
    simp only [poll, hphase, h]
    exact ⟨result, phase_hear _ c _⟩
  | forgotten =>
    simp only [poll, hphase, h]
    exact ⟨_, phase_hear _ c _⟩

/-- Once the machine ended, every call that is still made comes back when it looks, and it was told
to look. -/
theorem poll_ended {slots : Nat} (seats : t.Seats slots) (ledger : t.Ledger)
    (accounts : t.Accounts) (hended : t.actor.ended = true)
    (hmade : (t.calls c).phase ≠ .unmade) (hheld : (t.calls c).phase ≠ .dropped) :
    ∃ result, ((t.poll c).calls c).phase = .heard result ∧
      ((t.calls c).phase = .heard result ∨ (t.calls c).woken = true) := by
  have hclosed : t.actor.mailbox.closed = true := seats.closed.trans hended
  have hnothing : t.actor.owed = [] := by
    rw [Actor.owed, ledger.ended hended, accounts.drained hended]
    rfl
  cases hphase : (t.calls c).phase with
  | unmade => exact absurd hphase hmade
  | dropped => exact absurd hphase hheld
  | heard result =>
    have hsame : t.poll c = t := by
      unfold poll
      rw [hphase]
    rw [hsame, hphase]
    exact ⟨result, rfl, .inl rfl⟩
  | sending source =>
    refine ⟨_, poll_sending hclosed hphase, .inr ?_⟩
    -- Nobody waits for a slot of a closed mailbox without having been told.
    rcases seats.seated c source hphase with hwaiting | ⟨hwoken, -⟩
    · rw [seats.orderly.unwaited hclosed] at hwaiting
      exact absurd hwaiting List.not_mem_nil
    · exact hwoken
  | expecting =>
    rcases accounts.expecting c hphase with howes | ⟨hreply, hwoken⟩
    · rw [hnothing] at howes
      exact absurd howes List.not_mem_nil
    · obtain ⟨result, hresult⟩ := poll_expecting hphase hreply
      exact ⟨result, hresult, .inr hwoken⟩

end Traffic

/-- A call that was not served, and one whose dispatch did not come back, hear that the machine
stopped. -/
theorem Verdict.of_unfinished {name : String} {own : Option Served} {result : Except Failure Unit}
    (verdict : Verdict name own result) (h : ∀ served, own = some served → served.running ≠ none) :
    result = .error (.machineStopped name) := by
  cases verdict with
  | done hran => exact absurd hran.idle (h _ rfl)
  | failed hfailed => exact absurd hfailed.1 (h _ rfl)
  | untouched => rfl
  | stopped hunfailed hunfinished => rfl

/-- Whatever is asked of a machine in whatever order, a call of a refresh has one service at most
and comes back at most once, with what is true of its service: it ran to its end, or its last
dispatch failed, or the machine stopped.  Once the machine ended it serves nobody any more, and
every call that is still made has come back or was told to look, and then comes back; the calls
that have no service, and the one whose dispatch did not come back, hear that the machine
stopped. -/
theorem refresh_answers_truthful (config : Config) (name initial : String) (hosted : Bool)
    (moves : List Traffic.Move) (c : Nat) :
    let t := (Traffic.start config name initial hosted).run moves
    (t.served.filter fun served => served.request.reply = some c).length ≤ 1 ∧
    (t.log.filterMap (Occurrence.heardBy c)).length ≤ 1 ∧
    (∀ result, .heard c result ∈ t.log → Verdict name (t.own c) result) ∧
    (t.actor.ended = true → (∀ more, (t.run more).served = t.served) ∧
      ((t.calls c).phase ≠ .unmade → (t.calls c).phase ≠ .dropped →
        ∃ result, ((t.step (.poll c)).calls c).phase = .heard result ∧
          ((t.calls c).phase = .heard result ∨ (t.calls c).woken = true) ∧
          Verdict name (t.own c) result ∧
          ((∀ served, t.own c = some served → served.running ≠ none) →
            result = .error (.machineStopped name)))) := by
  intro t
  have hstart := Traffic.seats_start config name initial hosted
  obtain ⟨seats, ledger, accounts⟩ := Traffic.kept_run hstart
    (Traffic.ledger_start config name initial hosted)
    (Traffic.accounts_start config name initial hosted) moves
  have hname : t.actor.core.name = name := Traffic.name_run _ moves
  have hheard : t.log.filterMap (Occurrence.heardBy c) = (t.calls c).phase.result?.toList :=
    accounts.heard c
  refine ⟨Traffic.own_unique ledger accounts c, ?_, fun result h => ?_, fun hended => ⟨?_, ?_⟩⟩
  · rw [hheard]
    cases (t.calls c).phase.result? <;> simp
  · have hmem : result ∈ t.log.filterMap (Occurrence.heardBy c) :=
      List.mem_filterMap.mpr ⟨_, h, if_pos rfl⟩
    rw [hheard, Option.mem_toList] at hmem
    have hphase : (t.calls c).phase = .heard result := by
      cases hp : (t.calls c).phase <;> rw [hp] at hmem <;> cases hmem
      rfl
    exact hname ▸ accounts.truthful c result (.inl hphase)
  · exact Traffic.served_run seats ledger hended
  · -- What it hears when it looks is a step of its own, and the verdict on it is true as well.
    intro hmade hheld
    obtain ⟨result, hphase, htold⟩ := Traffic.poll_ended seats ledger accounts hended hmade hheld
    have hchange : t.Change (t.poll c) := Traffic.change_poll c
    have hown : (t.poll c).own c = t.own c :=
      congrArg (List.find? _) (Traffic.served_change ledger hended hchange).1
    have hverdict : Verdict name (t.own c) result := by
      have htrue := (Traffic.accounts_change seats ledger accounts hchange).truthful c result
        (.inl hphase)
      rw [Traffic.name_change hchange, hname, hown] at htrue
      exact htrue
    exact ⟨result, hphase, htold, hverdict, hverdict.of_unfinished⟩

/-- A call in service and a call in the mailbox, when the logic panics. -/
theorem refresh_answers_truthful_panic :
    let t := (Traffic.start {} "m" "A" true).run
      [.call 0 "first", .turn false, .call 1 "second", .panic]
    t.actor.ended = true ∧ (t.own 0).isSome = true ∧ t.own 1 = none ∧
      ((t.step (.poll 0)).calls 0).phase = .heard (.error (.machineStopped "m")) ∧
      ((t.step (.poll 1)).calls 1).phase = .heard (.error (.machineStopped "m")) := by
  obtain ⟨-, -, -, h0⟩ := refresh_answers_truthful {} "m" "A" true
    [.call 0 "first", .turn false, .call 1 "second", .panic] 0
  obtain ⟨-, -, -, h1⟩ := refresh_answers_truthful {} "m" "A" true
    [.call 0 "first", .turn false, .call 1 "second", .panic] 1
  obtain ⟨r0, hr0, -, -, hstopped0⟩ := (h0 rfl).2 (fun h => by cases h) (fun h => by cases h)
  obtain ⟨r1, hr1, -, -, hstopped1⟩ := (h1 rfl).2 (fun h => by cases h) (fun h => by cases h)
  refine ⟨rfl, rfl, rfl, ?_, ?_⟩
  · rw [hr0, hstopped0]
    intro served h
    cases h
    intro h
    cases h
  · rw [hr1, hstopped1]
    intro served h
    cases h

end Sequencer
