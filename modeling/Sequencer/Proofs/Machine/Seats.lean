import Sequencer.Proofs.Machine.Change

/-!
# Seats — the calls that wait for a slot, and the senders of the mailbox

The senders of the mailbox are the calls that wait for a slot, and no others.  A call whose slot is
reserved was told so, and so was one that waits for a mailbox that is closed: each of them looks
again.
-/

namespace Sequencer

/-! ## 1. What effects do to a call -/

namespace Effect

variable {c : Nat} {call : Call}

def wakes (c : Nat) : Effect → Bool
  | answer d _ => d = c
  | forget d => d = c
  | reserve d => d = c
  | refuse d => d = c
  | _ => false

theorem phase_reach (effect : Effect) : (reach c call effect).phase = call.phase := by
  cases effect <;> simp only [reach] <;> split <;> rfl

theorem woken_reach (effect : Effect) :
    (reach c call effect).woken = (call.woken || effect.wakes c) := by
  cases effect <;> simp only [reach, wakes, Bool.or_false] <;> split <;> simp [*]

end Effect

namespace Traffic

variable {t t' : Traffic} {actor : Actor} {effects : List Effect} {c d : Nat}

@[simp] theorem phase_conduct (t : Traffic) (actor : Actor) (effects : List Effect) (c : Nat) :
    ((t.conduct actor effects).calls c).phase = (t.calls c).phase := by
  show (effects.foldl (Effect.reach c) (t.calls c)).phase = _
  generalize t.calls c = call
  induction effects generalizing call with
  | nil => rfl
  | cons effect effects ih => rw [List.foldl_cons, ih, Effect.phase_reach]

@[simp] theorem woken_conduct (t : Traffic) (actor : Actor) (effects : List Effect) (c : Nat) :
    ((t.conduct actor effects).calls c).woken =
      ((t.calls c).woken || effects.any (Effect.wakes c)) := by
  show (effects.foldl (Effect.reach c) (t.calls c)).woken = _
  generalize t.calls c = call
  induction effects generalizing call with
  | nil => simp
  | cons effect effects ih =>
    rw [List.foldl_cons, ih, Effect.woken_reach, List.any_cons, Bool.or_assoc]

theorem woken_kept (t : Traffic) (actor : Actor) (effects : List Effect)
    (h : (t.calls c).woken = true) : ((t.conduct actor effects).calls c).woken = true := by
  rw [woken_conduct, h, Bool.true_or]

theorem woken_told {effect : Effect} (hmem : effect ∈ effects) (h : effect.wakes c = true) :
    ((t.conduct actor effects).calls c).woken = true := by
  rw [woken_conduct, List.any_eq_true.mpr ⟨effect, hmem, h⟩, Bool.or_true]

theorem phase_place (phase : Phase) :
    ((t.place c phase).calls d).phase = if d = c then phase else (t.calls d).phase := by
  simp only [place]
  split <;> rfl

theorem woken_place (phase : Phase) (h : d ≠ c) :
    ((t.place c phase).calls d).woken = (t.calls d).woken := by
  simp only [place, if_neg h]

/-! ## 2. Seats -/

/-- The senders of the mailbox are the calls that wait for a slot, and each of them will be told
when it has one.  The mailbox is open as long as it has its actor. -/
structure Seats (slots : Nat) (t : Traffic) : Prop where
  orderly : t.actor.mailbox.Orderly
  capacity : t.actor.mailbox.capacity = slots
  closed : t.actor.mailbox.closed = t.actor.ended
  sending : ∀ c, c ∈ t.actor.mailbox.granted ∨ c ∈ t.actor.mailbox.waiting →
    ∃ source, (t.calls c).phase = .sending source
  seated : ∀ c source, (t.calls c).phase = .sending source → c ∈ t.actor.mailbox.waiting ∨
    (t.calls c).woken = true ∧
      (c ∈ t.actor.mailbox.granted ∨ t.actor.mailbox.closed = true)

variable {slots : Nat}

theorem seats_start (config : Config) (name initial : String) (hosted : Bool) :
    Seats config.mailboxSlots (start config name initial hosted) where
  orderly := ⟨Nat.zero_le _, List.nodup_nil, fun _ => rfl⟩
  capacity := rfl
  closed := rfl
  sending _ h := by simp [start, Actor.ofState] at h
  seated _ _ h := by cases h

/-- Some senders stay, and a slot is perhaps reserved for one of those that waited. -/
theorem Seats.move (seats : t.Seats slots) (stays : Nat → Prop) (reserved : Option Nat)
    (hreserved : ∀ d, reserved = some d → stays d ∧ d ∈ t.actor.mailbox.waiting)
    (horderly : t'.actor.mailbox.Orderly)
    (hcapacity : t'.actor.mailbox.capacity = t.actor.mailbox.capacity)
    (hclosed : t'.actor.mailbox.closed = t.actor.mailbox.closed)
    (hended : t'.actor.ended = t.actor.ended)
    (hgranted : ∀ d, d ∈ t'.actor.mailbox.granted ↔
      stays d ∧ d ∈ t.actor.mailbox.granted ∨ reserved = some d)
    (hwaiting : ∀ d, d ∈ t'.actor.mailbox.waiting ↔
      (stays d ∧ d ∈ t.actor.mailbox.waiting) ∧ reserved ≠ some d)
    (hcalls : ∀ d source, (t'.calls d).phase = .sending source ↔
      stays d ∧ (t.calls d).phase = .sending source)
    (hwoken : ∀ d, stays d → (t.calls d).woken = true ∨ reserved = some d →
      (t'.calls d).woken = true) : t'.Seats slots where
  orderly := horderly
  capacity := hcapacity.trans seats.capacity
  closed := by rw [hclosed, hended, seats.closed]
  sending d h := by
    have hbefore : stays d ∧ (d ∈ t.actor.mailbox.granted ∨ d ∈ t.actor.mailbox.waiting) := by
      rw [hgranted, hwaiting] at h
      rcases h with (⟨hstays, h⟩ | h) | ⟨⟨hstays, h⟩, -⟩
      · exact ⟨hstays, .inl h⟩
      · exact ⟨(hreserved d h).1, .inr (hreserved d h).2⟩
      · exact ⟨hstays, .inr h⟩
    obtain ⟨source, hphase⟩ := seats.sending d hbefore.2
    exact ⟨source, (hcalls d source).mpr ⟨hbefore.1, hphase⟩⟩
  seated d source h := by
    obtain ⟨hstays, hphase⟩ := (hcalls d source).mp h
    rw [hgranted, hwaiting, hclosed]
    -- The call that gets the slot is told now; the others were told before, or still wait.
    by_cases hd : reserved = some d
    · exact .inr ⟨hwoken d hstays (.inr hd), .inl (.inr hd)⟩
    · refine (seats.seated d source hphase).imp (fun hmem => ⟨⟨hstays, hmem⟩, hd⟩) ?_
      rintro ⟨hwas, hslot⟩
      exact ⟨hwoken d hstays (.inl hwas), hslot.imp_left fun hmem => .inl ⟨hstays, hmem⟩⟩

/-- No sender goes or comes. -/
theorem Seats.keep (seats : t.Seats slots) (horderly : t'.actor.mailbox.Orderly)
    (hcapacity : t'.actor.mailbox.capacity = t.actor.mailbox.capacity)
    (hclosed : t'.actor.mailbox.closed = t.actor.mailbox.closed)
    (hended : t'.actor.ended = t.actor.ended)
    (hgranted : t'.actor.mailbox.granted = t.actor.mailbox.granted)
    (hwaiting : t'.actor.mailbox.waiting = t.actor.mailbox.waiting)
    (hcalls : ∀ d source,
      (t'.calls d).phase = .sending source ↔ (t.calls d).phase = .sending source)
    (hwoken : ∀ d, (t.calls d).woken = true → (t'.calls d).woken = true) : t'.Seats slots := by
  refine seats.move (fun _ => True) none (fun _ h => by cases h) horderly hcapacity hclosed hended
    ?_ ?_ ?_ ?_
  · simp [hgranted]
  · simp [hwaiting]
  · simpa using hcalls
  · simpa using hwoken

/-- The mailbox closes, and those that waited are told. -/
theorem Seats.close (seats : t.Seats slots)
    (hmailbox : actor.mailbox = t.actor.mailbox.close.1.drain.2)
    (hended : actor.ended = true)
    (htold : ∀ d ∈ t.actor.mailbox.waiting, Effect.refuse d ∈ effects) :
    (t.conduct actor effects).Seats slots where
  orderly := by
    show actor.mailbox.Orderly
    rw [hmailbox]
    exact Mailbox.orderly_close seats.orderly
  capacity := by
    show actor.mailbox.capacity = slots
    rw [hmailbox]
    exact seats.capacity
  closed := by
    show actor.mailbox.closed = actor.ended
    rw [hmailbox, hended]
    rfl
  sending d h := by
    have hbefore : d ∈ t.actor.mailbox.granted := by
      rcases h with h | h
      · exact (congrArg Mailbox.granted hmailbox) ▸ h
      · exact absurd ((congrArg Mailbox.waiting hmailbox) ▸ h) List.not_mem_nil
    obtain ⟨source, hphase⟩ := seats.sending d (.inl hbefore)
    exact ⟨source, (phase_conduct t actor effects d).trans hphase⟩
  seated d source h := by
    rw [phase_conduct] at h
    refine .inr ⟨?_, .inr (congrArg Mailbox.closed hmailbox)⟩
    -- Those that waited are told now, and those with a reserved slot were told before.
    rcases seats.seated d source h with hmem | ⟨hwoken, -⟩
    · exact woken_told (htold d hmem) (decide_eq_true rfl)
    · exact woken_kept t actor effects hwoken

/-- A call asks for a place, and is told what becomes of it. -/
theorem Seats.send (seats : t.Seats slots) {source : String} {mailbox : Mailbox Request}
    {posting : Posting} (phase : Phase)
    (h : t.actor.mailbox.send c { source, reply := some c } = (mailbox, posting))
    (hmailbox : t'.actor.mailbox = mailbox) (hended : t'.actor.ended = t.actor.ended)
    (hphase : (t'.calls c).phase = phase) (hfull : posting = .full → phase = .sending source)
    (hgone : posting ≠ .full → ∀ source, phase ≠ .sending source)
    (hcalls : ∀ d, d ≠ c → (t'.calls d).phase = (t.calls d).phase)
    (hwoken : ∀ d, d ≠ c → (t'.calls d).woken = (t.calls d).woken) : t'.Seats slots := by
  obtain ⟨hclosed, hcapacity, -, -⟩ := Mailbox.send_cases h
  have hgranted := fun d => (Mailbox.mem_senders_send seats.orderly h d).1
  have hwaiting := fun d => (Mailbox.mem_senders_send seats.orderly h d).2
  rw [← hmailbox] at hclosed hcapacity hgranted hwaiting
  refine ⟨hmailbox ▸ Mailbox.orderly_send seats.orderly h, hcapacity.trans seats.capacity,
    ?_, ?_, ?_⟩
  · rw [hclosed, hended, seats.closed]
  · intro d hd
    by_cases hdc : d = c
    · subst hdc
      -- Among the senders it is only if it was told to wait.
      have hposting : posting = .full := by
        by_contra hposting
        rw [hgranted, hwaiting] at hd
        simp [hposting] at hd
      exact ⟨source, hphase.trans (hfull hposting)⟩
    · rw [hgranted, hwaiting] at hd
      rw [hcalls d hdc]
      exact seats.sending d (by simpa [hdc] using hd)
  · intro d other hd
    rw [hgranted, hwaiting, hclosed]
    by_cases hdc : d = c
    · subst hdc
      have hposting : posting = .full := by
        by_contra hposting
        exact hgone hposting other (hphase.symm.trans hd)
      exact .inl (.inl ⟨rfl, hposting⟩)
    · rw [hcalls d hdc] at hd
      rw [hwoken d hdc]
      simpa [hdc] using seats.seated d other hd

/-! ## 3. Runs -/

theorem Seats.conduct (seats : t.Seats slots) (horderly : actor.mailbox.Orderly)
    (hcapacity : actor.mailbox.capacity = t.actor.mailbox.capacity)
    (hclosed : actor.mailbox.closed = t.actor.mailbox.closed) (hended : actor.ended = t.actor.ended)
    (hgranted : actor.mailbox.granted = t.actor.mailbox.granted)
    (hwaiting : actor.mailbox.waiting = t.actor.mailbox.waiting) :
    (t.conduct actor effects).Seats slots := by
  refine seats.keep horderly hcapacity hclosed hended hgranted hwaiting ?_ ?_
  · intro d source
    rw [phase_conduct]
  · exact fun d hwoken => woken_kept t actor effects hwoken

/-- The slot of the oldest request goes to the first sender that waits. -/
theorem Seats.take (seats : t.Seats slots) {request : Request} {queue : List Request}
    (hqueue : t.actor.mailbox.queue = request :: queue)
    (hmailbox : actor.mailbox = (t.taken queue).1)
    (hended : actor.ended = t.actor.ended)
    (htold : ∀ d, (t.taken queue).2 = some d → Effect.reserve d ∈ effects) :
    (t.conduct actor effects).Seats slots := by
  -- The slot that becomes free goes to the first call that waits, and everybody else stays.
  obtain ⟨horderly, hroom⟩ := Mailbox.orderly_take seats.orderly hqueue
  refine seats.move (fun _ => True) (t.taken queue).2
    (fun d h => ⟨trivial, (Mailbox.waiting_of_grant h :)⟩) ?_ ?_ ?_ hended ?_ ?_ ?_ ?_
  · exact hmailbox ▸ Mailbox.orderly_grant horderly hroom
  · exact (congrArg Mailbox.capacity hmailbox).trans (Mailbox.capacity_grant _)
  · exact (congrArg Mailbox.closed hmailbox).trans (Mailbox.closed_grant _)
  · intro d
    show d ∈ actor.mailbox.granted ↔ _
    rw [hmailbox, true_and]
    exact (Mailbox.mem_senders_grant horderly).1
  · intro d
    show d ∈ actor.mailbox.waiting ↔ _
    rw [hmailbox, true_and]
    exact (Mailbox.mem_senders_grant horderly).2
  · intro d source
    rw [phase_conduct, true_and]
  · intro d _ h
    rcases h with hwoken | hreserved
    · exact woken_kept t actor effects hwoken
    · exact woken_told (htold d hreserved) (decide_eq_true rfl)

theorem Seats.record {o : Occurrence} (seats : t.Seats slots) : (t.record o).Seats slots :=
  seats.keep seats.orderly rfl rfl rfl rfl rfl (fun _ _ => Iff.rfl) fun _ => id

/-- A call looks and does not wait for a slot, neither before nor afterwards. -/
theorem Seats.place (seats : t.Seats slots) (phase : Phase)
    (hbefore : ∀ source, (t.calls c).phase ≠ .sending source)
    (hafter : ∀ source, phase ≠ .sending source) : (t.place c phase).Seats slots where
  orderly := seats.orderly
  capacity := seats.capacity
  closed := seats.closed
  sending d h := by
    obtain ⟨source, hphase⟩ := seats.sending d h
    have hdc : d ≠ c := fun hdc => hbefore source (hdc ▸ hphase)
    exact ⟨source, by rw [phase_place, if_neg hdc, hphase]⟩
  seated d source h := by
    have hdc : d ≠ c := by
      rintro rfl
      rw [phase_place, if_pos rfl] at h
      exact hafter source h
    rw [phase_place, if_neg hdc] at h
    rw [woken_place phase hdc]
    exact seats.seated d source h

theorem seats_change (seats : t.Seats slots) (h : t.Change t') : t'.Seats slots := by
  cases h with
  | nothing => exact seats
  | cancel => exact seats.keep seats.orderly rfl rfl rfl rfl rfl (fun _ _ => Iff.rfl) fun _ => id
  | overflow source hopen hfull => exact seats.conduct seats.orderly rfl rfl rfl rfl rfl
  | post source hopen hroom =>
    exact seats.conduct (Mailbox.orderly_enter _ seats.orderly hroom) rfl rfl rfl rfl rfl
  | enter c source mailbox hphase hsend =>
    refine seats.send .expecting hsend rfl rfl ?_ (fun h => by cases h)
      (fun _ _ h => by cases h) ?_ ?_
    · rw [phase_place, if_pos rfl]
    · intro d hdc
      rw [phase_place, if_neg hdc, phase_conduct]
    · intro d hdc
      rw [woken_place _ hdc, woken_conduct]
      simp [Effect.wakes]
  | wait c source mailbox hphase hsend =>
    refine seats.send (.sending source) hsend rfl rfl ?_ (fun _ => rfl) (absurd rfl) ?_ ?_
    · rw [phase_place, if_pos rfl]
    · intro d hdc
      rw [phase_place, if_neg hdc, phase_conduct]
    · intro d hdc
      rw [woken_place _ hdc, woken_conduct]
      simp
  | refuse c source mailbox hphase hsend =>
    refine seats.send (.heard (.error t.actor.core.stopped)) hsend rfl rfl ?_
      (fun h => by cases h) (fun _ _ h => by cases h) ?_ ?_
    · exact (phase_place _).trans (if_pos rfl)
    · intro d hdc
      exact ((phase_place _).trans (if_neg hdc)).trans (phase_conduct _ _ _ _)
    · intro d hdc
      exact (woken_place _ hdc).trans (by simp)
  | look c hphase hreply => exact seats.place .expecting (by simp [hphase]) (fun _ h => by cases h)
  | hear c result hphase hreply =>
    exact (seats.place (.heard result) (by simp [hphase]) (fun _ h => by cases h)).record
  | giveUp c source hphase =>
    have orderly := seats.orderly
    refine seats.move (· ≠ c) (t.actor.mailbox.abandon c).2
      (fun d => Mailbox.waiting_of_abandon orderly) (Mailbox.orderly_abandon c orderly)
      (Mailbox.capacity_abandon _ c) (Mailbox.closed_abandon _ c) rfl
      (fun d => (Mailbox.mem_senders_abandon orderly).1)
      (fun d => (Mailbox.mem_senders_abandon orderly).2) ?_ ?_
    · intro d source
      rw [phase_place, phase_conduct]
      split <;> simp [*]
    · intro d hdc h
      rw [woken_place _ hdc, woken_conduct]
      rcases h with hwoken | hreserved
      · rw [hwoken, Bool.true_or]
      · simp [hreserved, Effect.wakes]
  | forgo c hphase => exact seats.place .dropped (by simp [hphase]) (fun _ h => by cases h)
  | serve request queue hidle hcancelled hqueue =>
    exact Seats.record (Seats.take seats.record hqueue rfl rfl (by
      simp +contextual [taken, record]))
  | cut request queue hidle hqueue =>
    -- The cancellation comes first and moves nobody.
    have hcut : { t with cancelled := true }.Seats slots :=
      seats.keep seats.orderly rfl rfl rfl rfl rfl (fun _ _ => Iff.rfl) fun _ => id
    exact Seats.take hcut.record hqueue rfl rfl (by simp +contextual [taken, record])
  | deed service hservice deed =>
    exact seats.keep seats.orderly rfl rfl rfl rfl rfl (fun _ _ => Iff.rfl) fun _ => id
  | finish service result final hservice hfinal =>
    exact Seats.conduct seats.record seats.orderly rfl rfl rfl rfl rfl
  | next service state work hservice hcompleted hwork hcancelled =>
    exact Seats.record (Seats.conduct seats.record seats.orderly rfl rfl rfl rfl rfl)
  | leave hidle => exact seats.close rfl rfl (by simp [Actor.leave, Mailbox.close])
  | collapse service hservice =>
    exact seats.close rfl rfl (by simp +contextual [Actor.collapse, Mailbox.close])

end Traffic

end Sequencer
