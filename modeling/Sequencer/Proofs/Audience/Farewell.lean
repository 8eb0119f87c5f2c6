import Sequencer.Proofs.Audience.Absence

/-!
# Farewell — who still hears of a panic when a host shuts down

The panics of the observers are told on the bus, and the listener hands them on until it is over.
The observers go on after that: whatever waits for them is worked off, and a panic on it is told to
nobody any more.
-/

namespace Sequencer

namespace Relay

variable {x y : Relay} {names : List String} {history : List Turn} {handed : Nat → List Event}
  {i : Nat} {observer : Observer} {event : Event}

/-! ## 1. The end of the listener -/

/-- The listener comes to the event at the position `n` before it is over. -/
def Reaches (n : Nat) (x : Relay) : Prop :=
  n < x.published.length ∧ (x.audience.listening = .over → n < x.audience.cursor)

/-- A step of anybody else leaves the listener alone. -/
theorem listener_step (x : Relay) {move : Move} (h : move ≠ .listen) :
    (x.step move).audience.listening = x.audience.listening ∧
      (x.step move).audience.cursor = x.audience.cursor := by
  cases move with
  | publish event => exact ⟨rfl, rfl⟩
  | listen => exact absurd rfl h
  | take i =>
    rcases take_cases x i with hsame | ⟨observer, event, queue, -, -, htake⟩
    · simp only [step, hsame, and_self]
    · simp only [step, htake, and_self]
  | finish i => exact ⟨rfl, rfl⟩
  | panic i payload =>
    simp only [step, panic]
    split
    · exact ⟨rfl, rfl⟩
    · split <;> exact ⟨rfl, rfl⟩
  | request =>
    simp only [step]
    split <;> exact ⟨rfl, rfl⟩
  | conclude grace roster elapsed =>
    simp only [step]
    split <;> exact ⟨rfl, rfl⟩
  | silence =>
    simp only [step]
    split <;> exact ⟨rfl, rfl⟩
  | dismiss =>
    simp only [step]
    split <;> exact ⟨rfl, rfl⟩
  | comeBack =>
    simp only [step]
    split
    · split <;> exact ⟨rfl, rfl⟩
    · exact ⟨rfl, rfl⟩

theorem listener_offer (x : Relay) (event : Event) (i : Nat) :
    (x.offer event i).audience.listening = x.audience.listening ∧
      (x.offer event i).audience.cursor = x.audience.cursor := by
  unfold offer
  split
  · exact ⟨rfl, rfl⟩
  · split <;> exact ⟨rfl, rfl⟩

/-- Once the listener is over it never looks at the bus again. -/
theorem over_run (moves : List Move) (hover : x.audience.listening = .over) :
    (x.run moves).audience.listening = .over ∧
      (x.run moves).audience.cursor = x.audience.cursor := by
  have hstep : ∀ (y : Relay) (move : Move), y.audience.listening = .over →
      (y.step move).audience.listening = .over ∧
        (y.step move).audience.cursor = y.audience.cursor := by
    intro y move h
    by_cases hmove : move = .listen
    · subst hmove
      simp only [step, listen]
      split
      · simp only [hear, h, and_self]
      · exact ⟨(listener_offer y _ _).1.trans h, (listener_offer y _ _).2⟩
    · exact ⟨(listener_step y hmove).1.trans h, (listener_step y hmove).2⟩
  induction moves generalizing x with
  | nil => exact ⟨hover, rfl⟩
  | cons move moves ih =>
    obtain ⟨hnext, hcursor⟩ := hstep x move hover
    obtain ⟨hlast, hlater⟩ := ih hnext
    exact ⟨hlast, hlater.trans hcursor⟩

theorem reaches_hear {n : Nat} (delivers : x.Delivers names) (h : x.Reaches n) :
    x.hear.Reaches n := by
  unfold hear
  split
  · exact h
  · exact ⟨h.1, nofun⟩
  · next hover _ =>
    rw [Ring.receive_of_keeps delivers.bus]
    split
    · exact ⟨h.1, fun hnext => absurd hnext hover⟩
    · split
      · exact ⟨h.1, fun hnext => absurd hnext hover⟩
      · next hnothing =>
        simp only [find]
        split
        · exact h
        · -- It is over because it has come to the end of what was published.
          refine ⟨h.1, fun _ => ?_⟩
          exact Nat.lt_of_lt_of_le h.1 (List.getElem?_eq_none_iff.mp hnothing)

theorem reaches_run {n : Nat} (delivers : x.Delivers names) (winds : x.Winds) (h : x.Reaches n)
    (moves : List Move) : (x.run moves).Reaches n := by
  induction moves generalizing x with
  | nil => exact h
  | cons move moves ih =>
    refine ih (x := x.step move) (delivers_step delivers move) (winds_step winds delivers move) ?_
    by_cases hmove : move = .listen
    · subst hmove
      simp only [step, listen]
      split
      · exact reaches_hear delivers h
      · next event i hoffering =>
        obtain ⟨hlistening, hcursor⟩ := listener_offer x event i
        have hlonger := (published_listen x).length_le
        rw [listen_offering hoffering] at hlonger
        refine ⟨Nat.lt_of_lt_of_le h.1 hlonger, ?_⟩
        rw [hlistening, hcursor]
        exact h.2
    · obtain ⟨hlistening, hcursor⟩ := listener_step x hmove
      refine ⟨Nat.lt_of_lt_of_le h.1 (published_step x move).length_le, ?_⟩
      rw [hlistening, hcursor]
      exact h.2

/-! ## 2. A shutdown that has come back -/

theorem endure_append (x : Relay) (turns more : List Turn) :
    x.endure (turns ++ more) = (x.endure turns).endure more :=
  List.foldl_append

theorem overflows_append (x : Relay) (turns more : List Turn) :
    x.overflows (turns ++ more) = x.overflows turns ++ (x.endure turns).overflows more := by
  induction turns generalizing x with
  | nil => rfl
  | cons turn turns ih =>
    show (x.overflow? turn).toList ++ (x.turn turn).overflows (turns ++ more) = _
    rw [ih, ← List.append_assoc]
    rfl

/-- A shutdown that has come back finds the observers that are not gone with whatever the listener
has come to. -/
theorem Kept.returned (kept : x.Kept names history handed) {through : Nat}
    (hreturned : x.standing = .returned through) (hnever : x.lagged = false) :
    x.audience.listening = .over ∧ through ≤ x.audience.cursor ∧
      ∀ i name, names[i]? = some name → .collapse i ∉ history →
        x.handed i = meantFor name (x.published.take x.audience.cursor) := by
  have hthrough : (x.revived handed).standing.through? = some through := by
    show x.standing.through? = _
    rw [hreturned]
    rfl
  have hover : x.audience.listening = .over := kept.winds.dismissed (by
    show x.standing.isDismissed = true
    rw [hreturned]
    rfl)
  obtain ⟨hidle, hcursor⟩ := kept.winds.ended hover
  refine ⟨hover, hcursor through hthrough, fun i name hname hthere => ?_⟩
  obtain ⟨observer, hplace, rfl⟩ := kept.name hname
  have halive : observer.alive = true := by
    by_contra hdead
    exact hthere (kept.veiled.gone i observer hplace (Bool.eq_false_iff.mpr hdead)).1
  have hother := getElem?_revived handed hplace
  have hwhole := kept.delivers.whole hnever rfl i observer.revive hother
  rw [kept.winds.finished through hreturned observer.revive (List.mem_of_getElem? hother),
    List.append_nil, reached_idle hidle] at hwhole
  rw [← kept.veiled.agrees i observer hplace halive]
  exact hwhole

theorem published_panic {payload : Payload} (hplace : x.audience.observers[i]? = some observer)
    (hbusy : x.busy i = some event) (hordinary : event.isReport = false) :
    (x.panic i payload).published =
      x.published ++ [.panicOf observer.name payload.reason] := by
  simp only [panic, hbusy, hplace, Option.bind_some, Observer.panicReport?, hordinary]
  rfl

/-- Whether the listener comes to what is published next depends on whether it is over by now. -/
theorem Kept.reaches (kept : x.Kept names history handed) {turn : Turn} {turns : List Turn}
    (hroom : x.overflows (turn :: turns) = [])
    (hgrown : x.published.length < (x.turn turn).published.length)
    (hlistening : (x.turn turn).audience.listening = x.audience.listening)
    (hover : (x.endure (turn :: turns)).audience.listening = .over) :
    x.published.length < (x.endure (turn :: turns)).audience.cursor ↔
      x.audience.listening ≠ .over := by
  constructor
  · intro hlt hended
    obtain ⟨moves, handed', hmoves, -⟩ := kept.endure (turn :: turns) hroom
    have hcursor := (over_run (x := x.revived handed) moves hended).2
    rw [hmoves] at hcursor
    have hle : x.audience.cursor ≤ x.published.length := kept.delivers.cursor
    have hsame : (x.endure (turn :: turns)).audience.cursor = x.audience.cursor := hcursor
    omega
  · intro hlive
    obtain ⟨hnow, hlater⟩ := List.append_eq_nil_iff.mp hroom
    have hnow : x.overflows [turn] = [] := by
      rw [overflows, hnow]
      rfl
    obtain ⟨-, handed', -, hnext⟩ := kept.endure [turn] hnow
    obtain ⟨moves, handed'', hmoves, -⟩ := hnext.endure turns hlater
    have hreaches : ((x.turn turn).revived handed').Reaches x.published.length :=
      ⟨hgrown, fun h => absurd (hlistening.symm.trans h) hlive⟩
    have hlast := reaches_run hnext.delivers hnext.winds hreaches moves
    exact (hmoves ▸ hlast).2 hover

end Relay

/-- Whatever happens on a host, whichever of its observers are slow, panic or are gone: if the
listener never fell behind its bus and no queue overflowed, then a shutdown that has come back finds
every observer that is not gone with whatever was published until the listener was over, the verdict
of the shutdown and everything before it included, except what is about the observer itself.

So the report of a panic at work is published at once, and it has been handed to everybody else if
the listener was not yet over when the observer panicked.  That is so at any rate until the shutdown
tells the listener to stop.  A report that is published after the end of the listener is handed to
nobody, although the observers are still at work on what was queued for them before, and although
the shutdown waits for them. -/
theorem panic_reports_end_with_listener (config : Config) (seats : List (String × Nat))
    (turns : List Relay.Turn) (through : Nat) :
    let start := Relay.start config seats
    let x := start.endure turns
    x.standing = .returned through → x.lagged = false → start.overflows turns = [] →
    ∃ reached, through ≤ reached ∧
      (∀ i seat, seats[i]? = some seat → .collapse i ∉ turns →
        x.handed i = (x.published.take reached).filter
          fun event => ¬ (event.isReport = true ∧ event.name = some seat.1)) ∧
      ∀ before j payload later event seat,
        turns = before ++ .move (.panic j payload) :: later → seats[j]? = some seat →
        let w := start.endure before
        w.busy j = some event → event.isReport = false →
        x.published[w.published.length]? = some (.panicOf seat.1 payload.reason) ∧
        (w.published.length < reached ↔ w.audience.listening ≠ .over) ∧
        (w.standing.isSilent = false → w.audience.listening ≠ .over) ∧
        (w.audience.listening ≠ .over → ∀ i other, seats[i]? = some other →
          .collapse i ∉ turns → other.1 ≠ seat.1 →
          .panicOf seat.1 payload.reason ∈ x.handed i) := by
  intro start x hreturned hnever hroom
  have hstart := Relay.kept_start config seats
  obtain ⟨-, handed, -, hkept⟩ := hstart.endure turns hroom
  rw [List.nil_append] at hkept
  obtain ⟨hover, hthrough, hhanded⟩ := hkept.returned hreturned hnever
  have hmeant : ∀ i seat, seats[i]? = some seat → .collapse i ∉ turns →
      x.handed i = (x.published.take x.audience.cursor).filter
        fun event => ¬ (event.isReport = true ∧ event.name = some seat.1) := by
    intro i seat hseat hthere
    rw [hhanded i seat.1 (by rw [List.getElem?_map, hseat]; rfl) hthere]
    apply List.filter_congr
    intro event _
    simp [Event.about?_iff]
  refine ⟨x.audience.cursor, hthrough, hmeant, ?_⟩
  intro before j payload later event seat hturns hseat w hbusy hordinary
  have hsplit : x = w.endure (.move (.panic j payload) :: later) := by
    rw [← Relay.endure_append, ← hturns]
  rw [hturns, Relay.overflows_append] at hroom
  obtain ⟨hbefore, hlater⟩ := List.append_eq_nil_iff.mp hroom
  obtain ⟨-, handed', -, hw⟩ := hstart.endure before hbefore
  have hnames : (seats.map (·.1))[j]? = some seat.1 := by
    rw [List.getElem?_map, hseat]
    rfl
  obtain ⟨observer, hplace, hname⟩ := hw.name hnames
  have hpanic : (w.step (.panic j payload)).published =
      w.published ++ [.panicOf seat.1 payload.reason] := by
    rw [← hname]
    exact Relay.published_panic hplace hbusy hordinary
  have hreport : x.published[w.published.length]? =
      some (.panicOf seat.1 payload.reason) := by
    obtain ⟨rest, hrest⟩ := Relay.published_endure (w.step (.panic j payload)) later
    have hpublished : w.published ++ [.panicOf seat.1 payload.reason] ++ rest = x.published := by
      rw [← hpanic, hsplit]
      exact hrest
    rw [← hpublished, List.append_assoc, List.getElem?_append_right (Nat.le_refl _), Nat.sub_self]
    rfl
  have hreaches : w.published.length < x.audience.cursor ↔ w.audience.listening ≠ .over := by
    have hgrown : w.published.length < (w.step (.panic j payload)).published.length := by
      rw [hpanic, List.length_append]
      exact Nat.lt_succ_self _
    have hended : x.audience.listening = .over := hover
    rw [hsplit] at hended ⊢
    have hother : Relay.Move.panic j payload ≠ .listen := nofun
    have hlistening := (Relay.listener_step w hother).1
    exact hw.reaches hlater hgrown hlistening hended
  refine ⟨hreport, hreaches, ?_, ?_⟩
  · intro hrunning hended
    have hlistening : w.audience.listening ≠ .live := by
      rw [hended]
      exact nofun
    cases hrunning.symm.trans (hw.winds.draining hlistening)
  · intro hlive i other hother hthere hdiffers
    rw [hmeant i other hother hthere, List.mem_filter]
    constructor
    · apply List.mem_of_getElem? (i := w.published.length)
      rw [List.getElem?_take_of_lt (hreaches.mpr hlive)]
      exact hreport
    · apply decide_eq_true
      rintro ⟨-, hsame⟩
      exact hdiffers (Option.some.inj hsame).symm

/-- An observer that panics on the first event of a shutdown while the listener is at work, and on
its last one once the listener is over.  The other one is told of the first panic only. -/
theorem panic_reports_end_with_listener_twice :
    let turns : List Relay.Turn :=
      [.move .request] ++ List.replicate 4 (.move .listen) ++
        [.move (.take 0), .move (.panic 0 (.text "boom")),
          .move (.conclude .zero { tracker := { settled := true } } false), .move .silence] ++
        List.replicate 10 (.move .listen) ++
        [.move .dismiss, .move (.take 0), .move (.panic 0 (.text "bang"))] ++
        (List.replicate 3 [.move (.take 1), .move (.finish 1)]).flatten ++ [.move .comeBack]
    let x := (Relay.start {} [("a", 2), ("b", 3)]).endure turns
    x.published = [Shutdown.requestedEvent, .panicOf "a" "boom", Shutdown.inTime.event,
        .panicOf "a" "bang"] ∧
      x.handed 1 = [Shutdown.requestedEvent, .panicOf "a" "boom", Shutdown.inTime.event] := by
  intro turns x
  have hpublished : x.published = [Shutdown.requestedEvent, .panicOf "a" "boom",
      Shutdown.inTime.event, .panicOf "a" "bang"] := by decide +kernel
  obtain ⟨reached, hthrough, hhanded, hpanics⟩ :=
    panic_reports_end_with_listener {} [("a", 2), ("b", 3)] turns 3
      (by decide +kernel) (by decide +kernel) (by decide +kernel)
  -- The listener is over before the second panic, so that it never comes to the report of it.
  obtain ⟨-, hreached, -, -⟩ := hpanics (turns.take 21) 0 (.text "bang") (turns.drop 22)
    Shutdown.inTime.event ("a", 2) rfl rfl (by decide +kernel) rfl
  have hlength : ((Relay.start {} [("a", 2), ("b", 3)]).endure (turns.take 21)).published.length =
      3 := by decide +kernel
  have hlast : ¬ 3 < reached := by
    intro hlt
    exact hreached.mp (by rwa [hlength]) (by decide +kernel)
  obtain rfl : reached = 3 := by omega
  refine ⟨hpublished, (hhanded 1 ("b", 3) rfl (by simp [turns])).trans ?_⟩
  rw [hpublished]
  decide +kernel

end Sequencer
