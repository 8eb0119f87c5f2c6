import Mathlib.Logic.Function.Basic
import Sequencer.Proofs.Machine.Serving
import Sequencer.Variable

/-!
# Supply — how values come to the variables of a machine

A fetch takes a single sample for a variable, and a standing subscription takes all of them.  An
intake of either kind goes on in steps: it looks at its stream, stores the value that it has read,
tells it, and asks for a refresh.  Between any two of these steps everybody else may take theirs:
other intakes, those who assign the variables, the machine and its callers.
-/

namespace Sequencer

/-! ## 1. Intakes -/

def Polled.sample? : Polled → Option Sample
  | .sample given _ => some given
  | _ => none

inductive Errand where
  | fetch
  | watch
  deriving DecidableEq, Repr

inductive Finish where
  | fetched (v : Variable)
  | failed (failure : Failure)
  | cancelled
  /-- Its stream ended. -/
  | exhausted
  /-- The machine took no requests any more. -/
  | refused
  | panicked (payload : Payload)

inductive Stance where
  | unmade
  | waiting
  /-- It has read a value and stores it next. -/
  | holding (v : Variable) (event : Event)
  | stored (v : Variable) (event : Event)
  | told (v : Variable)
  /-- It could not read a sample and tells so next. -/
  | rejecting (event : Event)
  | finished (finish : Finish)

structure Intake where
  errand : Errand := .fetch
  /-- The variable for which it takes samples. -/
  target : Nat := 0
  stance : Stance := .unmade
  /-- Whether it was told to end. -/
  dismissed : Bool := false

namespace Intake

inductive Deed where
  | took (sample : Sample)
  | wrote (v : Variable)
  | told (event : Event)
  | asked (source : String)

namespace Deed

def sample? : Deed → Option Sample
  | took sample => some sample
  | _ => none

def written? : Deed → Option Variable
  | wrote v => some v
  | _ => none

end Deed

/-- Where it stands once its medium has answered. -/
def opening : Option MediumFault → Stance
  | none => .waiting
  | some (.failed failure) => .finished (.failed failure)
  | some (.panicked payload) => .finished (.panicked payload)

/-- A look at its stream, for the variable `v` of the machine `machine`. -/
def look (intake : Intake) (v : Variable) (machine : String) (polled : Polled)
    (expired : Option Duration) (cancelled cancelFirst : Bool) : Stance × Option Deed :=
  match intake.stance, intake.errand with
  | .waiting, .fetch =>
    match v.fetch machine polled expired with
    | .stored _ v event => (.holding v event, polled.sample?.map .took)
    | .failed failure => (.finished (.failed failure), polled.sample?.map .took)
    | .waiting => (.waiting, none)
    | .panicked payload => (.finished (.panicked payload), none)
  | .waiting, .watch =>
    match v.monitor machine cancelled cancelFirst polled with
    | .stored v event _ => (.holding v event, polled.sample?.map .took)
    | .rejected event _ => (.rejecting event, polled.sample?.map .took)
    | .waiting => (.waiting, none)
    -- It sees its cancellation first, or there is nothing else to see.
    | .over => (.finished (if cancelled && (cancelFirst || polled.isPending) then .cancelled
        else .exhausted), none)
    | .panicked payload => (.finished (.panicked payload), none)
  | stance, _ => (stance, none)

/-- Where it stands once it has asked for a refresh for the value of `v`. -/
def asking (errand : Errand) (v : Variable) : Except Failure Unit → Stance
  | .ok () =>
    match errand with
    | .fetch => .finished (.fetched v)
    | .watch => .waiting
  | .error failure =>
    match errand with
    | .fetch => .finished (.failed failure)
    | .watch => .finished .refused

/-- Its next step with what it took; `meets` is what a request meets. -/
def proceed (intake : Intake) (meets : String → Except Failure Unit) : Stance × Option Deed :=
  match intake.stance with
  | .holding v event => (.stored v event, some (.wrote v))
  | .stored v event => (.told v, some (.told event))
  | .told v => (asking intake.errand v (meets v.key), some (.asked v.key))
  | .rejecting event => (.waiting, some (.told event))
  | stance => (stance, none)

end Intake

/-! ## 2. Machines with their variables -/

def Traffic.tell (t : Traffic) (event : Event) : Traffic :=
  if t.hosted then t.record (.published event) else t

inductive Happening where
  /-- The intake `p` did this for the variable `i`. -/
  | done (p i : Nat) (deed : Intake.Deed)
  | assigned (i : Nat) (v : Variable)

namespace Happening

def deed? (p : Nat) : Happening → Option Intake.Deed
  | done q _ deed => if q = p then some deed else none
  | assigned _ _ => none

/-- What it makes of the variable `i`. -/
def written? (i : Nat) : Happening → Option Variable
  | done _ j deed => if j = i then deed.written? else none
  | assigned j v => if j = i then some v else none

theorem deed?_eq_some {p : Nat} {happening : Happening} {deed : Intake.Deed}
    (h : happening.deed? p = some deed) : ∃ i, happening = done p i deed := by
  cases happening with
  | assigned i v => cases h
  | done q i done =>
    simp only [deed?, Option.ite_none_right_eq_some, Option.some.injEq] at h
    exact ⟨i, by rw [h.1, h.2]⟩

end Happening

/-- A machine among its callers, with its variables and their intakes. -/
structure Supply where
  traffic : Traffic
  store : Nat → Variable
  intakes : Nat → Intake := fun _ => {}
  /-- What happened to the variables, in order. -/
  chronicle : List Happening := []

namespace Supply

def start (config : Config) (name initial : String) (hosted : Bool)
    (store : Nat → Variable) : Supply :=
  { traffic := Traffic.start config name initial hosted, store }

/-- What the intake `p` did, in order. -/
def trail (x : Supply) (p : Nat) : List Intake.Deed := x.chronicle.filterMap (Happening.deed? p)

/-- What was written to the variable `i`, in order. -/
def writes (x : Supply) (i : Nat) : List Variable := x.chronicle.filterMap (Happening.written? i)

/-- A deed for the variable `i`. -/
def perform (x : Supply) (i : Nat) : Intake.Deed → Supply
  | .took _ => x
  | .wrote v => { x with store := Function.update x.store i v }
  | .told event => { x with traffic := x.traffic.tell event }
  | .asked source => { x with traffic := (x.traffic.notify source).1 }

def note (x : Supply) (h : Happening) : Supply := { x with chronicle := x.chronicle ++ [h] }

def place (x : Supply) (p : Nat) (intake : Intake) : Supply :=
  { x with intakes := Function.update x.intakes p intake }

/-- The intake `p` comes to stand elsewhere, with a deed perhaps. -/
def act (x : Supply) (p : Nat) (turn : Stance × Option Intake.Deed) : Supply :=
  let intake := x.intakes p
  let placed := x.place p { intake with stance := turn.1 }
  match turn.2 with
  | none => placed
  | some deed => (placed.perform intake.target deed).note (.done p intake.target deed)

/-- What a request of a variable meets. -/
def meets (x : Supply) (source : String) : Except Failure Unit := (x.traffic.notify source).2

def isCancelled (x : Supply) (p : Nat) : Bool := x.traffic.cancelled || (x.intakes p).dismissed

inductive Move where
  /-- The intake `p` is made for the variable `i`; perhaps the medium refuses it. -/
  | make (p : Nat) (errand : Errand) (i : Nat) (fault : Option MediumFault)
  | look (p : Nat) (polled : Polled) (expired : Option Duration) (cancelFirst : Bool)
  | proceed (p : Nat)
  /-- A standing subscription is cancelled. -/
  | dismiss (p : Nat)
  | assign (i : Nat) (value : Value)
  | traffic (move : Traffic.Move)

def Move.intake? : Move → Option Nat
  | make p _ _ _ => some p
  | look p _ _ _ => some p
  | proceed p => some p
  | dismiss p => some p
  | assign _ _ => none
  | traffic _ => none

/-- A step; one that cannot be taken changes nothing. -/
def step (x : Supply) : Move → Supply
  | .make p errand i fault =>
    match (x.intakes p).stance with
    | .unmade => x.place p { errand, target := i, stance := Intake.opening fault }
    | _ => x
  | .look p polled expired cancelFirst =>
    x.act p ((x.intakes p).look (x.store (x.intakes p).target) x.traffic.actor.core.name polled
      expired (x.isCancelled p) cancelFirst)
  | .proceed p => x.act p ((x.intakes p).proceed x.meets)
  | .dismiss p => x.place p { x.intakes p with dismissed := (x.intakes p).errand = .watch }
  | .assign i value =>
    { x with store := Function.update x.store i ((x.store i).assign value) }.note
      (.assigned i ((x.store i).assign value))
  | .traffic move => { x with traffic := x.traffic.step move }

def run (x : Supply) (moves : List Move) : Supply := moves.foldl step x

end Supply

/-! ## 3. What an intake can do -/

namespace Variable

/-- Variables that differ in nothing but their values. -/
structure Akin (v w : Variable) : Prop where
  key : v.key = w.key
  shape : v.shape = w.shape

variable {v w : Variable}

theorem akin_assign (v : Variable) (value : Value) : (v.assign value).Akin v := ⟨rfl, rfl⟩

theorem Akin.refl (v : Variable) : v.Akin v := ⟨rfl, rfl⟩

theorem Akin.trans {u : Variable} (first : v.Akin w) (second : w.Akin u) : v.Akin u :=
  ⟨first.key.trans second.key, first.shape.trans second.shape⟩

theorem Akin.symm (akin : v.Akin w) : w.Akin v := ⟨akin.key.symm, akin.shape.symm⟩

theorem akin_update {s t : Nat → Variable} (akin : ∀ i, (s i).Akin (t i)) (i : Nat)
    (h : v.Akin w) (j : Nat) : (Function.update s i v j).Akin (Function.update t i w j) := by
  by_cases hj : j = i
  · rw [hj, Function.update_self, Function.update_self]
    exact h
  · rw [Function.update_of_ne hj, Function.update_of_ne hj]
    exact akin j

theorem Akin.assign (akin : v.Akin w) (value : Value) : v.assign value = w.assign value := by
  obtain ⟨hkey, hshape⟩ := akin
  rw [Variable.assign, Variable.assign, hkey, hshape]

theorem Akin.accept (akin : v.Akin w) (sample : Sample) : v.accept sample = w.accept sample := by
  unfold Variable.accept
  rw [akin.shape]
  cases sample.decode w.shape with
  | ok value => simp only [akin.assign]
  | error failure => rfl

theorem Akin.fetch (akin : v.Akin w) (machine : String) (polled : Polled)
    (expired : Option Duration) :
    v.fetch machine polled expired = w.fetch machine polled expired := by
  unfold Variable.fetch
  cases polled with
  | sample sample stream => simp only [akin.accept]
  | ended => simp only [akin.key]
  | pending => rfl
  | panicked payload => rfl

theorem Akin.monitor (akin : v.Akin w) (machine : String) (cancelled cancelFirst : Bool)
    (polled : Polled) : v.monitor machine cancelled cancelFirst polled =
      w.monitor machine cancelled cancelFirst polled := by
  unfold Variable.monitor
  cases polled with
  | sample sample stream => simp only [akin.accept, rejectedEvent, akin.key]
  | ended => rfl
  | pending => rfl
  | panicked payload => rfl

end Variable

namespace Intake

variable {intake : Intake} {v w : Variable} {machine : String} {stance : Stance}
  {deed : Option Deed}

/-- A step of an intake for the variable `v`: where it comes to stand, and what it does.  What its
request meets is `meets`. -/
inductive Turn (intake : Intake) (v : Variable) (machine : String)
    (meets : String → Except Failure Unit) : Stance → Option Deed → Prop where
  | rest (stance : Stance) (hstance : intake.stance = stance) :
      Turn intake v machine meets stance none
  | close (finish : Finish) (hstance : intake.stance = .waiting)
      (hfinish : ∀ w, finish ≠ .fetched w) : Turn intake v machine meets (.finished finish) none
  | read (sample : Sample) (value : Value) (hstance : intake.stance = .waiting)
      (hvalue : sample.decode v.shape = .ok value) :
      Turn intake v machine meets (.holding (v.assign value) (v.updatedEvent machine))
        (some (.took sample))
  | reject (sample : Sample) (failure : Failure) (hstance : intake.stance = .waiting)
      (herrand : intake.errand = .watch) (hfailure : sample.decode v.shape = .error failure) :
      Turn intake v machine meets (.rejecting (v.rejectedEvent machine failure))
        (some (.took sample))
  | spoil (sample : Sample) (failure : Failure) (hstance : intake.stance = .waiting)
      (herrand : intake.errand = .fetch) (hfailure : sample.decode v.shape = .error failure) :
      Turn intake v machine meets (.finished (.failed failure)) (some (.took sample))
  | write (w : Variable) (event : Event) (hstance : intake.stance = .holding w event) :
      Turn intake v machine meets (.stored w event) (some (.wrote w))
  | tell (w : Variable) (event : Event) (hstance : intake.stance = .stored w event) :
      Turn intake v machine meets (.told w) (some (.told event))
  | skip (event : Event) (hstance : intake.stance = .rejecting event) :
      Turn intake v machine meets .waiting (some (.told event))
  | ask (w : Variable) (hstance : intake.stance = .told w) :
      Turn intake v machine meets (asking intake.errand w (meets w.key)) (some (.asked w.key))

theorem turn_look (intake : Intake) (v : Variable) (machine : String)
    (meets : String → Except Failure Unit) (polled : Polled) (expired : Option Duration)
    (cancelled cancelFirst : Bool) :
    intake.Turn v machine meets (intake.look v machine polled expired cancelled cancelFirst).1
      (intake.look v machine polled expired cancelled cancelFirst).2 := by
  unfold look
  split
  · next hstance herrand =>
    -- A fetch: the stream comes before the bound.
    unfold Variable.fetch Variable.accept
    cases polled with
    | sample sample stream =>
      dsimp only
      cases hdecode : sample.decode v.shape with
      | ok value => exact .read sample value hstance hdecode
      | error failure => exact .spoil sample failure hstance herrand hdecode
    | ended => exact .close (.failed _) hstance nofun
    | panicked payload => exact .close (.panicked payload) hstance nofun
    | pending =>
      cases expired with
      | none => exact .rest _ hstance
      | some limit => exact .close (.failed _) hstance nofun
  · next hstance herrand =>
    unfold Variable.monitor Variable.accept
    by_cases hseen : (cancelled && (cancelFirst || polled.isPending)) = true
    · rw [if_pos hseen]
      exact .close _ hstance (by rw [if_pos hseen]; exact nofun)
    · rw [if_neg hseen]
      cases polled with
      | sample sample stream =>
        dsimp only
        cases hdecode : sample.decode v.shape with
        | ok value => exact .read sample value hstance hdecode
        | error failure => exact .reject sample failure hstance herrand hdecode
      | ended => exact .close _ hstance (by rw [if_neg hseen]; exact nofun)
      | panicked payload => exact .close (.panicked payload) hstance nofun
      | pending => exact .rest _ hstance
  · exact .rest _ rfl

theorem look_akin (intake : Intake) (akin : v.Akin w) (machine : String) (polled : Polled)
    (expired : Option Duration) (cancelled cancelFirst : Bool) :
    intake.look v machine polled expired cancelled cancelFirst =
      intake.look w machine polled expired cancelled cancelFirst := by
  simp only [look, akin.fetch, akin.monitor]

theorem look_busy (h : intake.stance ≠ .waiting) (v : Variable) (machine : String) (polled : Polled)
    (expired : Option Duration) (cancelled cancelFirst : Bool) :
    intake.look v machine polled expired cancelled cancelFirst = (intake.stance, none) := by
  unfold look
  split
  · next hwaits _ => exact absurd hwaits h
  · next hwaits _ => exact absurd hwaits h
  · rfl

theorem turn_proceed (intake : Intake) (v : Variable) (machine : String)
    (meets : String → Except Failure Unit) :
    intake.Turn v machine meets (intake.proceed meets).1 (intake.proceed meets).2 := by
  unfold proceed
  cases hstance : intake.stance with
  | holding w event => exact .write w event hstance
  | stored w event => exact .tell w event hstance
  | told w => exact .ask w hstance
  | rejecting event => exact .skip event hstance
  | unmade => exact .rest _ hstance
  | waiting => exact .rest _ hstance
  | finished finish => exact .rest _ hstance

/-! ## 4. What an intake does with a sample -/

/-- What it does with a sample, in order. -/
def course (errand : Errand) (machine : String) (v : Variable) (sample : Sample) : List Deed :=
  match sample.decode v.shape with
  | .ok value =>
    [.took sample, .wrote (v.assign value), .told (v.updatedEvent machine), .asked v.key]
  | .error failure =>
    match errand with
    | .fetch => [.took sample]
    | .watch => [.took sample, .told (v.rejectedEvent machine failure)]

/-- What is still to do with the sample that was taken last. -/
def left : Stance → List Deed
  | .holding v event => [.wrote v, .told event, .asked v.key]
  | .stored v event => [.told event, .asked v.key]
  | .told v => [.asked v.key]
  | .rejecting event => [.told event]
  | _ => []

/-- The variable as it stored it last, as long as it has not asked for the refresh. -/
def stored? : Stance → Option Variable
  | .stored v _ => some v
  | .told v => some v
  | _ => none

theorem course_akin (akin : v.Akin w) (errand : Errand) (machine : String) :
    course errand machine v = course errand machine w := by
  funext sample
  unfold course
  rw [akin.shape]
  cases sample.decode w.shape with
  | ok value => simp only [akin.assign, Variable.updatedEvent, akin.key]
  | error failure => simp only [Variable.rejectedEvent, akin.key]

theorem asking_eq (errand : Errand) (v : Variable) (met : Except Failure Unit) :
    asking errand v met = .waiting ∨ ∃ finish, asking errand v met = .finished finish := by
  cases met <;> cases errand <;> first | exact .inl rfl | exact .inr ⟨_, rfl⟩

theorem left_asking (errand : Errand) (v : Variable) (met : Except Failure Unit) :
    left (asking errand v met) = [] := by
  rcases asking_eq errand v met with hasked | ⟨finish, hasked⟩ <;> rw [hasked] <;> rfl

theorem opening_eq (fault : Option MediumFault) :
    opening fault = .waiting ∨ ∃ finish, opening fault = .finished finish := by
  match fault with
  | none => exact .inl rfl
  | some (.failed failure) => exact .inr ⟨_, rfl⟩
  | some (.panicked payload) => exact .inr ⟨_, rfl⟩

theorem course_turn {meets : String → Except Failure Unit}
    (hturn : intake.Turn v machine meets stance deed) :
    deed.toList ++ left stance = left intake.stance ++
      (deed.toList.filterMap Deed.sample?).flatMap (course intake.errand machine v) := by
  -- A step does the first deed that is left, or takes a sample with all of its course to come.
  cases hturn with
  | rest stance hstance => simp [hstance]
  | close finish hstance hfinish => simp [hstance, left]
  | read sample value hstance hvalue =>
    simp [hstance, left, course, Deed.sample?, hvalue, Variable.assign]
  | reject sample failure hstance herrand hfailure =>
    simp [hstance, left, course, Deed.sample?, hfailure, herrand]
  | spoil sample failure hstance herrand hfailure =>
    simp [hstance, left, course, Deed.sample?, hfailure, herrand]
  | write w event hstance => simp [hstance, left, Deed.sample?]
  | tell w event hstance => simp [hstance, left, Deed.sample?]
  | skip event hstance => simp [hstance, left, Deed.sample?]
  | ask w hstance =>
    rw [left_asking, hstance]
    rfl

theorem proceed_left {first : Deed} {others : List Deed} (h : left intake.stance = first :: others)
    (meets : String → Except Failure Unit) :
    (intake.proceed meets).2 = some first ∧ left (intake.proceed meets).1 = others := by
  unfold proceed
  cases hstance : intake.stance with
  | unmade => simp [hstance, left] at h
  | waiting => simp [hstance, left] at h
  | finished finish => simp [hstance, left] at h
  | told w =>
    rw [hstance] at h
    cases h
    exact ⟨rfl, left_asking ..⟩
  | _ =>
    rw [hstance] at h
    cases h
    exact ⟨rfl, rfl⟩

theorem held_turn {meets : String → Except Failure Unit} {event : Event}
    (hturn : intake.Turn v machine meets stance deed) (h : stance = .holding w event) :
    intake.stance = .holding w event ∨ ∃ value, w = v.assign value := by
  cases hturn with
  | rest stance hstance => exact .inl (hstance.trans h)
  | read sample value hstance hvalue =>
    cases h
    exact .inr ⟨value, rfl⟩
  | ask u hstance =>
    rcases asking_eq intake.errand u (meets u.key) with hasked | ⟨finish, hasked⟩ <;>
      cases hasked.symm.trans h
  | _ => cases h

/-- It has stored a value because it did so now, or because it did so before and wrote nothing
now. -/
theorem stored_turn {meets : String → Except Failure Unit}
    (hturn : intake.Turn v machine meets stance deed) (h : stored? stance = some w) :
    deed.bind Deed.written? = some w ∨
      stored? intake.stance = some w ∧ deed.bind Deed.written? = none := by
  cases hturn with
  | rest stance hstance => exact .inr ⟨hstance ▸ h, rfl⟩
  | write u event hstance => exact .inl h
  | tell u event hstance => exact .inr ⟨hstance ▸ h, rfl⟩
  | ask u hstance =>
    rcases asking_eq intake.errand u (meets u.key) with hasked | ⟨finish, hasked⟩ <;>
      rw [hasked] at h <;> cases h
  | _ => cases h

theorem unmade_turn {meets : String → Except Failure Unit}
    (hturn : intake.Turn v machine meets stance deed) (h : stance = .unmade) :
    intake.stance = .unmade ∧ deed = none := by
  cases hturn with
  | rest stance hstance => exact ⟨hstance.trans h, rfl⟩
  | ask u hstance =>
    rcases asking_eq intake.errand u (meets u.key) with hasked | ⟨finish, hasked⟩ <;>
      cases hasked.symm.trans h
  | _ => cases h

end Intake

end Sequencer
