import Sequencer.Proofs.Cancellation.Upkeep
import Sequencer.Proofs.Machine.Completion

/-!
# Estates — everything that hangs on the root token of a host

Loops and machines come under the root token of a host, and monitors under the token of their
machine, at any time and in any number.  Whoever holds a token may cancel it, may give it to another
holder, and may let go of it; the last one to let go takes it out of the tree.  Every machine goes
on among its callers as it may, finds itself cancelled if its token is, and cancels its token when a
dispatch that completed it comes back.  The log keeps what can end anything.
-/

namespace Sequencer

namespace Estate

/-- A place in the tree of tokens. -/
inductive Seat where
  | root
  | loop (i : Nat)
  | machine (m : Nat)
  | monitor (k : Nat)
  deriving DecidableEq

/-- What is done that may end something. -/
inductive Deed where
  /-- Somebody who holds the token cancels it. -/
  | cancel (seat : Seat)
  /-- The logic of a machine completes it, within a dispatch. -/
  | complete (m : Nat)
  /-- The running dispatch of a machine comes back. -/
  | back (m : Nat)
  deriving DecidableEq

structure Tenant where
  traffic : Traffic
  token : Nat

structure Watch where
  machine : Nat
  token : Nat

end Estate

/-- A host with its loops, its machines and their monitors. -/
structure Estate where
  tree : Cancellation
  root : Nat
  loops : List Nat := []
  machines : List Estate.Tenant := []
  monitors : List Estate.Watch := []
  /-- What was done, the latest first. -/
  log : List Estate.Deed := []

namespace Estate

/-- A host that was just made. -/
def found : Estate :=
  let (tree, root) := ({} : Cancellation).fresh
  { tree, root }

/-- The token of a seat, if there is one. -/
def token (x : Estate) : Seat → Option Nat
  | .root => some x.root
  | .loop i => x.loops[i]?
  | .machine m => x.machines[m]?.map (·.token)
  | .monitor k => x.monitors[k]?.map (·.token)

/-- The token of a seat, as long as somebody holds it. -/
def held (x : Estate) (seat : Seat) : Option Nat :=
  (x.token seat).filter fun t => decide (x.tree.IsHeld t)

/-- A seat and those above it. -/
def lineage (x : Estate) : Seat → List Seat
  | .root => [.root]
  | .loop i => [.loop i, .root]
  | .machine m => [.machine m, .root]
  | .monitor k =>
    .monitor k :: x.monitors[k]?.elim [] fun watch => [.machine watch.machine, .root]

/-- Whether a dispatch of a machine came back after the logic had completed the machine. -/
def Completed (x : Estate) (m : Nat) : Prop := [.back m, .complete m].Sublist x.log

/-- Whether a seat was ended on its own account. -/
def Ended (x : Estate) (seat : Seat) : Prop :=
  .cancel seat ∈ x.log ∨ ∃ m, seat = .machine m ∧ x.Completed m

/-! ## 1. Steps -/

def openLoop (x : Estate) : Estate :=
  match x.held .root with
  | none => x
  | some root =>
    let (tree, token) := x.tree.child root
    { x with tree, loops := x.loops ++ [token] }

def openMachine (x : Estate) (config : Config) (name initial : String) : Estate :=
  match x.held .root with
  | none => x
  | some root =>
    let (tree, token) := x.tree.child root
    let traffic := Traffic.start config name initial true
    { x with tree, machines := x.machines ++ [{ traffic, token }] }

def openMonitor (x : Estate) (m : Nat) : Estate :=
  match x.held (.machine m) with
  | none => x
  | some machine =>
    let (tree, token) := x.tree.child machine
    { x with tree, monitors := x.monitors ++ [{ machine := m, token }] }

def hold (x : Estate) (seat : Seat) : Estate :=
  match x.held seat with
  | none => x
  | some t => { x with tree := x.tree.retain t }

def letGo (x : Estate) (seat : Seat) : Estate :=
  match x.held seat with
  | none => x
  | some t => { x with tree := x.tree.release t }

def cancel (x : Estate) (seat : Seat) : Estate :=
  match x.held seat with
  | none => x
  | some t => { x with tree := (x.tree.cancel t).1, log := .cancel seat :: x.log }

/-- Whether the machine of a number is cancelled. -/
def isCut (x : Estate) (m : Nat) : Bool := (x.token (.machine m)).any x.tree.isCancelled

/-- Something happens to the machine `m` and to those around it. -/
def meddle (x : Estate) (m : Nat) (f : Traffic → Traffic) : Estate :=
  { x with
    machines := x.machines.modify m fun tenant => { tenant with traffic := f tenant.traffic } }

/-- A seat is cancelled just when the actor of `m` has taken a request and not yet begun with it. -/
def overtake (x : Estate) (m : Nat) (seat : Seat) : Estate :=
  let y := x.cancel seat
  if !x.isCut m && y.isCut m then
    y.meddle m fun traffic => { traffic with cancelled := false }.step .overtake
  else y

/-- What a step of the machine `m` leaves in the log. -/
def noted (m : Nat) (traffic : Traffic) (move : Traffic.Move) : List Deed :=
  if traffic.comesBack move then [.back m]
  else if traffic.completes move then [.complete m]
  else []

/-- A step of the machine `m` or of somebody around it. -/
def act (x : Estate) (m : Nat) (move : Traffic.Move) : Estate :=
  match x.machines[m]?, x.held (.machine m) with
  | some tenant, some t =>
    let before := { tenant.traffic with cancelled := x.tree.isCancelled t }
    let after := before.step move
    { x.meddle m fun _ => after with
      tree := if after.cancelled then (x.tree.cancel t).1 else x.tree
      log := noted m before move ++ x.log }
  | _, _ => x

inductive Move where
  | openLoop
  | openMachine (config : Config) (name initial : String)
  | openMonitor (m : Nat)
  | hold (seat : Seat)
  | letGo (seat : Seat)
  | cancel (seat : Seat)
  | overtake (m : Nat) (seat : Seat)
  | act (m : Nat) (move : Traffic.Move)

/-- A step; one that cannot be taken changes nothing.  A machine is cancelled through its token, and
by nothing that is done to it alone. -/
def step (x : Estate) : Move → Estate
  | .openLoop => x.openLoop
  | .openMachine config name initial => x.openMachine config name initial
  | .openMonitor m => x.openMonitor m
  | .hold seat => x.hold seat
  | .letGo seat => x.letGo seat
  | .cancel seat => x.cancel seat
  | .overtake m seat => x.overtake m seat
  | .act m move => if move.cuts then x else x.act m move

def run (x : Estate) (moves : List Move) : Estate := moves.foldl step x

variable {x y : Estate} {seat seat' : Seat} {t a : Nat}

theorem held_iff : x.held seat = some t ↔ x.token seat = some t ∧ x.tree.IsHeld t := by
  unfold held
  rw [Option.filter_eq_some_iff, decide_eq_true_iff]

/-! ## 2. The chart -/

/-- Every seat has a token of its own. -/
structure Seated (x : Estate) : Prop where
  known : ∀ seat t, x.token seat = some t → t < x.tree.tokens.size
  distinct : ∀ seat seat' t, x.token seat = some t → x.token seat' = some t → seat = seat'
  /-- Nothing is below a seat that is not there. -/
  family : ∀ seat above, x.token seat ≠ none → above ∈ x.lineage seat → x.token above ≠ none

/-- The tree of tokens is as the seats say. -/
structure Charted (x : Estate) : Prop where
  linked : x.tree.WellLinked
  seated : x.Seated
  /-- Only a seat that is there was ended. -/
  ended : ∀ seat, x.Ended seat → x.token seat ≠ none
  /-- Among the tokens that are held, one is above another as their seats are. -/
  places : ∀ seat t above a, x.held seat = some t → x.held above = some a →
    x.tree.isCancelled t = false → (x.tree.Above a t ↔ above ∈ x.lineage seat)
  verdict : ∀ seat t, x.held seat = some t →
    (x.tree.isCancelled t = true ↔ ∃ above ∈ x.lineage seat, x.Ended above)

theorem Seated.keep (seated : x.Seated) (hsize : y.tree.tokens.size = x.tree.tokens.size)
    (htoken : ∀ seat, y.token seat = x.token seat)
    (hlineage : ∀ seat, y.lineage seat = x.lineage seat) : y.Seated where
  known seat t h := by
    rw [hsize]
    exact seated.known seat t (by rwa [← htoken])
  distinct seat seat' t h h' :=
    seated.distinct seat seat' t (by rwa [← htoken]) (by rwa [← htoken])
  family seat above h habove := by
    rw [htoken] at h ⊢
    rw [hlineage] at habove
    exact seated.family seat above h habove

/-- A new seat under another one. -/
theorem Seated.enter (seated : x.Seated) (h : x.token seat = some t) (new : Seat)
    (hsize : y.tree.tokens.size = x.tree.tokens.size + 1)
    (htoken : ∀ other, y.token other =
      if other = new then some x.tree.tokens.size else x.token other)
    (hlineage : ∀ other, y.lineage other =
      if other = new then new :: x.lineage seat else x.lineage other) : y.Seated where
  known other r hr := by
    rw [hsize]
    rw [htoken] at hr
    split at hr
    · rw [← Option.some.inj hr]
      exact Nat.lt_succ_self _
    · exact Nat.lt_succ_of_lt (seated.known other r hr)
  distinct other other' r hr hr' := by
    rw [htoken] at hr hr'
    split at hr <;> split at hr'
    · next heq heq' => rw [heq, heq']
    · rw [← Option.some.inj hr] at hr'
      exact absurd (seated.known other' _ hr') (lt_irrefl _)
    · rw [← Option.some.inj hr'] at hr
      exact absurd (seated.known other _ hr) (lt_irrefl _)
    · exact seated.distinct other other' r hr hr'
  family other above hother habove := by
    rw [htoken]
    split
    · exact Option.some_ne_none _
    · next hab =>
      rw [hlineage] at habove
      split at habove
      · refine seated.family seat above ?_ ((List.mem_cons.mp habove).resolve_left hab)
        rw [h]
        exact Option.some_ne_none t
      · next hnot =>
        rw [htoken, if_neg hnot] at hother
        exact seated.family other above hother habove

namespace Charted

/-- A step that leaves the seats and the places of the tokens as they are. -/
theorem keep (charted : x.Charted) (hlinked : y.tree.WellLinked)
    (hsize : y.tree.tokens.size = x.tree.tokens.size)
    (hcancelled : ∀ t, y.tree.isCancelled t = x.tree.isCancelled t)
    (hheld : ∀ t, y.tree.IsHeld t → x.tree.IsHeld t)
    (habove : ∀ a t, x.tree.isCancelled t = false → y.tree.IsHeld t → y.tree.IsHeld a →
      (y.tree.Above a t ↔ x.tree.Above a t))
    (htoken : ∀ seat, y.token seat = x.token seat)
    (hlineage : ∀ seat, y.lineage seat = x.lineage seat)
    (hended : ∀ seat, y.Ended seat ↔ x.Ended seat) : y.Charted := by
  have hback : ∀ {seat t}, y.held seat = some t → x.held seat = some t := by
    intro seat t h
    obtain ⟨hseat, hheldt⟩ := held_iff.mp h
    exact held_iff.mpr ⟨by rw [← htoken]; exact hseat, hheld t hheldt⟩
  exact
    { linked := hlinked
      seated := charted.seated.keep hsize htoken hlineage
      ended := fun seat h => by
        rw [htoken]
        exact charted.ended seat ((hended seat).mp h)
      places := fun seat t above a h ha hlive => by
        rw [hcancelled] at hlive
        rw [habove a t hlive (held_iff.mp h).2 (held_iff.mp ha).2, hlineage]
        exact charted.places seat t above a (hback h) (hback ha) hlive
      verdict := fun seat t h => by
        rw [hcancelled, hlineage]
        simp only [hended]
        exact charted.verdict seat t (hback h) }

/-- A seat is ended, and its token is cancelled. -/
theorem strike (charted : x.Charted) (h : x.held seat = some t)
    (htree : y.tree = (x.tree.cancel t).1) (htoken : ∀ seat, y.token seat = x.token seat)
    (hlineage : ∀ seat, y.lineage seat = x.lineage seat)
    (hended : ∀ other, y.Ended other ↔ x.Ended other ∨ other = seat) : y.Charted := by
  have linked := charted.linked
  have hback : ∀ {other r}, y.held other = some r → x.held other = some r := by
    intro other r hr
    obtain ⟨hseat, hheld⟩ := held_iff.mp hr
    rw [htree, Cancellation.isHeld_cancel linked] at hheld
    exact held_iff.mpr ⟨by rw [← htoken]; exact hseat, hheld⟩
  exact
    { linked := by rw [htree]; exact linked.cancel t
      seated := charted.seated.keep (by rw [htree, Cancellation.size_cancel]) htoken hlineage
      ended := fun other hother => by
        rw [htoken]
        rcases (hended other).mp hother with hbefore | rfl
        · exact charted.ended other hbefore
        · rw [(held_iff.mp h).1]
          exact Option.some_ne_none t
      places := fun other r above a hr ha hlive => by
        rw [htree] at hlive ⊢
        rw [Cancellation.above_cancel linked hlive, hlineage]
        exact charted.places other r above a (hback hr) (hback ha)
          ((Cancellation.live_cancel linked).mp hlive).1
      verdict := fun other r hr => by
        have hverdict := charted.verdict other r (hback hr)
        rw [htree, Cancellation.isCancelled_cancel linked, hlineage]
        simp only [hended, and_or_left, exists_or, exists_eq_right]
        -- Whatever was cancelled before was so for a reason that still holds.
        cases hlive : x.tree.isCancelled r with
        | true =>
          rw [hlive] at hverdict
          exact iff_of_true (.inl rfl) (.inl (hverdict.mp rfl))
        | false =>
          rw [← hverdict, hlive]
          exact or_congr_right (charted.places other r seat t (hback hr) h hlive) }

/-- A new seat under another one. -/
theorem enter (charted : x.Charted) (h : x.held seat = some t) (new : Seat)
    (hnew : x.token new = none) (htree : y.tree = (x.tree.child t).1)
    (htoken : ∀ other, y.token other =
      if other = new then some x.tree.tokens.size else x.token other)
    (hlineage : ∀ other, y.lineage other =
      if other = new then new :: x.lineage seat else x.lineage other)
    (hended : ∀ other, y.Ended other ↔ x.Ended other) : y.Charted := by
  have linked := charted.linked
  have hseat := (held_iff.mp h).1
  have hback : ∀ {other r}, y.held other = some r →
      (other = new ∧ r = x.tree.tokens.size) ∨
        (other ≠ new ∧ x.held other = some r ∧ r ≠ x.tree.tokens.size) := by
    intro other r hr
    obtain ⟨htok, hheld⟩ := held_iff.mp hr
    rw [htoken] at htok
    split at htok
    · next heq => exact .inl ⟨heq, (Option.some.inj htok).symm⟩
    · next hother =>
      have hold := charted.seated.known other r htok
      rw [htree, Cancellation.isHeld_child] at hheld
      have hheld := hheld.resolve_right (Nat.ne_of_lt hold)
      exact .inr ⟨hother, held_iff.mpr ⟨htok, hheld⟩, Nat.ne_of_lt hold⟩
  exact
    { linked := by rw [htree]; exact linked.child t
      seated := charted.seated.enter hseat new (by rw [htree, Cancellation.size_child]) htoken
        hlineage
      ended := fun other hother => by
        rw [htoken]
        split
        · exact Option.some_ne_none _
        · exact charted.ended other ((hended other).mp hother)
      places := fun other r above a hr ha hlive => by
        rw [htree] at hlive ⊢
        rw [hlineage]
        rcases hback hr with ⟨hother, hrnew⟩ | ⟨hother, hrheld, hrold⟩
        · -- The new token is below its own seat and what that is below.
          rw [hrnew, Cancellation.isCancelled_child, if_pos rfl] at hlive
          rw [hrnew, Cancellation.above_child_new linked hlive, if_pos hother, List.mem_cons]
          rcases hback ha with ⟨habove, hanew⟩ | ⟨habove, haheld, haold⟩
          · exact iff_of_true (.inl hanew) (.inl habove)
          · rw [or_iff_right haold, or_iff_right habove]
            exact charted.places seat t above a h haheld hlive
        · rw [Cancellation.isCancelled_child, if_neg hrold] at hlive
          rw [Cancellation.above_child_old linked hrold, if_neg hother]
          rcases hback ha with ⟨habove, hanew⟩ | ⟨habove, haheld, haold⟩
          · refine iff_of_false (fun hup => ?_) fun hmem => ?_
            · have hle := linked.le_of_above hup
              have hlt := charted.seated.known other r (held_iff.mp hrheld).1
              omega
            · refine charted.seated.family other above ?_ hmem (by rw [habove]; exact hnew)
              rw [(held_iff.mp hrheld).1]
              exact Option.some_ne_none r
          · exact charted.places other r above a hrheld haheld hlive
      verdict := fun other r hr => by
        rw [htree, hlineage, Cancellation.isCancelled_child]
        simp only [hended]
        rcases hback hr with ⟨hother, hrnew⟩ | ⟨hother, hrheld, hrold⟩
        · rw [if_pos hrnew, if_pos hother, charted.verdict seat t h]
          simp only [List.mem_cons, exists_eq_or_imp]
          -- Nobody has ended the new seat itself.
          exact (or_iff_right fun hnever => charted.ended new hnever hnew).symm
        · rw [if_neg hrold, if_neg hother]
          exact charted.verdict other r hrheld }

end Charted

/-! ## 3. What every step keeps -/

/-- The tree is as the seats say, and the machines are completed as the log says. -/
structure Tidy (x : Estate) : Prop where
  charted : x.Charted
  completed : ∀ m tenant, x.machines[m]? = some tenant →
    (tenant.traffic.actor.core.completed = true ↔ .complete m ∈ x.log)
  recorded : ∀ m, .complete m ∈ x.log → m < x.machines.length

theorem completed_cons (deed : Deed) {m : Nat} (h : y.log = deed :: x.log) :
    y.Completed m ↔ x.Completed m ∨ deed = .back m ∧ .complete m ∈ x.log := by
  unfold Completed
  rw [h, List.sublist_cons_iff]
  refine or_congr_right ?_
  constructor
  · rintro ⟨rest, heq, hrest⟩
    cases heq
    exact ⟨rfl, List.singleton_sublist.mp hrest⟩
  · rintro ⟨rfl, hmem⟩
    exact ⟨_, rfl, List.singleton_sublist.mpr hmem⟩

/-- What a seat is ended by. -/
theorem ended_cons (deed : Deed) (h : y.log = deed :: x.log) (seat : Seat) :
    y.Ended seat ↔ x.Ended seat ∨ deed = .cancel seat ∨
      ∃ m, seat = .machine m ∧ deed = .back m ∧ .complete m ∈ x.log := by
  unfold Ended
  simp only [completed_cons deed h, and_or_left, exists_or]
  rw [h, List.mem_cons, eq_comm, or_assoc, or_assoc, or_left_comm]
  exact or_congr_right or_left_comm

theorem ended_of_log (h : y.log = x.log) (seat : Seat) : y.Ended seat ↔ x.Ended seat := by
  unfold Ended Completed
  rw [h]

theorem getElem?_snoc {α : Type} (list : List α) (last : α) (i : Nat) :
    (list ++ [last])[i]? = if i = list.length then some last else list[i]? := by
  split
  · next heq =>
    rw [heq]
    exact List.getElem?_concat_length
  · next hne =>
    rcases Nat.lt_or_gt_of_ne hne with hlt | hgt
    · exact List.getElem?_append_left hlt
    · rw [List.getElem?_eq_none (by rw [List.length_append]; exact hgt),
        List.getElem?_eq_none (Nat.le_of_lt hgt)]

@[simp] theorem token_meddle (x : Estate) (m : Nat) (f : Traffic → Traffic) (seat : Seat) :
    (x.meddle m f).token seat = x.token seat := by
  cases seat with
  | machine n =>
    simp only [token, meddle, List.getElem?_modify]
    cases x.machines[n]? with
    | none => rfl
    | some tenant =>
      refine congrArg some ?_
      split <;> rfl
  | _ => rfl

theorem machine_meddle {m n : Nat} {f : Traffic → Traffic} {after : Tenant}
    (h : (x.meddle m f).machines[n]? = some after) :
    ∃ tenant, x.machines[n]? = some tenant ∧
      after.traffic = if n = m then f tenant.traffic else tenant.traffic := by
  simp only [meddle, List.getElem?_modify] at h
  obtain ⟨tenant, htenant, rfl⟩ := Option.map_eq_some_iff.mp h
  refine ⟨tenant, htenant, ?_⟩
  by_cases heq : n = m
  · rw [if_pos heq.symm, if_pos heq]
  · rw [if_neg (Ne.symm heq), if_neg heq]

theorem complete_mem_noted {m n : Nat} {traffic : Traffic} {move : Traffic.Move} :
    .complete n ∈ noted m traffic move ↔ n = m ∧ traffic.completes move = true := by
  unfold noted
  split
  · next hback =>
    have hnot : traffic.completes move = false := by
      cases move with
      | settle result => rfl
      | _ => cases hback
    simp [hnot]
  · split
    · next hcompletes => simp [hcompletes]
    · next hnot => simp [hnot]

theorem charted_found : found.Charted := by
  have hbare : ∀ t, found.tree.token t = if t = 0 then {} else { cancelled := true } := by
    intro t
    show (Cancellation.mk (Array.push #[] {})).token t = _
    rw [Cancellation.token_push (x := {})]
    rfl
  have hroot : ∀ seat t, found.token seat = some t → seat = .root ∧ t = 0 := by
    intro seat t h
    cases seat with
    | root => exact ⟨rfl, (Option.some.inj h).symm⟩
    | _ => cases h
  have hend : ∀ seat, ¬ found.Ended seat := by
    rintro seat (h | ⟨m, rfl, h⟩)
    · exact absurd h List.not_mem_nil
    · cases h
  exact
    { linked := Cancellation.wellLinked_bare (fun t => by rw [hbare]; split <;> rfl)
        (fun t => by rw [hbare]; split <;> rfl)
      seated :=
        { known := fun seat t h => by
            rw [(hroot seat t h).2]
            exact Nat.one_pos
          distinct := fun seat seat' t h h' =>
            (hroot seat t h).1.trans (hroot seat' t h').1.symm
          family := fun seat above h habove => by
            obtain ⟨t, ht⟩ := Option.ne_none_iff_exists'.mp h
            rw [(hroot seat t ht).1] at habove
            rw [List.mem_singleton.mp habove]
            exact Option.some_ne_none 0 }
      ended := fun seat h => absurd h (hend seat)
      places := fun seat t above a h ha hlive => by
        obtain ⟨rfl, rfl⟩ := hroot seat t (held_iff.mp h).1
        obtain ⟨rfl, rfl⟩ := hroot above a (held_iff.mp ha).1
        exact iff_of_true .self List.mem_cons_self
      verdict := fun seat t h => by
        obtain ⟨rfl, rfl⟩ := hroot seat t (held_iff.mp h).1
        exact iff_of_false (by decide) fun ⟨above, _, habove⟩ => hend above habove }

theorem tidy_found : found.Tidy where
  charted := charted_found
  completed m tenant h := by cases h
  recorded m h := absurd h List.not_mem_nil

namespace Tidy

theorem openLoop (tidy : x.Tidy) : x.openLoop.Tidy := by
  unfold Estate.openLoop
  split
  · exact tidy
  · next root hroot =>
    refine ⟨?_, tidy.completed, tidy.recorded⟩
    refine tidy.charted.enter hroot (.loop x.loops.length)
      (List.getElem?_eq_none le_rfl) rfl (fun other => ?_) (fun other => ?_) (ended_of_log rfl)
    · cases other with
      | loop i =>
        simp only [token, getElem?_snoc, Cancellation.child_number, Seat.loop.injEq]
      | _ => rfl
    · by_cases heq : other = .loop x.loops.length
      · rw [if_pos heq, heq]
        rfl
      · rw [if_neg heq]
        cases other <;> rfl

theorem openMachine (tidy : x.Tidy) (config : Config) (name initial : String) :
    (x.openMachine config name initial).Tidy := by
  unfold Estate.openMachine
  split
  · exact tidy
  · next root hroot =>
    refine ⟨?_, fun m tenant hm => ?_, fun m hm => ?_⟩
    · refine tidy.charted.enter hroot (.machine x.machines.length)
        (by simp [token]) rfl (fun other => ?_) (fun other => ?_) (ended_of_log rfl)
      · cases other with
        | machine m =>
          simp only [token, getElem?_snoc, Cancellation.child_number, Seat.machine.injEq]
          split <;> rfl
        | _ => rfl
      · by_cases heq : other = .machine x.machines.length
        · rw [if_pos heq, heq]
          rfl
        · rw [if_neg heq]
          cases other <;> rfl
    · simp only [getElem?_snoc] at hm
      split at hm
      · next heq =>
        -- Nothing is in the log of a machine that was just made.
        cases hm
        refine iff_of_false Bool.false_ne_true fun hmem => ?_
        exact absurd (tidy.recorded m hmem) (by rw [heq]; exact lt_irrefl _)
      · exact tidy.completed m tenant hm
    · have hlt := tidy.recorded m hm
      simp only [List.length_append]
      omega

theorem openMonitor (tidy : x.Tidy) (m : Nat) : (x.openMonitor m).Tidy := by
  unfold Estate.openMonitor
  split
  · exact tidy
  · next machine hmachine =>
    refine ⟨?_, tidy.completed, tidy.recorded⟩
    refine tidy.charted.enter hmachine (.monitor x.monitors.length)
      (by simp [token]) rfl (fun other => ?_) (fun other => ?_) (ended_of_log rfl)
    · cases other with
      | monitor k =>
        simp only [token, getElem?_snoc, Cancellation.child_number, Seat.monitor.injEq]
        split <;> rfl
      | _ => rfl
    · cases other with
      | monitor k =>
        simp only [lineage, getElem?_snoc, Seat.monitor.injEq]
        split
        · next heq => rw [heq]; rfl
        · rfl
      | _ => rfl

theorem hold (tidy : x.Tidy) (seat : Seat) : (x.hold seat).Tidy := by
  unfold Estate.hold
  split
  · exact tidy
  · next t ht =>
    have alike := x.tree.alike_retain t
    refine ⟨?_, tidy.completed, tidy.recorded⟩
    exact tidy.charted.keep (alike.wellLinked tidy.charted.linked)
      (Cancellation.size_modify _ _ _) alike.isCancelled
      (fun _ => (Cancellation.isHeld_retain (held_iff.mp ht).2).mp)
      (fun _ _ _ _ _ => alike.above_iff) (fun seat => by cases seat <;> rfl)
      (fun seat => by cases seat <;> rfl) (ended_of_log rfl)

theorem letGo (tidy : x.Tidy) (seat : Seat) : (x.letGo seat).Tidy := by
  have linked := tidy.charted.linked
  unfold Estate.letGo
  split
  · exact tidy
  · next t ht =>
    refine ⟨?_, tidy.completed, tidy.recorded⟩
    exact tidy.charted.keep (linked.release t) (Cancellation.size_release _ _)
      (Cancellation.isCancelled_release linked t)
      (fun _ => Cancellation.isHeld_of_release linked)
      (fun _ _ => Cancellation.above_release linked) (fun seat => by cases seat <;> rfl)
      (fun seat => by cases seat <;> rfl) (ended_of_log rfl)

theorem cancel (tidy : x.Tidy) (seat : Seat) : (x.cancel seat).Tidy := by
  unfold Estate.cancel
  split
  · exact tidy
  · next t ht =>
    refine ⟨?_, fun m tenant hm => ?_, fun m hm => ?_⟩
    · refine tidy.charted.strike ht rfl (fun seat => by cases seat <;> rfl)
        (fun seat => by cases seat <;> rfl) fun other => ?_
      rw [ended_cons (x := x) (.cancel seat) rfl other]
      simp [eq_comm]
    · refine (tidy.completed m tenant hm).trans ?_
      simp
    · exact tidy.recorded m (by simpa using hm)

/-- A machine that finds itself cancelled is not completed by that. -/
theorem overtake (tidy : x.Tidy) (m : Nat) (seat : Seat) : (x.overtake m seat).Tidy := by
  have cancelled := tidy.cancel seat
  unfold Estate.overtake
  simp only
  split
  · refine ⟨?_, fun n after hn => ?_, fun n hn => ?_⟩
    · exact cancelled.charted.keep cancelled.charted.linked rfl (fun _ => rfl) (fun _ => id)
        (fun _ _ _ _ _ => Iff.rfl) (token_meddle _ m _) (fun seat => by cases seat <;> rfl)
        (ended_of_log rfl)
    · obtain ⟨tenant, htenant, hafter⟩ := machine_meddle hn
      refine Iff.trans ?_ (cancelled.completed n tenant htenant)
      rw [hafter]
      split
      · simp only [Traffic.step]
        split
        · rw [Traffic.completed_overtake]
        · rfl
      · rfl
    · simp only [meddle, List.length_modify]
      exact cancelled.recorded n hn
  · exact cancelled

theorem act (tidy : x.Tidy) (m : Nat) {move : Traffic.Move} (hmove : move.cuts = false) :
    (x.act m move).Tidy := by
  have charted := tidy.charted
  unfold Estate.act
  split
  · next tenant t htenant ht =>
    simp only
    obtain ⟨hcancelled, hcompleted⟩ := Traffic.step_marks
      { tenant.traffic with cancelled := x.tree.isCancelled t } hmove
    generalize hbefore : { tenant.traffic with cancelled := x.tree.isCancelled t } = before at *
    generalize before.step move = after at *
    have hlogged : before.actor.core.completed = true ↔ .complete m ∈ x.log := by
      rw [← hbefore]
      exact tidy.completed m tenant htenant
    have htoken : ∀ (tree : Cancellation) (log : List Deed) (seat : Seat),
        ({ x.meddle m fun _ => after with tree, log } : Estate).token seat = x.token seat := by
      intro tree log seat
      rw [← token_meddle x m (fun _ => after) seat]
      cases seat <;> rfl
    refine ⟨?_, fun n changed hn => ?_, fun n hn => ?_⟩
    · by_cases hends : before.comesBack move = true ∧ before.actor.core.completed = true
      · -- The machine was completed, and its dispatch comes back.
        have hcut : after.cancelled = true := by
          rw [hcancelled, hends.1, hends.2, Bool.true_and, Bool.or_true]
        rw [hcut, if_pos rfl, noted, if_pos hends.1]
        refine charted.strike ht rfl (htoken _ _) (fun seat => by cases seat <;> rfl)
          fun other => (ended_cons (x := x) _ rfl other).trans (or_congr_right ?_)
        simp [hlogged.mp hends.2]
      · -- Otherwise the tree stays as it is, whether or not the machine is cancelled already.
        have hsame : after.cancelled = x.tree.isCancelled t := by
          have hnot : (before.comesBack move && before.actor.core.completed) = false := by
            rw [← Bool.not_eq_true, Bool.and_eq_true]
            exact hends
          rw [hcancelled, hnot, Bool.or_false, ← hbefore]
        have htree : (if after.cancelled then (x.tree.cancel t).1 else x.tree) = x.tree := by
          rw [hsame]
          split
          · next hcut => exact Cancellation.cancel_of_cancelled hcut
          · rfl
        rw [htree]
        refine charted.keep charted.linked rfl (fun _ => rfl) (fun _ => id)
          (fun _ _ _ _ _ => Iff.rfl) (htoken _ _) (fun seat => by cases seat <;> rfl)
          fun other => ?_
        unfold noted
        split
        · next hback =>
          -- What comes back did not complete the machine, so that it ends nothing.
          refine (ended_cons (x := x) _ rfl other).trans (or_iff_left ?_)
          rintro (h | ⟨n, -, h, hmem⟩)
          · cases h
          · cases h
            exact hends ⟨hback, hlogged.mpr hmem⟩
        · split
          · refine (ended_cons (x := x) _ rfl other).trans (or_iff_left ?_)
            rintro (h | ⟨n, -, h, -⟩) <;> cases h
          · exact ended_of_log rfl other
    · obtain ⟨tenant', htenant', hafter⟩ := machine_meddle (x := x) (f := fun _ => after) hn
      rw [hafter, List.mem_append, complete_mem_noted]
      by_cases heq : n = m
      · subst heq
        rw [if_pos rfl, hcompleted, Bool.or_eq_true, hlogged, or_comm]
        simp
      · rw [if_neg heq]
        refine (tidy.completed n tenant' htenant').trans (or_iff_right fun h => heq h.1).symm
    · simp only [meddle, List.length_modify]
      rcases List.mem_append.mp hn with hn | hn
      · rw [(complete_mem_noted.mp hn).1]
        exact (List.getElem?_eq_some_iff.mp htenant).1
      · exact tidy.recorded n hn
  · exact tidy

end Tidy

theorem tidy_step (tidy : x.Tidy) (move : Move) : (x.step move).Tidy := by
  cases move with
  | openLoop => exact tidy.openLoop
  | openMachine config name initial => exact tidy.openMachine config name initial
  | openMonitor m => exact tidy.openMonitor m
  | hold seat => exact tidy.hold seat
  | letGo seat => exact tidy.letGo seat
  | cancel seat => exact tidy.cancel seat
  | overtake m seat => exact tidy.overtake m seat
  | act m move =>
    simp only [step]
    split
    · exact tidy
    · next hmove => exact tidy.act m (Bool.eq_false_iff.mpr hmove)

theorem tidy_run (tidy : x.Tidy) (moves : List Move) : (x.run moves).Tidy := by
  induction moves generalizing x with
  | nil => exact tidy
  | cons move moves ih => exact ih (tidy_step tidy move)

end Estate

end Sequencer
