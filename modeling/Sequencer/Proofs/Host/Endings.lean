import Sequencer.Proofs.Host.Estate
import Sequencer.Proofs.Host.Stopping

/-!
# Endings — what ends with what

A loop ends with itself or with the host, a machine too, also by its completion, and a monitor
with itself or with its machine.  Nothing else ends with them, whatever came under which token and
when, and whoever has let go of a token meanwhile.
-/

namespace Sequencer

namespace Stage

/-! ## 1. The tokens of a stage -/

theorem machines_spawnBackground (stage : Stage) (name : String) (frame : Frame) :
    (stage.spawnBackground name frame).1.machines = stage.machines := by
  unfold spawnBackground
  split <;> rfl

theorem machines_addVariables (stage : Stage) (m : Nat) (specs : List VariableSpec) :
    (stage.addVariables m specs).machines = stage.machines := by
  unfold addVariables
  induction specs generalizing stage with
  | nil => rfl
  | cons spec specs ih => rw [List.foldl_cons, ih]

theorem token_modifyMachine (stage : Stage) (m n : Nat) {f : MachineCell → MachineCell}
    (hf : ∀ cell, (f cell).token = cell.token) :
    (stage.modifyMachine m f).machines[n]?.map (·.token) =
      stage.machines[n]?.map (·.token) := by
  unfold modifyMachine
  rw [Array.getElem?_modify]
  split
  · rw [Option.map_map]
    exact congrArg (Option.map · _) (funext hf)
  · rfl

/-- The tokens of a stage are those of an estate.  That of a loop is made under the root token, that
of a machine too, and that of a monitor under the token of its machine.  A machine that cancels
itself cancels its token, and the tree of tokens changes with it as with every cancellation. -/
structure Settled (stage : Stage) : Prop where
  loops : stage.loopToken = stage.childToken stage.root
  machines : ∀ spec, (stage.addMachine spec).machines[stage.machines.size]?.map (·.token) =
    some (stage.cancellation.child stage.root).2
  monitors : ∀ v cell id rest machine medium stream,
    stage.machines[cell.machine]? = some machine →
    stage.medium.subscribe cell.content.key = .ok (medium, stream) →
    ((stage.monitor v cell id rest).1.monitors.get? id).bind (·.token) =
      some (stage.cancellation.child machine.token).2
  completions : ∀ m cell, stage.machines[m]? = some cell →
    perform m stage .cancel = stage.cancel cell.token ∧
      (stage.cancel cell.token).cancellation = (stage.cancellation.cancel cell.token).1

theorem settled_of_hosted {stage : Stage} (h : stage.hosted = true) : stage.Settled := by
  refine ⟨if_pos h, fun spec => ?_, ?_, ?_⟩
  · unfold addMachine
    rw [if_pos h]
    simp only
    split
    · refine (token_modifyMachine _ _ _ ?_).trans ?_
      · exact fun _ => rfl
      · rw [machines_spawnBackground, machines_addVariables]
        exact congrArg (Option.map _) Array.getElem?_push_size
    · rw [machines_addVariables]
      exact congrArg (Option.map _) Array.getElem?_push_size
    · refine (token_modifyMachine _ _ _ ?_).trans ?_
      · exact fun _ => rfl
      · rw [machines_addVariables]
        exact congrArg (Option.map _) Array.getElem?_push_size
  · intro v cell id rest machine medium stream hmachine hsubscribe
    unfold monitor
    rw [hmachine, hsubscribe]
    exact congrArg (Option.bind · _) ((Table.get?_set _ _ _ _).trans (if_pos rfl))
  · intro m cell hcell
    obtain ⟨agenda, hcancel⟩ := stage.cancel_eq cell.token
    refine ⟨?_, by rw [hcancel]⟩
    unfold perform
    rw [hcell]

end Stage

namespace Estate

variable {x : Estate}

theorem completed_machine {m : Nat} :
    x.Ended (.machine m) ↔ .cancel (.machine m) ∈ x.log ∨ x.Completed m := by
  unfold Ended
  refine or_congr_right ⟨?_, fun h => ⟨m, rfl, h⟩⟩
  rintro ⟨n, heq, h⟩
  cases heq
  exact h

/-- Whatever is not a machine is ended by its cancellation only. -/
theorem ended_iff (seat : Seat) (h : ∀ m, seat ≠ .machine m) :
    x.Ended seat ↔ .cancel seat ∈ x.log :=
  or_iff_left fun ⟨m, heq, _⟩ => h m heq

end Estate

/-- Whatever loops, machines and monitors are opened through a host and whenever, and whoever holds
their tokens and lets go of them: as long as anybody holds the token, that of the root is cancelled
if the root was; that of a loop if the loop or the root was; that of a machine if the machine or the
root was, or if a dispatch came back after the logic had completed the machine; that of a monitor if
the monitor was or one of those that end its machine, which is to say if the token of its machine
is cancelled; and each only then.  A cancellation cancels the seat it is for and those below it, and
leaves all others as they are.  A stage that is hosted gives its tokens these places. -/
theorem ended_alone_or_from_above (moves : List Estate.Move) :
    let x := Estate.found.run moves
    (∀ t, x.held .root = some t →
      (x.tree.isCancelled t = true ↔ .cancel .root ∈ x.log)) ∧
    (∀ i t, x.held (.loop i) = some t →
      (x.tree.isCancelled t = true ↔ .cancel (.loop i) ∈ x.log ∨ .cancel .root ∈ x.log)) ∧
    (∀ m t, x.held (.machine m) = some t →
      (x.tree.isCancelled t = true ↔
        (.cancel (.machine m) ∈ x.log ∨ x.Completed m) ∨ .cancel .root ∈ x.log)) ∧
    (∀ k m t, x.monitors[k]? = some ⟨m, t⟩ → x.held (.monitor k) = some t →
      (x.tree.isCancelled t = true ↔
        .cancel (.monitor k) ∈ x.log ∨
          (.cancel (.machine m) ∈ x.log ∨ x.Completed m) ∨ .cancel .root ∈ x.log) ∧
      ∀ machine, x.held (.machine m) = some machine →
        (x.tree.isCancelled t = true ↔
          .cancel (.monitor k) ∈ x.log ∨ x.tree.isCancelled machine = true)) ∧
    (∀ seat other t, x.held seat ≠ none → x.held other = some t →
      ((x.step (.cancel seat)).tree.isCancelled t = true ↔
        x.tree.isCancelled t = true ∨ seat ∈ x.lineage other)) ∧
    (∀ stage : Stage, stage.hosted = true → stage.Settled) := by
  intro x
  have charted : x.Charted := (Estate.tidy_run Estate.tidy_found moves).charted
  have hroot : x.Ended .root ↔ .cancel .root ∈ x.log := Estate.ended_iff .root (by simp)
  have hmachine : ∀ m t, x.held (.machine m) = some t →
      (x.tree.isCancelled t = true ↔
        (.cancel (.machine m) ∈ x.log ∨ x.Completed m) ∨ .cancel .root ∈ x.log) := by
    intro m t ht
    rw [charted.verdict (.machine m) t ht, ← hroot, ← Estate.completed_machine]
    simp [Estate.lineage]
  refine ⟨fun t ht => ?_, fun i t ht => ?_, hmachine, fun k m t hk ht => ?_, ?_,
    fun _ => Stage.settled_of_hosted⟩
  · rw [charted.verdict .root t ht, ← hroot]
    simp [Estate.lineage]
  · rw [charted.verdict (.loop i) t ht, ← hroot,
      ← Estate.ended_iff (.loop i) (by simp)]
    simp [Estate.lineage]
  · have hmonitor : x.tree.isCancelled t = true ↔
        .cancel (.monitor k) ∈ x.log ∨
          (.cancel (.machine m) ∈ x.log ∨ x.Completed m) ∨ .cancel .root ∈ x.log := by
      rw [charted.verdict (.monitor k) t ht, ← hroot, ← Estate.completed_machine,
        ← Estate.ended_iff (.monitor k) (by simp)]
      simp [Estate.lineage, hk]
    exact ⟨hmonitor, fun machine hheld => by rw [hmachine m machine hheld]; exact hmonitor⟩
  · intro seat other t hseat ht
    obtain ⟨s, hs⟩ := Option.ne_none_iff_exists'.mp hseat
    have htree : (x.step (.cancel seat)).tree = (x.tree.cancel s).1 := by
      simp only [Estate.step, Estate.cancel, hs]
    rw [htree, Cancellation.isCancelled_cancel charted.linked]
    cases hlive : x.tree.isCancelled t with
    | true => exact iff_of_true (.inl rfl) (.inl rfl)
    | false => exact or_congr_right (charted.places other t seat s ht hs hlive)

/-- Two machines with a monitor each, one of which completes, and a loop beside them. -/
theorem ended_alone_or_from_above_completed :
    let x := Estate.found.run
      [.openLoop, .openMachine {} "a" "s", .openMachine {} "b" "s", .openMonitor 0,
        .openMonitor 1, .act 0 (.notify (.trigger "go")), .act 0 (.turn false),
        .act 0 (.deed .complete), .act 0 (.settle (.ok ()))]
    x.log = [.back 0, .complete 0] ∧
      x.tree.isCancelled 0 = false ∧ x.tree.isCancelled 1 = false ∧
      x.tree.isCancelled 2 = true ∧ x.tree.isCancelled 3 = false ∧
      x.tree.isCancelled 4 = true ∧ x.tree.isCancelled 5 = false ∧
      (x.step (.cancel .root)).tree.isCancelled 1 = true := by
  intro x
  have hlog : x.log = [.back 0, .complete 0] := by decide +kernel
  obtain ⟨hroot, hloops, hmachines, hmonitors, hcancels, -⟩ := ended_alone_or_from_above
    [.openLoop, .openMachine {} "a" "s", .openMachine {} "b" "s", .openMonitor 0,
      .openMonitor 1, .act 0 (.notify (.trigger "go")), .act 0 (.turn false),
      .act 0 (.deed .complete), .act 0 (.settle (.ok ()))]
  have hcompleted : x.Completed 0 := by
    unfold Estate.Completed
    rw [hlog]
  have hother : ¬ x.Completed 1 := by
    unfold Estate.Completed
    rw [hlog]
    decide
  have hnone : ∀ seat, .cancel seat ∉ x.log := by
    intro seat
    rw [hlog]
    simp
  refine ⟨hlog, ?_, ?_, ?_, ?_, ?_, ?_, ?_⟩
  · exact Bool.eq_false_iff.mpr fun h => hnone _ ((hroot 0 (by decide +kernel)).mp h)
  · refine Bool.eq_false_iff.mpr fun h => ?_
    rcases (hloops 0 1 (by decide +kernel)).mp h with h | h
    all_goals exact hnone _ h
  · exact (hmachines 0 2 (by decide +kernel)).mpr (.inl (.inr hcompleted))
  · refine Bool.eq_false_iff.mpr fun h => ?_
    rcases (hmachines 1 3 (by decide +kernel)).mp h with (h | h) | h
    · exact hnone _ h
    · exact hother h
    · exact hnone _ h
  · exact (hmonitors 0 0 4 rfl (by decide +kernel)).1.mpr (.inr (.inl (.inr hcompleted)))
  · refine Bool.eq_false_iff.mpr fun h => ?_
    rcases (hmonitors 1 1 5 rfl (by decide +kernel)).1.mp h with h | (h | h) | h
    · exact hnone _ h
    · exact hnone _ h
    · exact hother h
    · exact hnone _ h
  · exact (hcancels .root (.loop 0) 1 (by decide +kernel) (by decide +kernel)).mpr
      (.inr (by decide +kernel))

end Sequencer
