import Opal.Grounded
import Opal.Guard

set_option autoImplicit false

namespace Opal

-- What a session should leave behind: no task anywhere, and none current.
structure Kernel.Over (k : Kernel) : Prop where
  exited : ∀ tid, 0 < tid ∧ tid < maxTasks → (k.table tid).state = .exited
  nobody : k.currentTid = 0
  idle : k.ready = []

namespace Kernel

theorem switch_fails_ready (k : Kernel) (frame : TrapFrame) (fails : (k.switchToNext frame).1 = false) :
    (k.switchToNext frame).2.1.ready = k.ready.tail := by
  rcases switch_cases k frame with ⟨nobody, same⟩ | ⟨next, rest, waiting, _, same⟩ | ⟨_, _, _, _, _, same⟩
  · rw [same, nobody]
    rfl
  · rw [same, waiting]
    exact popped_ready k next rest waiting
  · rw [same] at fails
    cases fails

theorem tail_nil_iff {α : Type} (l : List α) : l.tail = [] ↔ l.length ≤ 1 := by
  rw [← List.length_eq_zero_iff, List.length_tail]
  omega

end Kernel

namespace Machine

-- Control comes back to the monitor from a task's own exception.
def ReturnsToMonitor (spaces : AddressSpaces) (address : Static → UInt64) (m : Machine) (event : Event) : Prop :=
  m.mode = .el0 ∧ m.kernel.currentTid ≠ 0 ∧ (m.next spaces address event).mode = .monitor

-- Who is in line for the core when a task's exception ends it: the ready queue
-- and, at an exit, those waiting for it.
def inLine (m : Machine) : Event → List Nat
  | .trap t => m.kernel.ready ++ if isSvc t = true then m.kernel.waitersOn m.kernel.currentTid else []
  | _ => m.kernel.ready

section
variable (spaces : AddressSpaces) (address : Static → UInt64) (m : Machine)

theorem returns_by (event : Event) (returns : m.ReturnsToMonitor spaces address event) :
    ∃ t k, event = .trap t ∧ m.oops = false ∧ (m.next spaces address event).kernel = k ∧
      (isSvc t = true ∧ svcExit spaces m.kernel (m.memAt t) (t.frame m.cpu.spEl1) = .toMonitor k ∨
        isSvc t = false ∧ killTaskFromEl0 spaces m.kernel (m.memAt t) (t.frame m.cpu.spEl1) = .toMonitor k) := by
  obtain ⟨el0, _, monitor⟩ := returns
  have step := stepped spaces address m event
  generalize m.next spaces address event = after at step monitor
  cases step with
  | ignored _ =>
      rw [el0] at monitor
      cases monitor
  | calm enabled quiet =>
      cases event with
      | trap t => cases quiet
      | _ => simp [Machine.enabled, el0] at enabled
  | nested _ _ _ _ _ after mode _ _ =>
      rw [mode] at monitor
      cases monitor
  | resumed _ source t _ _ k _ frame _ after resumed =>
      rw [resumed.mode, resumeMode, el0] at monitor
      split_ifs at monitor
  | parked _ _ _ _ _ _ _ _ after mode _ _ =>
      rw [mode] at monitor
      cases monitor
  | returned enabled source t taken down k outcome after returned =>
      cases event with
      | trap fault =>
          cases taken
          exact ⟨t, k, rfl, down, returned.kernel, to_monitor_by spaces m t k outcome⟩
      | el1 fault => simp [Machine.enabled, el0] at enabled
      | _ => cases taken

end

end Machine

section
variable (spaces : AddressSpaces) (k : Kernel) (mem : UserMem) (frame : TrapFrame)

-- What is left when a task ends and nobody is there to go on: every other slot
-- as live as it was, the ended task still current, and the queue less its head.
structure Abandons (waiting : List Nat) (k' : Kernel) : Prop where
  current : k'.currentTid = k.currentTid
  own : (k'.table k.currentTid).state = .exited
  others : ∀ tid, tid ≠ k.currentTid → ((k'.table tid).state = .exited ↔ (k.table tid).state = .exited)
  queue : k'.ready = [] ↔ waiting.length ≤ 1

theorem exit_abandons (user : 0 < k.currentTid ∧ k.currentTid < maxTasks) (k' : Kernel)
    (ends : svcExit spaces k mem frame = .toMonitor k') :
    Abandons k (k.ready ++ k.waitersOn k.currentTid) k' := by
  rw [exit_eq spaces k mem frame (Nat.ne_of_gt user.1)] at ends
  dsimp only at ends
  split_ifs at ends with switched
  cases ends
  have failed := Bool.eq_false_iff.mpr switched
  have table := Kernel.switch_fails_table _ _ failed
  have apart : k.currentTid ∉ k.waitersOn k.currentTid := fun woken => by
    simp only [Kernel.waitersOn, List.mem_filter, decide_eq_true_eq] at woken
    exact woken.2.1 rfl
  refine ⟨?_, ?_, fun tid other => ?_, ?_⟩
  · rw [exit_return_current, Kernel.switch_fails_current _ _ failed, Kernel.after_exit_current]
  · rw [exit_return_table, table, Kernel.after_exit_table, if_neg apart]
    exact Kernel.exit_edit_own k _ user.2
  · rw [exit_return_table, table, Kernel.after_exit_table, Kernel.exit_edit_other k _ tid other]
    by_cases woken : tid ∈ k.waitersOn k.currentTid
    · rw [if_pos woken]
      simp only [Kernel.waitersOn, List.mem_filter, decide_eq_true_eq] at woken
      simp [woken.2.2.1]
    · rw [if_neg woken]
  · rw [exit_return_ready, Kernel.switch_fails_ready _ _ failed, Kernel.tail_nil_iff, Kernel.after_exit_ready, List.length_take]
    simp only [maxTasks]
    omega

theorem kill_abandons (user : 0 < k.currentTid ∧ k.currentTid < maxTasks) (k' : Kernel)
    (ends : killTaskFromEl0 spaces k mem frame = .toMonitor k') : Abandons k k.ready k' := by
  rw [kill_eq spaces k mem frame user] at ends
  dsimp only at ends
  split_ifs at ends with switched
  cases ends
  have failed := Bool.eq_false_iff.mpr switched
  have table := Kernel.switch_fails_table _ _ failed
  refine ⟨?_, ?_, fun tid other => ?_, ?_⟩
  · rw [kill_return_current, Kernel.switch_fails_current _ _ failed, Kernel.afterKill, Kernel.edit_task_current]
  · rw [kill_return_table, table, Kernel.afterKill, Kernel.edit_task_table]
    by_cases gone : (k.table k.currentTid).state = .exited
    · rw [if_neg (fun all => all.2.2 gone)]
      exact gone
    · rw [if_pos ⟨rfl, user.2, gone⟩]
      rfl
  · rw [kill_return_table, table, Kernel.afterKill, Kernel.edit_task_table, if_neg (fun all => other all.1)]
  · rw [kill_return_ready, Kernel.switch_fails_ready _ _ failed, Kernel.tail_nil_iff, Kernel.afterKill, Kernel.edit_task_ready]

end

namespace Machine

section
variable (spaces : AddressSpaces) (address : Static → UInt64) (m : Machine)

theorem return_abandons (grounded : m.Grounded) (event : Event) (returns : m.ReturnsToMonitor spaces address event) :
    Abandons m.kernel (m.inLine event) (m.next spaces address event).kernel := by
  obtain ⟨t, k, rfl, down, same, how⟩ := returns_by spaces address m event returns
  have inside := grounded.confined _ (grounded.current down returns.2.1)
  rw [same, inLine]
  rcases how with ⟨call, exits⟩ | ⟨other, dies⟩
  · rw [if_pos call]
    exact exit_abandons spaces m.kernel _ _ inside k exits
  · rw [if_neg (by rw [other]; exact fun no => (by cases no)), List.append_nil]
    exact kill_abandons spaces m.kernel _ _ inside k dies

end

-- No return to the monitor leaves the kernel as a finished session should: the
-- ended task stays current. The other slots are Exited exactly if they all were
-- before, and the queue is empty exactly if at most one entry was in line.
theorem session_end_never_over (spaces : AddressSpaces) (address : Static → UInt64) (cpu : Cpu) (events : List Event) :
    Run.Along (next spaces address)
      (fun m event => m.ReturnsToMonitor spaces address event →
        ¬ (m.next spaces address event).kernel.Over ∧
          (m.next spaces address event).kernel.currentTid = m.kernel.currentTid ∧
          ((∀ tid, 0 < tid ∧ tid < maxTasks → ((m.next spaces address event).kernel.table tid).state = .exited) ↔
            ∀ tid, 0 < tid ∧ tid < maxTasks → tid ≠ m.kernel.currentTid → (m.kernel.table tid).state = .exited) ∧
          ((m.next spaces address event).kernel.ready = [] ↔ (m.inLine event).length ≤ 1))
      (boot spaces cpu) events := by
  refine Run.along_of_invariant (next spaces address) (fun _ _ => True) _ Grounded ?_ _ events
    (boot_grounded spaces cpu) (Run.along_of_forall _ _ (fun _ _ => trivial) _ _)
  intro m event grounded _
  refine ⟨grounded_step spaces address m grounded event, fun returns => ?_⟩
  have left := return_abandons spaces address m grounded event returns
  refine ⟨fun ended => ?_, left.current, ⟨fun all tid inside other => ?_, fun all tid inside => ?_⟩, left.queue⟩
  · exact returns.2.1 (left.current.symm.trans ended.nobody)
  · exact (left.others tid other).mp (all tid inside)
  · by_cases here : tid = m.kernel.currentTid
    · rw [here]
      exact left.own
    · exact (left.others tid here).mpr (all tid inside here)

-- Task 1 blocks for a message, and task 2, left alone, exits.
def abandonedReceiver : List Event :=
  [ .spawnAt 1 one_root, .spawnAt 2 two_root, .drop false, .enter fun _ => 0,
    .trap (Trap.svc (registers sysRecvblk [0x200000, 8]) userCodeVa),
    .trap (Trap.svc (registers sysExit []) userCodeVa) ]

theorem last_exit_abandons_receiver :
    ((Run.exec (next flat fun _ => 0) (boot flat coldCpu) abandonedReceiver).mode = .monitor ∧
        (Run.exec (next flat fun _ => 0) (boot flat coldCpu) abandonedReceiver).kernel.currentTid = 2 ∧
        ((Run.exec (next flat fun _ => 0) (boot flat coldCpu) abandonedReceiver).kernel.table 1).state = .blocked) ∧
      ¬ Run.Along (next flat fun _ => 0)
        (fun m event => m.ReturnsToMonitor flat (fun _ => 0) event → (m.next flat (fun _ => 0) event).kernel.Over)
        (boot flat coldCpu) abandonedReceiver := by
  refine ⟨by rw [next_direct]; decide +kernel, fun along => ?_⟩
  obtain ⟨_, returns, _⟩ := (Run.along_append _ _ _ (abandonedReceiver.take 5) (abandonedReceiver.drop 5)).mp along
  have back : ReturnsToMonitor flat (fun _ => 0)
      (Run.exec (next flat fun _ => 0) (boot flat coldCpu) (abandonedReceiver.take 5))
      (.trap (Trap.svc (registers sysExit []) userCodeVa)) := by
    rw [ReturnsToMonitor, next_direct]
    decide +kernel
  have nobody := (returns back).nobody
  rw [next_direct] at nobody
  exact absurd nobody (by decide +kernel)

end Machine

end Opal
