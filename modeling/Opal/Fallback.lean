import Opal.Lasting

set_option autoImplicit false

namespace Opal

-- The kernel and the frame as a call that could not block should leave them.
structure Restored (before after : Kernel) (frame frame' : TrapFrame) : Prop where
  current : after.currentTid = before.currentTid
  running : before.currentTid ≠ 0 → (after.table before.currentTid).state = .running
  marks : (after.table before.currentTid).wakeTick = (before.table before.currentTid).wakeTick ∧
    (after.table before.currentTid).waitingOn = (before.table before.currentTid).waitingOn ∧
    (after.table before.currentTid).blockedSendDst = (before.table before.currentTid).blockedSendDst
  others : ∀ tid, tid ≠ before.currentTid → after.table tid = before.table tid
  ready : after.ready = before.ready
  frame : ∃ value, frame' = frame.setX 0 value

section
variable (k : Kernel) (mem : UserMem) (frame : TrapFrame) (call : Call)

theorem block_refused (refused : ((blockedKernel k call).blockAndSwitch (call.saved frame)).1 = false) :
    blockFor k mem frame call =
      .resumed (((blockedKernel k call).blockAndSwitch (call.saved frame)).2.1.editTask k.currentTid call.unmark) mem
        (call.refused frame) := by
  simp only [blockFor, refused, Bool.false_eq_true, if_false]

theorem unmark_state (t : Task) : (call.unmark t).state = t.state := by
  cases call with
  | _ => rfl

theorem mark_state (now : UInt64) (t : Task) : (call.mark now t).state = t.state := by
  cases call with
  | _ => rfl

theorem edit_state (tid other : Nat) (change : Task → Task) (keeps : ∀ t, (change t).state = t.state) :
    ((k.editTask tid change).table other).state = (k.table other).state := by
  rw [Kernel.edit_task_table]
  split_ifs
  · exact keeps _
  · rfl

-- The refused handler takes its mark back, but not the Blocked state.
theorem refused_not_running (confined : ∀ tid, (k.table tid).state ≠ .exited → 0 < tid ∧ tid < maxTasks)
    (user : k.currentTid ≠ 0) (refused : ((blockedKernel k call).blockAndSwitch (call.saved frame)).1 = false) :
    ((((blockedKernel k call).blockAndSwitch (call.saved frame)).2.1.editTask k.currentTid call.unmark).table
      k.currentTid).state ≠ .running := by
  have current : (blockedKernel k call).currentTid = k.currentTid := Kernel.edit_task_current k _ _
  have marked : ((blockedKernel k call).table k.currentTid).state = (k.table k.currentTid).state :=
    edit_state k _ _ _ (mark_state call k.ticks)
  rw [edit_state _ _ _ _ (unmark_state call)]
  rw [Kernel.blockAndSwitch, if_neg (by rwa [current])] at refused ⊢
  rw [Kernel.switch_fails_table _ _ refused, Kernel.blockCurrent, Kernel.edit_task_table, current, marked]
  by_cases gone : (k.table k.currentTid).state = .exited
  · rw [if_neg (fun all => all.2.2 gone), marked, gone]
    decide
  · rw [if_pos ⟨rfl, (confined _ gone).2, gone⟩]
    exact fun no => (by cases no)

theorem refused_frame : ∃ value, call.refused frame = frame.setX 0 value := by
  have back : ({ frame with elr := frame.elr - 4 + 4 } : TrapFrame) = frame := by
    rw [UInt64.sub_add_cancel]
  cases call with
  | sleep ticks => exact ⟨0, rfl⟩
  | recvblk => exact ⟨_, by simp only [Call.refused, back]; rfl⟩
  | sendblk dst => exact ⟨_, by simp only [Call.refused, back]; rfl⟩
  | wait child => exact ⟨_, by simp only [Call.refused, back]; rfl⟩

-- With no task current there is nothing to mark and nothing to put back.
theorem kernel_refused (nobody : k.currentTid = 0) (free : (k.table 0).state = .exited) :
    ((blockedKernel k call).blockAndSwitch (call.saved frame)).2.1.editTask k.currentTid call.unmark = k := by
  have absent : k.task 0 = none := by
    unfold Kernel.task
    rw [if_neg (by decide), if_pos free]
  have untouched : ∀ change, k.editTask 0 change = k := fun change => by
    rw [Kernel.editTask, absent]
  rw [blockedKernel, nobody, untouched, Kernel.blockAndSwitch, if_pos nobody, untouched]

end

-- A refused block is undone exactly where there is no task to undo it for.
theorem refused_block_restores_iff (spaces : AddressSpaces) (address : Static → UInt64) (cpu : Cpu)
    (events : List Event) (mem : UserMem) (frame : TrapFrame) (call : Call) (k : Kernel)
    (reached : k = (Run.exec (Machine.next spaces address) (Machine.boot spaces cpu) events).kernel)
    (blocks : blockingCall spaces k mem frame = some call)
    (refused : ((blockedKernel k call).blockAndSwitch (call.saved frame)).1 = false) :
    ∃ after frame', handleSvcFromEl0 spaces k mem frame = .resumed after mem frame' ∧
      (Restored k after frame frame' ↔ k.currentTid = 0) := by
  have confined : ∀ tid, (k.table tid).state ≠ .exited → 0 < tid ∧ tid < maxTasks := by
    rw [reached]
    exact Machine.confined_run spaces address cpu events
  refine ⟨_, _, (handled_blocks spaces k mem frame call blocks).trans (block_refused k mem frame call refused), ?_⟩
  constructor
  · intro restored
    by_contra user
    exact refused_not_running k frame call confined user refused (restored.running user)
  · intro nobody
    have free : (k.table 0).state = .exited := by
      by_contra live
      exact absurd (confined 0 live).1 (Nat.lt_irrefl 0)
    rw [kernel_refused k frame call nobody free]
    exact ⟨rfl, fun user => absurd nobody user, ⟨rfl, rfl, rfl⟩, fun _ _ => rfl, rfl, refused_frame frame call⟩

-- One task alone, and the frame of its sleep(5).
def loneTask : List Event := [.spawnAt 1 one_root, .drop false, .enter fun _ => 0]

def loneSleep : Trap := Trap.svc (registers sysSleep [5]) userCodeVa

def loneKernel : Kernel := (Run.exec (Machine.next flat fun _ => 0) (Machine.boot flat coldCpu) loneTask).kernel

theorem lone_sleep_restores_iff :
    ∃ after frame', handleSvcFromEl0 flat loneKernel (fun _ _ => 0) (loneSleep.frame 0) = .resumed after (fun _ _ => 0) frame' ∧
      (Restored loneKernel after (loneSleep.frame 0) frame' ↔ loneKernel.currentTid = 0) :=
  refused_block_restores_iff flat (fun _ => 0) coldCpu loneTask (fun _ _ => 0) (loneSleep.frame 0) (.sleep 5) loneKernel
    rfl (by decide +kernel) (by decide +kernel)

-- The sleeper goes on at EL0 marked Blocked, and its next yield queues nobody.
theorem lone_sleep_not_restored :
    ((Run.exec (Machine.next flat fun _ => 0) (Machine.boot flat coldCpu) (loneTask ++ [.trap loneSleep])).mode = .el0 ∧
        ((Run.exec (Machine.next flat fun _ => 0) (Machine.boot flat coldCpu)
          (loneTask ++ [.trap loneSleep])).kernel.table 1).state = .blocked ∧
        (Run.exec (Machine.next flat fun _ => 0) (Machine.boot flat coldCpu)
          (loneTask ++ [.trap loneSleep, .trap (Trap.svc (registers sysYield []) userCodeVa)])).kernel.ready = []) ∧
      ¬ ∃ after frame',
        handleSvcFromEl0 flat loneKernel (fun _ _ => 0) (loneSleep.frame 0) = .resumed after (fun _ _ => 0) frame' ∧
          Restored loneKernel after (loneSleep.frame 0) frame' := by
  refine ⟨by decide +kernel, ?_⟩
  rintro ⟨after, frame', outcome, restored⟩
  have user : loneKernel.currentTid ≠ 0 := by decide +kernel
  have refused : ((blockedKernel loneKernel (.sleep 5)).blockAndSwitch
      ((Call.sleep 5).saved (loneSleep.frame 0))).1 = false := by decide +kernel
  have blocks : blockingCall flat loneKernel (fun _ _ => 0) (loneSleep.frame 0) = some (.sleep 5) := by decide +kernel
  have confined := Machine.confined_run flat (fun _ => 0) coldCpu loneTask
  rw [handled_blocks _ _ _ _ _ blocks, block_refused _ _ _ _ refused] at outcome
  cases outcome
  exact refused_not_running loneKernel (loneSleep.frame 0) (.sleep 5) confined user refused (restored.running user)

end Opal
