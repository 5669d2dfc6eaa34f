import Opal.Pending

set_option autoImplicit false

namespace Opal

namespace Kernel

-- No slot's saved context has changed.
def SameSaved (k k' : Kernel) : Prop := ∀ tid, (k'.table tid).saved = (k.table tid).saved

-- At most the current task's saved context has changed, and then it is the one
-- this exception leaves.
def SavesOnly (left : TrapFrame) (k k' : Kernel) : Prop :=
  ∀ tid, (k'.table tid).saved = (k.table tid).saved ∨ tid = k.currentTid ∧ (k'.table tid).saved = left

namespace SameSaved

variable {a b c : Kernel}

theorem refl (k : Kernel) : SameSaved k k := fun _ => rfl

theorem trans (first : SameSaved a b) (second : SameSaved b c) : SameSaved a c :=
  fun tid => (second tid).trans (first tid)

theorem of_table (same : b.table = a.table) : SameSaved a b := fun tid => by rw [same]

theorem of_leaves (leaves : ∀ cur, Leaves cur a b) : SameSaved a b :=
  fun tid => congrArg (·.1) ((leaves (tid + 1)).others tid (Nat.ne_of_lt (Nat.lt_succ_self tid)))

theorem edit (k : Kernel) (target : Nat) (change : Task → Task) (keeps : ∀ t, (change t).saved = t.saved) :
    SameSaved k (k.editTask target change) := fun tid => by
  rw [edit_task_table]
  split_ifs
  · exact keeps _
  · rfl

theorem switch (k : Kernel) (frame : TrapFrame) : SameSaved k (k.switchToNext frame).2.1 :=
  of_leaves fun _ => Leaves.switch k frame

theorem wakes_sleeper (k : Kernel) : SameSaved k k.wakeSleepers := of_leaves fun _ => Leaves.wakes_sleeper k

theorem wakes_waiter (k : Kernel) (exitingTid : Nat) : SameSaved k (k.wakeWaiters exitingTid) :=
  of_leaves fun _ => Leaves.wakes_waiter k exitingTid

end SameSaved

namespace SavesOnly

variable {left : TrapFrame} {a b c : Kernel}

theorem of_same (same : SameSaved a b) : SavesOnly left a b := fun tid => .inl (same tid)

theorem after (saves : SavesOnly left a b) (same : SameSaved b c) : SavesOnly left a c := fun tid => by
  rw [same tid]
  exact saves tid

theorem before (same : SameSaved a b) (current : b.currentTid = a.currentTid) (saves : SavesOnly left b c) :
    SavesOnly left a c := fun tid => by
  rw [← same tid, ← current]
  exact saves tid

theorem save (k : Kernel) (frame : TrapFrame) : SavesOnly frame k (k.saveCurrent frame) := fun tid => by
  rw [save_table]
  split_ifs with own _
  · exact .inr ⟨own.1, rfl⟩
  · exact .inr ⟨own.1, rfl⟩
  · exact .inl rfl

theorem save_and_switch (k : Kernel) (frame : TrapFrame) : SavesOnly frame k (k.saveAndSwitch frame).2.1 :=
  (save k frame).after (SameSaved.switch _ frame)

theorem block_and_switch (k : Kernel) (frame : TrapFrame) : SavesOnly frame k (k.blockAndSwitch frame).2.1 := by
  have blocked : SavesOnly frame k (k.blockCurrent frame) := fun tid => by
    rw [blockCurrent, edit_task_table]
    split_ifs with own
    · exact .inr ⟨own.1, rfl⟩
    · exact .inl rfl
  unfold blockAndSwitch
  split_ifs
  · exact of_same (SameSaved.refl k)
  · exact blocked.after (SameSaved.switch _ frame)

end SavesOnly

end Kernel

section
variable (spaces : AddressSpaces) (k : Kernel) (mem : UserMem) (frame : TrapFrame)

open Kernel (SameSaved SavesOnly)

theorem tick_saves : SavesOnly frame k (serviceTick k mem frame).kernel := by
  have woken : SameSaved k (onTick k).wakeSleepers := SameSaved.wakes_sleeper (onTick k)
  have current : (onTick k).wakeSleepers.currentTid = k.currentTid := Kernel.sweep_current _ _
  have switched := SavesOnly.before woken current (SavesOnly.save_and_switch (onTick k).wakeSleepers frame)
  unfold serviceTick
  dsimp only
  split_ifs
  · exact switched
  · exact switched
  · exact .of_same woken

theorem tick_saves_current (preempts : k.preempt = true) (user : k.currentTid ≠ 0) (low : k.currentTid < maxTasks)
    (live : (k.table k.currentTid).state ≠ .exited) :
    ((serviceTick k mem frame).kernel.table k.currentTid).saved = frame := by
  have current : (onTick k).wakeSleepers.currentTid = k.currentTid := Kernel.sweep_current _ _
  have armed : (onTick k).wakeSleepers.preempt = true := (Kernel.sweep_preempt _ _).trans preempts
  have alive : ((onTick k).wakeSleepers.table k.currentTid).state ≠ .exited :=
    Kernel.Spares.wakes_sleeper (onTick k) k.currentTid live
  have saved : (((onTick k).wakeSleepers.saveCurrent frame).table k.currentTid).saved = frame := by
    rw [Kernel.save_table, current, if_pos ⟨rfl, user, low, alive⟩]
  have switched := (SameSaved.switch ((onTick k).wakeSleepers.saveCurrent frame) frame k.currentTid).trans saved
  unfold serviceTick
  dsimp only
  rw [if_pos ⟨armed, by rw [current]; exact user⟩]
  split_ifs
  · exact switched
  · exact switched

theorem tick_saves_nothing (quiet : ¬ (k.preempt = true ∧ k.currentTid ≠ 0)) :
    SameSaved k (serviceTick k mem frame).kernel ∧ (serviceTick k mem frame).kernel.dispatches = k.dispatches := by
  have current : (onTick k).wakeSleepers.currentTid = k.currentTid := Kernel.sweep_current _ _
  have armed : (onTick k).wakeSleepers.preempt = k.preempt := Kernel.sweep_preempt _ _
  unfold serviceTick
  dsimp only
  rw [armed, current, if_neg quiet]
  exact ⟨SameSaved.wakes_sleeper (onTick k), (Kernel.SameTask.sweep (onTick k) _).dispatches⟩

theorem yield_saves : SavesOnly frame k (svcYield k mem frame).kernel := by
  unfold svcYield
  dsimp only
  by_cases user : k.currentTid ≠ 0
  · rw [if_pos user]
    split_ifs
    · exact SavesOnly.save_and_switch k frame
    · exact SavesOnly.save_and_switch k frame
  · rw [if_neg user, if_neg (fun no => (by cases no))]
    exact .of_same (SameSaved.refl k)

theorem block_saves (call : Call) : SavesOnly (call.saved frame) k (blockFor k mem frame call).kernel := by
  have marked : SameSaved k (blockedKernel k call) := by
    refine SameSaved.edit k _ _ fun t => ?_
    cases call with
    | _ => rfl
  have current : (blockedKernel k call).currentTid = k.currentTid := Kernel.edit_task_current k _ _
  have blocked := SavesOnly.before marked current (SavesOnly.block_and_switch (blockedKernel k call) (call.saved frame))
  unfold blockFor
  dsimp only
  split_ifs
  · exact blocked
  · refine blocked.after (SameSaved.edit _ _ _ fun t => ?_)
    cases call with
    | _ => rfl

-- A block that finds another task leaves the caller the context it is to go on
-- with.
theorem block_saves_own (call : Call) (live : (k.table k.currentTid).state ≠ .exited) (low : k.currentTid < maxTasks)
    (finds : ((blockedKernel k call).blockAndSwitch (call.saved frame)).1 = true) :
    ((((blockedKernel k call).blockAndSwitch (call.saved frame)).2.1).table k.currentTid).saved = call.saved frame := by
  have current : (blockedKernel k call).currentTid = k.currentTid := Kernel.edit_task_current k _ _
  have user : (blockedKernel k call).currentTid ≠ 0 := by
    rw [current]
    exact block_finds_user k frame call finds
  have alive : ((blockedKernel k call).table k.currentTid).state ≠ .exited := by
    rw [blockedKernel, Kernel.edit_task_table, if_pos ⟨rfl, low, live⟩]
    cases call with
    | _ => exact live
  rw [Kernel.blockAndSwitch, if_neg user, SameSaved.switch _ _ k.currentTid, Kernel.blockCurrent, Kernel.edit_task_table,
    current, if_pos ⟨rfl, low, alive⟩]

theorem exit_saves : SameSaved k (svcExit spaces k mem frame).kernel := by
  by_cases nobody : k.currentTid = 0
  · rw [exit_kernel spaces k mem frame nobody]
    exact .of_table (exit_return_table spaces k)
  · have marked : SameSaved k (k.editTask k.currentTid (Kernel.exitWith (frame.x 0).toInt64)) :=
      SameSaved.edit k _ _ fun _ => rfl
    have ended : SameSaved k (k.afterExit (frame.x 0).toInt64) := marked.trans (SameSaved.wakes_waiter _ _)
    exact (ended.trans (SameSaved.switch _ frame)).trans (.of_table (exit_kernel_table spaces k mem frame nobody))

theorem kill_saves : SameSaved k (killTaskFromEl0 spaces k mem frame).kernel := by
  by_cases user : 0 < k.currentTid ∧ k.currentTid < maxTasks
  · have ended : SameSaved k k.afterKill := SameSaved.edit k _ _ fun _ => rfl
    exact (ended.trans (SameSaved.switch _ frame)).trans (.of_table (kill_kernel_table spaces k mem frame user))
  · rw [kill_kernel spaces k mem frame user]
    exact .of_table (kill_return_table spaces k)

theorem trapped_saves (t : Trap) {outcome : Outcome} (trapped : Trapped spaces k mem frame t outcome) :
    SavesOnly (leaving spaces k mem frame t) k outcome.kernel := by
  cases trapped with
  | svc call _ handled =>
      cases handled with
      | answered _ _ _ => exact .of_same (SameSaved.refl k)
      | readFault _ _ _ => exact .of_same (SameSaved.refl k)
      | writeFault _ _ _ _ _ took _ =>
          obtain ⟨_, _, _, _, rfl⟩ := (Kernel.ipc_recv_ok _ _ _ _ _).mp took
          exact .of_same (.of_leaves fun _ => Kernel.Leaves.drain k _)
      | sent _ _ _ _ _ accepted _ =>
          obtain ⟨_, live, _, rfl⟩ := (Kernel.ipc_send_ok _ _ _ _).mp accepted
          exact .of_same (.of_leaves fun _ => Kernel.Leaves.deposit k _ _ live)
      | received _ _ _ _ _ took _ _ =>
          obtain ⟨_, _, _, _, rfl⟩ := (Kernel.ipc_recv_ok _ _ _ _ _).mp took
          exact .of_same (.of_leaves fun _ => Kernel.Leaves.drain k _)
      | yielded yield_ =>
          have left : leaving spaces k mem frame t = frame := by
            simp only [leaving, call, yield_does_not_block spaces k mem frame yield_, if_true]
          rw [left]
          exact yield_saves k mem frame
      | blocking call' blocks =>
          have left : leaving spaces k mem frame t = call'.saved frame := by simp only [leaving, call, blocks, if_true]
          rw [left]
          exact block_saves k mem frame call'
      | exited _ => exact .of_same (exit_saves spaces k mem frame)
  | fault _ _ => exact .of_same (kill_saves spaces k mem frame)
  | tick async _ =>
      have left : leaving spaces k mem frame t = frame := by simp [leaving, async]
      rw [left]
      exact tick_saves k mem frame
  | ignored _ _ => exact .of_same (SameSaved.refl k)
  | sError _ => exact .of_same (SameSaved.refl k)

end

end Opal
