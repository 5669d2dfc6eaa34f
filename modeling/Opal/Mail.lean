import Opal.Lasting

set_option autoImplicit false

namespace Opal

-- A task's mailbox with all that goes with it.
def Task.mail (t : Task) : Vector UInt8 msgMax × Nat × Nat := (t.mailbox, t.mailboxLen, t.mailboxFrom)

-- No mailbox has changed.
def SameMail (k k' : Kernel) : Prop := ∀ tid, (k'.table tid).mail = (k.table tid).mail

namespace SameMail

variable {a b c : Kernel}

theorem refl (k : Kernel) : SameMail k k := fun _ => rfl

theorem trans (first : SameMail a b) (second : SameMail b c) : SameMail a c :=
  fun tid => (second tid).trans (first tid)

theorem of_table (same : b.table = a.table) : SameMail a b := fun tid => by rw [same]

section
variable (k : Kernel)

theorem edit (target : Nat) (change : Task → Task) (keeps : ∀ t, (change t).mail = t.mail) :
    SameMail k (k.editTask target change) := fun tid => by
  rw [Kernel.edit_task_table]
  split_ifs
  · exact keeps _
  · rfl

theorem sweep (look : Task → Task × Bool) (keeps : ∀ t, (look t).1.mail = t.mail) : SameMail k (k.sweep look) :=
  fun tid => by
    rw [Kernel.sweep_table]
    split_ifs
    · exact keeps _
    · rfl

theorem wakes_sender (recvTid : Nat) : SameMail k (k.wakeBlockedSenders recvTid) := by
  refine sweep k _ fun t => ?_
  unfold Kernel.wakesSender
  split_ifs
  · rfl
  · rfl

theorem wakes_waiter (exitingTid : Nat) : SameMail k (k.wakeWaiters exitingTid) := by
  refine sweep k _ fun t => ?_
  unfold Kernel.wakesWaiter
  split_ifs
  · rfl
  · rfl

theorem wakes_sleeper : SameMail k k.wakeSleepers := by
  refine sweep k _ fun t => ?_
  unfold Kernel.wakesSleeper
  split_ifs
  · rfl
  · rfl
  · rfl
  · rfl

theorem switch (frame : TrapFrame) : SameMail k (k.switchToNext frame).2.1 := by
  rcases Kernel.switch_cases k frame with ⟨_, same⟩ | ⟨_, _, _, _, same⟩ | ⟨next, _, t, _, found, same⟩
  · rw [same]
    exact refl k
  · rw [same]
    exact of_table rfl
  · obtain ⟨_, _, rfl⟩ := (Kernel.task_eq_some k next t).mp found
    rw [same]
    intro tid
    by_cases here : tid = next
    · subst here
      simp [Kernel.dispatch, Kernel.popped, Kernel.setTask, Task.mail]
    · simp [Kernel.dispatch, Kernel.popped, Kernel.setTask, here]

theorem save (frame : TrapFrame) : SameMail k (k.saveCurrent frame) := fun tid => by
  rw [Kernel.save_table]
  split_ifs
  · rfl
  · rfl
  · rfl

theorem save_and_switch (frame : TrapFrame) : SameMail k (k.saveAndSwitch frame).2.1 :=
  (save k frame).trans (switch _ frame)

theorem block_and_switch (frame : TrapFrame) : SameMail k (k.blockAndSwitch frame).2.1 := by
  unfold Kernel.blockAndSwitch
  split_ifs
  · exact refl k
  · have blocked : SameMail k (k.blockCurrent frame) := edit k _ _ fun _ => rfl
    exact blocked.trans (switch _ frame)

end

end SameMail

section
variable (spaces : AddressSpaces) (k : Kernel) (mem : UserMem) (frame : TrapFrame)

theorem tick_mail : SameMail k (serviceTick k mem frame).kernel := by
  have woken : SameMail k (onTick k).wakeSleepers := SameMail.wakes_sleeper (onTick k)
  have switched := woken.trans (SameMail.save_and_switch (onTick k).wakeSleepers frame)
  unfold serviceTick
  dsimp only
  split_ifs
  · exact switched
  · exact switched
  · exact woken

theorem yield_mail : SameMail k (svcYield k mem frame).kernel := by
  unfold svcYield
  dsimp only
  by_cases user : k.currentTid ≠ 0
  · rw [if_pos user]
    split_ifs
    · exact SameMail.save_and_switch k frame
    · exact SameMail.save_and_switch k frame
  · rw [if_neg user, if_neg (fun no => (by cases no))]
    exact SameMail.refl k

theorem block_mail (call : Call) : SameMail k (blockFor k mem frame call).kernel := by
  have marked : SameMail k (blockedKernel k call) := by
    refine SameMail.edit k _ _ (fun t => ?_)
    cases call with
    | _ => rfl
  have blocked := marked.trans (SameMail.block_and_switch (blockedKernel k call) (call.saved frame))
  unfold blockFor
  dsimp only
  split_ifs
  · exact blocked
  · refine blocked.trans (SameMail.edit _ _ _ (fun t => ?_))
    cases call with
    | _ => rfl

theorem exit_mail : SameMail k (svcExit spaces k mem frame).kernel := by
  by_cases nobody : k.currentTid = 0
  · rw [exit_kernel spaces k mem frame nobody]
    exact SameMail.of_table (exit_return_table spaces k)
  · have ended : SameMail k (k.afterExit (frame.x 0).toInt64) :=
      (SameMail.edit k k.currentTid (Kernel.exitWith (frame.x 0).toInt64) (fun _ => rfl)).trans
        (SameMail.wakes_waiter _ k.currentTid)
    have switched := ended.trans (SameMail.switch _ frame)
    rw [exit_eq spaces k mem frame nobody]
    dsimp only
    split_ifs
    · exact switched
    · exact switched.trans (SameMail.of_table (exit_return_table spaces _))

theorem kill_mail (tid : Nat) (other : tid ≠ k.currentTid) :
    ((killTaskFromEl0 spaces k mem frame).kernel.table tid).mail = (k.table tid).mail := by
  by_cases user : 0 < k.currentTid ∧ k.currentTid < maxTasks
  · have ended : (k.afterKill.table tid).mail = (k.table tid).mail := by
      rw [Kernel.afterKill, Kernel.edit_task_table, if_neg (fun all => other all.1)]
    have switched := (SameMail.switch k.afterKill frame tid).trans ended
    rw [kill_eq spaces k mem frame user]
    dsimp only
    split_ifs
    · exact switched
    · exact switched
  · rw [kill_kernel spaces k mem frame user]
    rfl

end

end Opal
