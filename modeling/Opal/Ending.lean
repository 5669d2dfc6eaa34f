import Opal.Trapped

set_option autoImplicit false

namespace Opal

namespace Kernel

-- Who wake_waiters wakes when a task exits, in slot order.
def waitersOn (k : Kernel) (c : Nat) : List Nat :=
  slots.filter fun tid => tid ≠ c ∧ (k.table tid).state = .blocked ∧ (k.table tid).waitingOn = c

-- The first of those waiting for the core is a live task other than the one
-- giving it up.
def HasSuccessor (k : Kernel) (waiting : List Nat) : Prop :=
  ∃ next rest, waiting = next :: rest ∧ next < maxTasks ∧ (k.table next).state ≠ .exited ∧ next ≠ k.currentTid

-- The kernel as kill_current_task leaves it to the switch.
def afterKill (k : Kernel) : Kernel := k.editTask k.currentTid killed

section
variable (k : Kernel) (code : Int64)

theorem exit_edit_other (tid : Nat) (other : tid ≠ k.currentTid) :
    (k.editTask k.currentTid (exitWith code)).table tid = k.table tid := by
  rw [edit_task_table, if_neg (fun both => other both.1)]

theorem exit_edit_own (low : k.currentTid < maxTasks) :
    ((k.editTask k.currentTid (exitWith code)).table k.currentTid).state = .exited := by
  rw [edit_task_table]
  by_cases gone : (k.table k.currentTid).state = .exited
  · simp [gone]
  · simp [low, gone, exitWith]

theorem exit_edit_waits (tid : Nat) (inside : 0 < tid ∧ tid < maxTasks) :
    (((k.editTask k.currentTid (exitWith code)).table tid).state = .blocked ∧
        ((k.editTask k.currentTid (exitWith code)).table tid).waitingOn = k.currentTid) ↔
      tid ∈ k.waitersOn k.currentTid := by
  simp only [waitersOn, List.mem_filter, mem_slots, inside, and_self, true_and, decide_eq_true_eq]
  by_cases here : tid = k.currentTid
  · have gone := exit_edit_own k code (here ▸ inside.2)
    rw [here, gone]
    simp
  · rw [exit_edit_other k code tid here]
    simp [here]

theorem after_exit_table (tid : Nat) :
    (k.afterExit code).table tid =
      if tid ∈ k.waitersOn k.currentTid then { k.table tid with waitingOn := 0, state := .ready }
      else (k.editTask k.currentTid (exitWith code)).table tid := by
  by_cases inside : 0 < tid ∧ tid < maxTasks
  · have waits := exit_edit_waits k code tid inside
    rw [afterExit, wakeWaiters, sweep_table, if_pos inside]
    by_cases woken : tid ∈ k.waitersOn k.currentTid
    · have apart : tid ≠ k.currentTid := by
        simp only [waitersOn, List.mem_filter, decide_eq_true_eq] at woken
        exact woken.2.1
      rw [wakesWaiter, if_pos (waits.mpr woken), if_pos woken, exit_edit_other k code tid apart]
    · rw [wakesWaiter, if_neg (fun both => woken (waits.mp both)), if_neg woken]
  · have unseen : tid ∉ k.waitersOn k.currentTid := fun woken =>
      inside ((mem_slots tid).mp (List.mem_of_mem_filter woken))
    rw [afterExit, wakeWaiters, sweep_table, if_neg inside, if_neg unseen]

theorem after_exit_ready : (k.afterExit code).ready = (k.ready ++ k.waitersOn k.currentTid).take maxTasks := by
  have wakes : scanWakes (k.editTask k.currentTid (exitWith code)).table slots (wakesWaiter k.currentTid) =
      k.waitersOn k.currentTid := by
    refine List.filter_congr fun tid member => ?_
    have waits := exit_edit_waits k code tid ((mem_slots tid).mp member)
    simp only [waitersOn, List.mem_filter, member, true_and, decide_eq_true_eq] at waits
    by_cases woken : ((k.editTask k.currentTid (exitWith code)).table tid).state = .blocked ∧
        ((k.editTask k.currentTid (exitWith code)).table tid).waitingOn = k.currentTid
    · rw [wakesWaiter, if_pos woken, decide_eq_true (waits.mp woken)]
    · rw [wakesWaiter, if_neg woken, decide_eq_false (fun w => woken (waits.mpr w))]
  rw [afterExit, wakeWaiters, sweep_ready, edit_task_ready, wakes]

@[simp] theorem after_exit_current : (k.afterExit code).currentTid = k.currentTid := by
  simp only [afterExit, wakeWaiters, sweep_current, edit_task_current]

theorem after_exit_current_gone : (k.afterExit code).task k.currentTid = none := by
  unfold task
  by_cases high : k.currentTid ≥ maxTasks
  · rw [if_pos high]
  · have apart : k.currentTid ∉ k.waitersOn k.currentTid := fun woken => by
      simp only [waitersOn, List.mem_filter, decide_eq_true_eq] at woken
      exact woken.2.1 rfl
    have gone : ((k.afterExit code).table k.currentTid).state = .exited := by
      rw [after_exit_table, if_neg apart, exit_edit_own k code (Nat.lt_of_not_ge high)]
    rw [if_neg high, if_pos gone]

theorem after_exit_save (frame : TrapFrame) : (k.afterExit code).saveCurrent frame = k.afterExit code := by
  unfold saveCurrent
  split_ifs
  · rfl
  · rw [after_exit_current, after_exit_current_gone]

theorem after_exit_task (tid : Nat) :
    ((k.afterExit code).task tid).isSome = true ↔
      tid < maxTasks ∧ (k.table tid).state ≠ .exited ∧ tid ≠ k.currentTid := by
  by_cases here : tid = k.currentTid
  · rw [here, after_exit_current_gone]
    simp
  · rw [task_isSome, after_exit_table, exit_edit_other k code tid here]
    by_cases woken : tid ∈ k.waitersOn k.currentTid
    · have blocked : (k.table tid).state = .blocked := by
        simp only [waitersOn, List.mem_filter, decide_eq_true_eq] at woken
        exact woken.2.2.1
      simp [woken, blocked, here]
    · simp [woken, here]

theorem take_cons {α : Type} (n : Nat) (l : List α) (a : α) :
    (∃ rest, l.take (n + 1) = a :: rest) ↔ ∃ rest, l = a :: rest := by
  cases l with
  | nil => simp
  | cons b tail => simp

theorem exit_switches (frame : TrapFrame) :
    ((k.afterExit code).switchToNext frame).1 = true ↔ k.HasSuccessor (k.ready ++ k.waitersOn k.currentTid) := by
  rw [switch_succeeds, after_exit_ready]
  constructor
  · rintro ⟨next, rest, waiting, live⟩
    obtain ⟨rest, whole⟩ := (take_cons 7 _ next).mp ⟨rest, waiting⟩
    exact ⟨next, rest, whole, (after_exit_task k code next).mp live⟩
  · rintro ⟨next, rest, whole, live⟩
    obtain ⟨rest, waiting⟩ := (take_cons 7 _ next).mpr ⟨rest, whole⟩
    exact ⟨next, rest, waiting, (after_exit_task k code next).mpr live⟩

theorem after_kill_task (tid : Nat) :
    (k.afterKill.task tid).isSome = true ↔ tid < maxTasks ∧ (k.table tid).state ≠ .exited ∧ tid ≠ k.currentTid := by
  rw [task_isSome, afterKill, edit_task_table]
  by_cases here : tid = k.currentTid
  · by_cases both : k.currentTid < maxTasks ∧ (k.table k.currentTid).state ≠ .exited
    · simp [here, both, killed]
    · simp only [here, both, and_false, if_false, ne_eq, not_true_eq_false]
  · simp [here]

theorem kill_switches (frame : TrapFrame) : (k.afterKill.switchToNext frame).1 = true ↔ k.HasSuccessor k.ready := by
  rw [switch_succeeds, afterKill, edit_task_ready]
  constructor
  · rintro ⟨next, rest, waiting, live⟩
    exact ⟨next, rest, waiting, (after_kill_task k next).mp live⟩
  · rintro ⟨next, rest, waiting, live⟩
    exact ⟨next, rest, waiting, (after_kill_task k next).mpr live⟩

end

end Kernel

section
variable (spaces : AddressSpaces) (k : Kernel) (mem : UserMem) (frame : TrapFrame)

-- The way back to the monitor loop turns preemption off and condemns the low
-- half, and nothing else.
theorem exit_return_table (k : Kernel) :
    (onEl0Return spaces (condemnLowHalf spaces { k with preempt := false })).table = k.table := rfl

theorem exit_return_current (k : Kernel) :
    (onEl0Return spaces (condemnLowHalf spaces { k with preempt := false })).currentTid = k.currentTid := rfl

theorem kill_return_current (k : Kernel) :
    (returnToMonitor spaces (condemnLowHalf spaces { k with preempt := false })).currentTid = k.currentTid := rfl

theorem kill_return_table (k : Kernel) :
    (returnToMonitor spaces (condemnLowHalf spaces { k with preempt := false })).table = k.table := rfl

theorem exit_return_ready (k : Kernel) :
    (onEl0Return spaces (condemnLowHalf spaces { k with preempt := false })).ready = k.ready := rfl

theorem kill_return_ready (k : Kernel) :
    (returnToMonitor spaces (condemnLowHalf spaces { k with preempt := false })).ready = k.ready := rfl

theorem exit_eq (user : k.currentTid ≠ 0) :
    svcExit spaces k mem frame =
      let result := (k.afterExit (frame.x 0).toInt64).switchToNext frame
      if result.1 then .resumed result.2.1 mem result.2.2
      else .toMonitor (onEl0Return spaces (condemnLowHalf spaces { result.2.1 with preempt := false })) := by
  simp only [svcExit, if_pos user, Kernel.saveAndSwitch, Kernel.after_exit_save]

theorem exit_kernel (nobody : k.currentTid = 0) :
    svcExit spaces k mem frame = .toMonitor (onEl0Return spaces (condemnLowHalf spaces { k with preempt := false })) := by
  simp only [svcExit, nobody, ne_eq, not_true_eq_false, if_false, Bool.false_eq_true]

theorem kill_eq (user : 0 < k.currentTid ∧ k.currentTid < maxTasks) :
    killTaskFromEl0 spaces k mem frame =
      let result := k.afterKill.switchToNext frame
      if result.1 then .resumed result.2.1 mem result.2.2
      else .toMonitor (returnToMonitor spaces (condemnLowHalf spaces { result.2.1 with preempt := false })) := by
  have task : ¬ (k.currentTid = 0 ∨ k.currentTid ≥ maxTasks) := by omega
  simp only [killTaskFromEl0, Kernel.killCurrentTask, if_neg task, Kernel.afterKill]
  rfl

theorem kill_kernel (nobody : ¬ (0 < k.currentTid ∧ k.currentTid < maxTasks)) :
    killTaskFromEl0 spaces k mem frame =
      .toMonitor (returnToMonitor spaces (condemnLowHalf spaces { k with preempt := false })) := by
  have kernel : k.currentTid = 0 ∨ k.currentTid ≥ maxTasks := by omega
  simp only [killTaskFromEl0, Kernel.killCurrentTask, if_pos kernel, Bool.false_eq_true, if_false]

end

end Opal
