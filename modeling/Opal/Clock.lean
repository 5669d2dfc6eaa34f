import Opal.Pending

set_option autoImplicit false

namespace Opal

namespace Kernel

section
variable (k : Kernel)

@[simp] theorem set_task_ticks (tid : Nat) (t : Task) : (k.setTask tid t).ticks = k.ticks := rfl

@[simp] theorem enqueue_ticks (tid : Nat) : (k.enqueue tid).ticks = k.ticks := rfl

@[simp] theorem edit_task_ticks (tid : Nat) (edit : Task → Task) : (k.editTask tid edit).ticks = k.ticks := by
  unfold editTask
  split
  · rfl
  · rfl

@[simp] theorem sweep_ticks (look : Task → Task × Bool) : (k.sweep look).ticks = k.ticks := by
  obtain ⟨_, _, _, same⟩ := sweep_frame k look
  rw [same]

@[simp] theorem save_ticks (frame : TrapFrame) : (k.saveCurrent frame).ticks = k.ticks := by
  unfold saveCurrent
  split_ifs
  · rfl
  · split
    · rfl
    · split_ifs
      · rfl
      · rfl

@[simp] theorem switch_ticks (frame : TrapFrame) : (k.switchToNext frame).2.1.ticks = k.ticks := by
  rcases switch_cases k frame with ⟨_, same⟩ | ⟨_, _, _, _, same⟩ | ⟨_, _, _, _, _, same⟩
  · rw [same]
  · rw [same]
    rfl
  · rw [same]
    rfl

@[simp] theorem save_and_switch_ticks (frame : TrapFrame) : (k.saveAndSwitch frame).2.1.ticks = k.ticks :=
  (switch_ticks _ frame).trans (save_ticks k frame)

@[simp] theorem block_and_switch_ticks (frame : TrapFrame) : (k.blockAndSwitch frame).2.1.ticks = k.ticks := by
  unfold blockAndSwitch
  split_ifs
  · rfl
  · exact (switch_ticks _ frame).trans (edit_task_ticks k _ _)

@[simp] theorem deposit_ticks (dst : Nat) (data : List UInt8) : (k.deposit dst data).ticks = k.ticks := by
  unfold deposit
  dsimp only
  split_ifs
  · rfl
  · rfl

@[simp] theorem drain_ticks (cur : Nat) : (k.drain cur).ticks = k.ticks := sweep_ticks _ _

@[simp] theorem after_exit_ticks (code : Int64) : (k.afterExit code).ticks = k.ticks := by
  rw [afterExit, wakeWaiters, sweep_ticks, edit_task_ticks]

end

end Kernel

section
variable (spaces : AddressSpaces) (k : Kernel) (mem : UserMem) (frame : TrapFrame)

theorem tick_ticks : (serviceTick k mem frame).kernel.ticks = k.ticks + 1 := by
  have counted : (onTick k).wakeSleepers.ticks = k.ticks + 1 := Kernel.sweep_ticks _ _
  unfold serviceTick
  dsimp only
  split_ifs
  · exact (Kernel.save_and_switch_ticks _ frame).trans counted
  · exact (Kernel.save_and_switch_ticks _ frame).trans counted
  · exact counted

theorem yield_ticks : (svcYield k mem frame).kernel.ticks = k.ticks := by
  unfold svcYield
  dsimp only
  by_cases user : k.currentTid ≠ 0
  · rw [if_pos user]
    split_ifs
    · exact Kernel.save_and_switch_ticks k frame
    · exact Kernel.save_and_switch_ticks k frame
  · rw [if_neg user, if_neg (fun no => (by cases no))]
    rfl

theorem block_ticks (call : Call) : (blockFor k mem frame call).kernel.ticks = k.ticks := by
  have blocked : ((blockedKernel k call).blockAndSwitch (call.saved frame)).2.1.ticks = k.ticks :=
    (Kernel.block_and_switch_ticks _ _).trans (Kernel.edit_task_ticks k _ _)
  unfold blockFor
  dsimp only
  split_ifs
  · exact blocked
  · exact (Kernel.edit_task_ticks _ _ _).trans blocked

theorem exit_return_ticks (k : Kernel) :
    (onEl0Return spaces (condemnLowHalf spaces { k with preempt := false })).ticks = k.ticks := rfl

theorem kill_return_ticks (k : Kernel) :
    (returnToMonitor spaces (condemnLowHalf spaces { k with preempt := false })).ticks = k.ticks := rfl

theorem exit_ticks : (svcExit spaces k mem frame).kernel.ticks = k.ticks := by
  by_cases nobody : k.currentTid = 0
  · rw [exit_kernel spaces k mem frame nobody]
    exact exit_return_ticks spaces k
  · have switched := (Kernel.switch_ticks (k.afterExit (frame.x 0).toInt64) frame).trans (Kernel.after_exit_ticks k _)
    rw [exit_eq spaces k mem frame nobody]
    dsimp only
    split_ifs
    · exact switched
    · exact (exit_return_ticks spaces _).trans switched

theorem kill_ticks : (killTaskFromEl0 spaces k mem frame).kernel.ticks = k.ticks := by
  by_cases user : 0 < k.currentTid ∧ k.currentTid < maxTasks
  · have switched := (Kernel.switch_ticks k.afterKill frame).trans (Kernel.edit_task_ticks k _ _)
    rw [kill_eq spaces k mem frame user]
    dsimp only
    split_ifs
    · exact switched
    · exact (kill_return_ticks spaces _).trans switched
  · rw [kill_kernel spaces k mem frame user]
    exact kill_return_ticks spaces k

theorem handled_ticks {outcome : Outcome} (handled : Handled spaces k mem frame outcome) :
    outcome.kernel.ticks = k.ticks := by
  cases handled with
  | answered _ _ _ => rfl
  | readFault _ _ _ => rfl
  | writeFault _ _ _ _ _ took _ =>
      obtain ⟨_, _, _, _, rfl⟩ := (Kernel.ipc_recv_ok _ _ _ _ _).mp took
      exact Kernel.drain_ticks k _
  | sent _ _ _ _ _ accepted _ =>
      obtain ⟨_, _, _, rfl⟩ := (Kernel.ipc_send_ok _ _ _ _).mp accepted
      exact Kernel.deposit_ticks k _ _
  | received _ _ _ _ _ took _ _ =>
      obtain ⟨_, _, _, _, rfl⟩ := (Kernel.ipc_recv_ok _ _ _ _ _).mp took
      exact Kernel.drain_ticks k _
  | yielded _ => exact yield_ticks k mem frame
  | blocking call _ => exact block_ticks k mem frame call
  | exited _ => exact exit_ticks spaces k mem frame

end

namespace Machine

-- The event is a tick of the virtual timer, and its handler is reached.
def handlesTick (m : Machine) (event : Event) : Bool :=
  match event.exception with
  | some (_, t) => m.enabled event && !m.oops && isTick t
  | none => false

section
variable (spaces : AddressSpaces) (address : Static → UInt64) (m : Machine)

theorem handles_tick_iff (event : Event) (source : Source) (t : Trap) (taken : event.exception = some (source, t))
    (enabled : m.enabled event = true) (down : m.oops = false) : m.handlesTick event = isTick t := by
  rw [handlesTick, taken]
  simp only [enabled, down, Bool.not_false, Bool.and_true, Bool.true_and]

theorem handled_quiet (event : Event) (source : Source) (t : Trap) (taken : event.exception = some (source, t))
    (async : source = .currentSpElx ∨ t.kind ≠ .synchronous) (quiet : isTick t = false) :
    (m.handled spaces source t).kernel = m.kernel := by
  cases event with
  | el1 fault =>
      cases taken
      unfold handled
      cases kind : t.kind with
      | synchronous =>
          simp only [handle, handleSync]
          split_ifs
          · rfl
          · rfl
          · rfl
      | irq =>
          simp only [isTick, kind, decide_eq_false_iff_not] at quiet
          simp only [handle, handleIrq, if_neg quiet, ite_self]
          rfl
      | fiq =>
          simp only [isTick, kind] at quiet
          simp only [handle, handleFiq, quiet]
          rfl
      | sError => rfl
  | trap fault =>
      cases taken
      have kind := async.resolve_left (by decide)
      have trapped := m.handled_trapped spaces t
      generalize m.handled spaces .lowerAArch64 t = outcome at trapped
      cases trapped with
      | svc call _ _ =>
          simp only [isSvc, decide_eq_true_eq] at call
          exact absurd call.1 kind
      | fault sync _ => exact absurd sync kind
      | tick _ ticks =>
          rw [quiet] at ticks
          cases ticks
      | ignored _ _ => rfl
      | sError _ => rfl
  | _ => cases taken

theorem fire_ticks (event : Event) (quiet : event.exception = none) :
    (m.fire spaces address event).kernel.ticks = m.kernel.ticks := by
  cases event with
  | spawn args =>
      simp only [fire]
      rcases spawn_cases m.kernel args with ⟨_, same⟩ | ⟨_, _, _, _, same⟩
      · rw [same]
      · rw [same]
        rfl
  | drop unmask =>
      rcases drop_cases m unmask with ⟨_, same⟩ | ⟨_, _, _, _, same⟩ | ⟨_, _, _, _, _, same⟩
      · rw [fire, same]
      · rw [fire, same]
        rfl
      · rw [fire, same]
        rfl
  | enter residue =>
      simp only [fire]
      split
      · rfl
      · rfl
  | el1 t => cases quiet
  | trap t => cases quiet
  | _ => rfl

-- Only a tick that is handled moves the clock.
theorem next_ticks (event : Event) :
    (m.next spaces address event).kernel.ticks =
      if m.handlesTick event = true then m.kernel.ticks + 1 else m.kernel.ticks := by
  have step := kernel_step spaces address m event
  generalize m.next spaces address event = after at step
  cases step with
  | still unserved kernel =>
      have idle : ¬ m.handlesTick event = true := by
        rw [handlesTick]
        split
        · rcases unserved with disabled | ⟨raised, _⟩
          · simp only [disabled, Bool.false_and, Bool.false_eq_true, not_false_eq_true]
          · simp only [raised, Bool.not_true, Bool.and_false, Bool.false_and, Bool.false_eq_true, not_false_eq_true]
        · exact fun no => (by cases no)
      rw [if_neg idle, kernel]
  | calm _ quiet fired =>
      have idle : ¬ m.handlesTick event = true := by
        rw [handlesTick, quiet]
        exact fun no => (by cases no)
      rw [if_neg idle, fired, fire_ticks spaces address m event quiet]
  | handled enabled source t taken down stack kernel =>
      rw [handles_tick_iff m event source t taken enabled down, kernel]
      change (m.handled spaces source t).kernel.ticks = _
      cases ticks : isTick t with
      | true => rw [handled_tick spaces m event source t taken ticks, tick_ticks, if_pos rfl]
      | false =>
          rw [if_neg (fun no => (by cases no))]
          by_cases async : source = .currentSpElx ∨ t.kind ≠ .synchronous
          · rw [handled_quiet spaces m event source t taken async ticks]
          · rw [not_or, not_ne_iff] at async
            cases event with
            | el1 fault =>
                cases taken
                exact absurd rfl async.1
            | trap fault =>
                cases taken
                cases call : isSvc t with
                | true =>
                    rw [m.handled_svc spaces t call]
                    exact handled_ticks spaces m.kernel _ _ (svc_handled spaces m.kernel _ _)
                | false =>
                    rw [m.handled_fault spaces t async.2 call]
                    exact kill_ticks spaces m.kernel _ _
            | _ => cases taken

end

end Machine

end Opal
