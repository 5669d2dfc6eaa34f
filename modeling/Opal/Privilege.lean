import Opal.Saved

set_option autoImplicit false

namespace Opal

-- The context a trap leaves goes on where the trap was taken or, for a call
-- that blocks to be made again, on the svc before it.
theorem leaving_place (spaces : AddressSpaces) (k : Kernel) (mem : UserMem) (frame : TrapFrame) (t : Trap) :
    (leaving spaces k mem frame t).elr = frame.elr ∨
      isSvc t = true ∧ (leaving spaces k mem frame t).elr = frame.elr - 4 := by
  unfold leaving
  split_ifs with call
  · split
    · next blocked _ =>
        cases blocked with
        | sleep _ => exact .inl rfl
        | _ => exact .inr ⟨call, rfl⟩
    · exact .inl rfl
  · exact .inl rfl

theorem initial_el0 (args : Kernel.SpawnArgs) : isEl0 args.initial.saved.spsr = true :=
  show isEl0 0 = true by decide

namespace Machine

-- Where each task has stood: at its entry when it was spawned, and at EL0 each
-- time an exception was taken from it, an svc counting with the place behind it.
def stands (m : Machine) (event : Event) (_ : Machine) (stood : Nat → List UInt64) : Nat → List UInt64 :=
  match event with
  | .spawn args =>
      if m.enabled (.spawn args) = true then
        match m.kernel.allocTask.1 with
        | some fresh => Function.update stood fresh [args.entry]
        | none => stood
      else stood
  | .trap t =>
      if m.enabled (.trap t) = true then
        Function.update stood m.kernel.currentTid
          (t.pc :: (if isSvc t = true then [t.pc - 4] else []) ++ stood m.kernel.currentTid)
      else stood
  | _ => stood

-- Every saved context is one of EL0, and goes on at a place of its own task's.
structure Unprivileged (k : Kernel) (stood : Nat → List UInt64) : Prop where
  level : ∀ tid, isEl0 (k.table tid).saved.spsr = true
  place : ∀ tid, (k.table tid).state ≠ .exited → (k.table tid).saved.elr ∈ stood tid

-- An event ends with an eret into a task if it starts one, is taken from one,
-- or hands the core to one.
def Erets (m after : Machine) : Event → Prop
  | .enter _ => True
  | .trap _ => after.mode ≠ .monitor ∧ ∀ cause, after.mode ≠ .parked cause
  | .el1 _ => after.kernel.dispatches ≠ m.kernel.dispatches
  | _ => False

-- A preempting tick taken from the kernel's own code while a task is current:
-- between the unmasking in a drop and its eret.
def InterruptsDrop (m : Machine) : Event → Prop
  | .el1 t =>
      m.enabled (.el1 t) = true ∧ m.oops = false ∧ isTick t = true ∧ m.kernel.preempt = true ∧ m.kernel.currentTid ≠ 0
  | _ => False

section
variable (spaces : AddressSpaces) (address : Static → UInt64) (m : Machine) (stood : Nat → List UInt64)

theorem el1_saves (t : Trap) (enabled : m.enabled (.el1 t) = true) (down : m.oops = false)
    (quiet : ¬ m.InterruptsDrop (.el1 t)) :
    Kernel.SameSaved m.kernel (m.handled spaces .currentSpElx t).kernel ∧
      (m.handled spaces .currentSpElx t).kernel.dispatches = m.kernel.dispatches := by
  unfold handled
  cases kind : t.kind with
  | synchronous =>
      simp only [handle, handleSync]
      split_ifs
      · exact ⟨.refl _, rfl⟩
      · exact ⟨.refl _, rfl⟩
      · exact ⟨.refl _, rfl⟩
  | irq =>
      simp only [handle, handleIrq]
      split_ifs with _ timer
      · exact ⟨.refl _, rfl⟩
      · have ticks : isTick t = true := by simp only [isTick, kind, timer, decide_true]
        exact tick_saves_nothing m.kernel _ _ fun preempts => quiet ⟨enabled, down, ticks, preempts⟩
      · exact ⟨.refl _, rfl⟩
  | fiq =>
      simp only [handle, handleFiq]
      split_ifs with fired
      · have ticks : isTick t = true := by simp only [isTick, kind, fired]
        exact tick_saves_nothing m.kernel _ _ fun preempts => quiet ⟨enabled, down, ticks, preempts⟩
      · exact ⟨.refl _, rfl⟩
  | sError => exact ⟨.refl _, rfl⟩

-- A tick in the middle of a drop puts the kernel's own context in the slot of
-- the task the drop is for.
theorem interrupted_drop_saves (grounded : m.Grounded) (t : Trap) (interrupts : m.InterruptsDrop (.el1 t)) :
    ((m.next spaces address (.el1 t)).kernel.table m.kernel.currentTid).saved.spsr = t.pstate := by
  obtain ⟨enabled, down, ticks, preempts, user⟩ := interrupts
  have live := grounded.current down user
  have handled := m.handled_tick spaces (.el1 t) .currentSpElx t rfl ticks
  have saved := tick_saves_current m.kernel (m.memFor .currentSpElx t) (t.frame m.cpu.spEl1) preempts user
    (grounded.confined _ live).2 live
  cases kernel_step spaces address m (.el1 t) with
  | still unserved _ =>
      rcases unserved with disabled | ⟨raised, _⟩
      · rw [disabled] at enabled
        cases enabled
      · rw [raised] at down
        cases down
  | calm _ quiet _ => cases quiet
  | handled _ source fault taken _ _ kernel =>
      cases taken
      rw [kernel, handled]
      exact congrArg TrapFrame.spsr saved

theorem stands_keeps (event : Event) (after : Machine) (old : ∀ args, event ≠ .spawn args) (tid : Nat) (va : UInt64)
    (member : va ∈ stood tid) : va ∈ stands m event after stood tid := by
  cases event with
  | spawn args => exact absurd rfl (old args)
  | trap t =>
      simp only [stands]
      split_ifs
      · by_cases own : tid = m.kernel.currentTid
        · subst own
          rw [Function.update_self]
          exact List.mem_append_right _ member
        · rw [Function.update_of_ne own]
          exact member
      · by_cases own : tid = m.kernel.currentTid
        · subst own
          rw [Function.update_self]
          exact List.mem_append_right _ member
        · rw [Function.update_of_ne own]
          exact member
      · exact member
  | _ => exact member

theorem fire_unprivileged (unprivileged : Unprivileged m.kernel stood) (event : Event) (enabled : m.enabled event = true)
    (quiet : event.exception = none) (after : Machine) :
    Unprivileged (m.fire spaces address event).kernel (stands m event after stood) := by
  by_cases old : ∀ args, event ≠ .spawn args
  · refine ⟨fun tid => ?_, fun tid live => ?_⟩
    · rcases fire_task spaces address m event quiet tid with same | ⟨_, _, same⟩ | ⟨_, same⟩
      · rw [same]
        exact unprivileged.level tid
      · rw [same]
        exact initial_el0 _
      · rw [same]
        exact unprivileged.level tid
    · have left := fire_leaves spaces address m event quiet old
      have was : (m.kernel.table tid).state ≠ .exited := fun gone => live (left.ended tid gone).1
      have place := stands_keeps m stood event after old tid _ (unprivileged.place tid was)
      rcases fire_task spaces address m event quiet tid with same | ⟨gone, _⟩ | ⟨_, same⟩
      · rw [same]
        exact place
      · exact absurd gone was
      · rw [same]
        exact place
  · obtain ⟨args, born⟩ : ∃ args, event = .spawn args := by
      simpa only [ne_eq, not_forall, not_not] using old
    subst born
    simp only [fire, stands, if_pos enabled]
    rcases spawn_cases m.kernel args with ⟨full, same⟩ | ⟨fresh, found, _, _, same⟩
    · rw [same, full]
      exact unprivileged
    · rw [same, found]
      dsimp only
      refine ⟨fun tid => ?_, fun tid live => ?_⟩
      · rw [Kernel.enqueue_table, Kernel.set_task_table]
        by_cases here : tid = fresh
        · rw [here, Function.update_self]
          exact initial_el0 args
        · rw [Function.update_of_ne here]
          exact unprivileged.level tid
      · rw [Kernel.enqueue_table, Kernel.set_task_table] at live ⊢
        by_cases here : tid = fresh
        · rw [here, Function.update_self, Function.update_self]
          exact List.mem_singleton_self _
        · rw [Function.update_of_ne here] at live ⊢
          rw [Function.update_of_ne here]
          exact unprivileged.place tid live

theorem trap_unprivileged (unprivileged : Unprivileged m.kernel stood) (t : Trap) (enabled : m.enabled (.trap t) = true)
    (after : Machine) :
    Unprivileged (m.handled spaces .lowerAArch64 t).kernel (stands m (.trap t) after stood) := by
  have saves := trapped_saves spaces _ _ _ t (m.handled_trapped spaces t)
  have left := handled_leaves spaces m (.trap t) _ t rfl
  have user := m.trap_pstate t enabled
  refine ⟨fun tid => ?_, fun tid live => ?_⟩
  · rcases saves tid with same | ⟨_, same⟩
    · rw [same]
      exact unprivileged.level tid
    · rw [same, leaving_pstate]
      exact user
  · have was : (m.kernel.table tid).state ≠ .exited := fun gone => live (left.ended tid gone).1
    rcases saves tid with same | ⟨own, same⟩
    · rw [same]
      exact stands_keeps m stood (.trap t) after (fun _ => Event.noConfusion) tid _ (unprivileged.place tid was)
    · rw [same, own]
      simp only [stands, if_pos enabled, Function.update_self]
      rcases leaving_place spaces m.kernel (m.memAt t) (t.frame m.cpu.spEl1) t with here | ⟨call, behind⟩
      · rw [here]
        exact List.mem_cons_self
      · rw [behind, if_pos call]
        exact List.mem_cons_of_mem _ List.mem_cons_self

theorem trap_erets_el0 (grounded : m.Grounded) (unprivileged : Unprivileged m.kernel stood) (t : Trap)
    (enabled : m.enabled (.trap t) = true) (k : Kernel) (mem : UserMem) (frame : TrapFrame)
    (outcome : m.handled spaces .lowerAArch64 t = .resumed k mem frame) : isEl0 frame.spsr = true := by
  have user := m.trap_pstate t enabled
  cases (m.handled_onward spaces grounded.confined t).resumes k mem frame outcome with
  | stays _ _ pstate =>
      rw [pstate, leaving_pstate]
      exact user
  | switches next _ _ _ _ _ loaded =>
      rw [loaded]
      split_ifs
      · rw [leaving_pstate]
        exact user
      · exact unprivileged.level next

-- A step keeps every saved context at EL0, and its eret into a task goes to
-- EL0, exactly if it is not a preempting tick in the middle of a drop.
theorem step_unprivileged_iff (grounded : m.Grounded) (unprivileged : Unprivileged m.kernel stood) (event : Event) :
    (Unprivileged (m.next spaces address event).kernel (stands m event (m.next spaces address event) stood) ∧
        (m.enabled event = true → m.Erets (m.next spaces address event) event →
          isEl0 (m.next spaces address event).cpu.pstate = true)) ↔
      ¬ m.InterruptsDrop event := by
  refine ⟨fun both interrupts => ?_, fun quiet => ?_⟩
  · cases event with
    | el1 t =>
        have saved := interrupted_drop_saves spaces address m grounded t interrupts
        have el0 := both.1.level m.kernel.currentTid
        have el1 := interrupts.1
        rw [saved] at el0
        simp only [Machine.enabled, el0, Bool.not_true, Bool.false_and, Bool.false_eq_true] at el1
    | _ => exact interrupts
  · have step := stepped spaces address m event
    have kernels := kernel_step spaces address m event
    generalize m.next spaces address event = after at step kernels
    refine ⟨?_, fun enabled erets => ?_⟩
    · cases kernels with
      | still unserved kernel =>
          rw [kernel]
          refine ⟨unprivileged.level, fun tid live => ?_⟩
          by_cases old : ∀ args, event ≠ .spawn args
          · exact stands_keeps m stood event after old tid _ (unprivileged.place tid live)
          · obtain ⟨args, born⟩ : ∃ args, event = .spawn args := by
              simpa only [ne_eq, not_forall, not_not] using old
            subst born
            rcases unserved with disabled | ⟨_, taken⟩
            · rw [stands, if_neg (by rw [disabled]; exact fun no => (by cases no))]
              exact unprivileged.place tid live
            · exact absurd rfl taken
      | calm enabled calm fired =>
          rw [fired]
          exact fire_unprivileged spaces address m stood unprivileged event enabled calm _
      | handled enabled source t taken down _ kernel =>
          rw [kernel]
          cases event with
          | el1 fault =>
              cases taken
              obtain ⟨same, _⟩ := el1_saves spaces m t enabled down quiet
              have left := handled_leaves spaces m (.el1 t) _ t rfl
              refine ⟨fun tid => ?_, fun tid live => ?_⟩
              · change isEl0 (((m.handled spaces .currentSpElx t).kernel.table tid).saved).spsr = true
                rw [same tid]
                exact unprivileged.level tid
              · change (((m.handled spaces .currentSpElx t).kernel.table tid).saved).elr ∈ stood tid
                rw [same tid]
                exact unprivileged.place tid fun gone => live (left.ended tid gone).1
          | trap fault =>
              cases taken
              have kept := trap_unprivileged spaces m stood unprivileged t enabled after
              exact ⟨kept.level, kept.place⟩
          | _ => cases taken
    · cases event with
      | enter residue =>
          cases step with
          | calm _ _ =>
              cases dropping : m.mode with
              | dropping root =>
                  simp only [fire, dropping]
                  exact (show isEl0 0 = true by decide)
              | _ => simp [Machine.enabled, dropping] at enabled
          | ignored disabled =>
              rw [disabled] at enabled
              cases enabled
          | _ => contradiction
      | trap t =>
          obtain ⟨away, runs⟩ := erets
          cases step with
          | ignored disabled =>
              rw [disabled] at enabled
              cases enabled
          | calm _ calm => cases calm
          | nested _ _ _ _ _ _ mode _ _ => exact absurd mode (runs _)
          | resumed _ source fault taken _ k mem frame outcome _ resumed =>
              cases taken
              rw [resumed.pstate]
              exact trap_erets_el0 spaces m stood grounded unprivileged t enabled k mem frame outcome
          | returned _ _ _ _ _ _ _ _ returned => exact absurd returned.mode away
          | parked _ _ _ _ _ _ _ _ _ mode _ _ => exact absurd mode (runs _)
      | el1 t =>
          refine absurd ?_ erets
          cases kernels with
          | still _ kernel => rw [kernel]
          | calm _ calm _ => cases calm
          | handled enabled _ fault taken down _ kernel =>
              cases taken
              rw [kernel]
              exact (el1_saves spaces m t enabled down quiet).2
      | _ => exact absurd erets id

end

theorem boot_unprivileged (spaces : AddressSpaces) (cpu : Cpu) : Unprivileged (boot spaces cpu).kernel fun _ => [] :=
  ⟨fun _ => (show isEl0 0 = true by decide), fun _ live => absurd rfl live⟩

end Machine

end Opal
