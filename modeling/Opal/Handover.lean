import Opal.Lasting

set_option autoImplicit false

namespace Opal

-- The context the current task is left with if this exception takes the core
-- away from it: its own registers, unless a call of its own blocks.
def leaving (spaces : AddressSpaces) (k : Kernel) (mem : UserMem) (frame : TrapFrame) (t : Trap) : TrapFrame :=
  if isSvc t = true then
    match blockingCall spaces k mem frame with
    | some call => call.saved frame
    | none => frame
  else frame

theorem leaving_pstate (spaces : AddressSpaces) (k : Kernel) (mem : UserMem) (frame : TrapFrame) (t : Trap) :
    (leaving spaces k mem frame t).spsr = frame.spsr := by
  unfold leaving
  split_ifs
  · split
    · next call _ =>
        cases call with
        | _ => rfl
    · rfl
  · rfl

-- Where a handler that returns goes on: in the same task, or in a live task
-- with the context that task had, or left now, and with its address space.
inductive Onward (k : Kernel) (left : TrapFrame) (k' : Kernel) (frame' : TrapFrame) : Prop where
  | stays (same : Kernel.SameTask k k') (spares : Kernel.Spares k k') (pstate : frame'.spsr = left.spsr)
  | switches (next : Nat) (low : next < maxTasks) (live : (k.table next).state ≠ .exited)
      (current : k'.currentTid = next) (runs : (k'.table next).state = .running)
      (root : k'.ttbr0 = if (k.table next).ttbr0Pa ≠ 0 then (k.table next).ttbr0Pa else k.ttbr0)
      (frame : frame' = if next = k.currentTid then left else (k.table next).saved)

-- What is left in the slot of the task that lost the core.
def LeftBehind (k : Kernel) (left : TrapFrame) (k' : Kernel) : Prop :=
  k'.currentTid ≠ k.currentTid →
    (k'.table k.currentTid).state = .exited ∨ (k'.table k.currentTid).saved = left

section
variable (k k₁ : Kernel) (left : TrapFrame)

open Kernel (Leaves SameTask Spares)

-- The handler has put the current task's context away, or ended the task, and
-- now switches.
theorem switch_onward (given : TrapFrame) (same : SameTask k k₁) (leaves : Leaves k.currentTid k k₁)
    (own : (k₁.table k.currentTid).state = .exited ∨ (k₁.table k.currentTid).saved = left) :
    ((k₁.switchToNext given).1 = true →
        Onward k left (k₁.switchToNext given).2.1 (k₁.switchToNext given).2.2) ∧
      ((k₁.switchToNext given).1 = false → SameTask k (k₁.switchToNext given).2.1) ∧
      LeftBehind k left (k₁.switchToNext given).2.1 := by
  rcases Kernel.switch_cases k₁ given with ⟨_, result⟩ | ⟨next, _, _, _, result⟩ | ⟨next, rest, t, waiting, found, result⟩
  · rw [result]
    exact ⟨fun no => (by cases no), fun _ => same, fun moved => absurd same.current moved⟩
  · rw [result]
    exact ⟨fun no => (by cases no), fun _ => same.trans (SameTask.vanished k₁ next), fun moved => absurd same.current moved⟩
  · rw [result]
    obtain ⟨low, live, rfl⟩ := (Kernel.task_eq_some k₁ next t).mp found
    have was : (k.table next).state ≠ .exited := fun gone => live (leaves.ended next gone).1
    have runs : ((k₁.popped.dispatch next (k₁.table next)).table next).state = .running := by
      simp [Kernel.dispatch, Kernel.popped, Kernel.setTask]
    refine ⟨fun _ => .switches next low was rfl runs ?_ ?_, fun no => (by cases no), fun moved => ?_⟩
    · rw [← leaves.space next, ← same.root]
      rfl
    · by_cases here : next = k.currentTid
      · rw [if_pos here]
        subst here
        exact own.resolve_left live
      · rw [if_neg here]
        exact congrArg (·.1) (leaves.others next here)
    · have apart : k.currentTid ≠ next := fun here => moved here.symm
      have unchanged : (k₁.popped.dispatch next (k₁.table next)).table k.currentTid = k₁.table k.currentTid := by
        simp [Kernel.dispatch, Kernel.popped, Kernel.setTask, apart]
      rw [unchanged]
      exact own

theorem save_onward (given : TrapFrame) (same : SameTask k k₁) (leaves : Leaves k.currentTid k k₁)
    (confined : ∀ tid, (k.table tid).state ≠ .exited → 0 < tid ∧ tid < maxTasks) :
    ((k₁.saveAndSwitch given).1 = true → Onward k given (k₁.saveAndSwitch given).2.1 (k₁.saveAndSwitch given).2.2) ∧
      ((k₁.saveAndSwitch given).1 = false → SameTask k (k₁.saveAndSwitch given).2.1) ∧
      LeftBehind k given (k₁.saveAndSwitch given).2.1 := by
  have saved := Leaves.save k₁ given
  rw [same.current] at saved
  refine switch_onward k (k₁.saveCurrent given) given given (same.trans (SameTask.save k₁ given)) (leaves.trans saved) ?_
  rw [Kernel.save_table, same.current]
  by_cases gone : (k₁.table k.currentTid).state = .exited
  · rw [if_neg (fun all => all.2.2.2 gone)]
    exact .inl gone
  · have inside := confined k.currentTid fun was => gone (leaves.ended _ was).1
    rw [if_pos ⟨rfl, Nat.ne_of_gt inside.1, inside.2, gone⟩]
    exact .inr rfl

end

section
variable (spaces : AddressSpaces) (k : Kernel) (mem : UserMem) (frame : TrapFrame)

open Kernel (Leaves SameTask Spares)

-- Where a handler goes on: at EL0, in the monitor once its task has ended, or
-- nowhere.
structure GoesOnward (left : TrapFrame) (outcome : Outcome) : Prop where
  behind : LeftBehind k left outcome.kernel
  resumes : ∀ k' mem' frame', outcome = .resumed k' mem' frame' → Onward k left k' frame'
  returns : ∀ k', outcome = .toMonitor k' → k'.currentTid = k.currentTid ∧ (k'.table k.currentTid).state = .exited
  parks : ∀ cause k', outcome = .parked cause k' → k'.currentTid = k.currentTid

theorem stays_onward (left : TrapFrame) (k' : Kernel) (same : SameTask k k') (spares : Spares k k') (mem' : UserMem)
    (frame' : TrapFrame) (pstate : frame'.spsr = left.spsr) : GoesOnward k left (.resumed k' mem' frame') where
  behind := fun moved => absurd same.current moved
  resumes := fun _ _ _ equal => by
    cases equal
    exact .stays same spares pstate
  returns := fun _ => Outcome.noConfusion
  parks := fun _ _ => Outcome.noConfusion

theorem switched_onward (left : TrapFrame) (k' : Kernel) (mem' : UserMem) (frame' : TrapFrame)
    (behind : LeftBehind k left k') (onward : Onward k left k' frame') : GoesOnward k left (.resumed k' mem' frame') where
  behind := behind
  resumes := fun _ _ _ equal => by
    cases equal
    exact onward
  returns := fun _ => Outcome.noConfusion
  parks := fun _ _ => Outcome.noConfusion

theorem parks_onward (left : TrapFrame) (cause : ParkCause) (k' : Kernel) (current : k'.currentTid = k.currentTid) :
    GoesOnward k left (.parked cause k') where
  behind := fun moved => absurd current moved
  resumes := fun _ _ _ => Outcome.noConfusion
  returns := fun _ => Outcome.noConfusion
  parks := fun _ _ equal => by
    cases equal
    exact current

theorem returns_onward (left : TrapFrame) (k' : Kernel) (current : k'.currentTid = k.currentTid)
    (gone : (k'.table k.currentTid).state = .exited) : GoesOnward k left (.toMonitor k') where
  behind := fun moved => absurd current moved
  resumes := fun _ _ _ => Outcome.noConfusion
  returns := fun _ equal => by
    cases equal
    exact ⟨current, gone⟩
  parks := fun _ _ => Outcome.noConfusion

variable (confined : ∀ tid, (k.table tid).state ≠ .exited → 0 < tid ∧ tid < maxTasks)

include confined

theorem yield_onward : GoesOnward k frame (svcYield k mem frame) := by
  obtain ⟨found, lost, behind⟩ := save_onward k k frame (SameTask.refl k) (Leaves.refl k) confined
  unfold svcYield
  dsimp only
  by_cases user : k.currentTid ≠ 0
  · rw [if_pos user]
    by_cases switched : (k.saveAndSwitch frame).1 = true
    · rw [if_pos switched]
      exact switched_onward k frame _ mem _ behind (found switched)
    · have failed := Bool.eq_false_iff.mpr switched
      have unloaded : (k.saveAndSwitch frame).2.2 = frame := Kernel.switch_fails_frame _ _ failed
      rw [if_neg switched, unloaded]
      exact stays_onward k frame _ (lost failed) ((Spares.save k frame).trans (Spares.switch _ frame)) _ _ rfl
  · rw [if_neg user, if_neg (fun no => (by cases no))]
    exact stays_onward k frame k (SameTask.refl k) (Spares.refl k) mem _ rfl

theorem tick_onward : GoesOnward k frame (serviceTick k mem frame) := by
  have counted : Leaves k.currentTid k (onTick k) := Leaves.of_table rfl
  have woken := counted.trans (Leaves.wakes_sleeper (onTick k))
  have ticked : SameTask k (onTick k) := ⟨rfl, rfl, rfl⟩
  have same : SameTask k (onTick k).wakeSleepers := ticked.trans (SameTask.sweep (onTick k) _)
  have spares : Spares k (onTick k).wakeSleepers := Spares.wakes_sleeper (onTick k)
  unfold serviceTick
  generalize (onTick k).wakeSleepers = awake at woken same spares
  dsimp only
  by_cases preempts : awake.preempt = true ∧ awake.currentTid ≠ 0
  · obtain ⟨found, lost, behind⟩ := save_onward k awake frame same woken confined
    rw [if_pos preempts]
    by_cases switched : (awake.saveAndSwitch frame).1 = true
    · rw [if_pos switched]
      refine switched_onward k frame _ mem _ behind ?_
      cases found switched with
      | stays same spares pstate => exact .stays ⟨same.current, same.root, same.dispatches⟩ spares pstate
      | switches next low live current runs root loaded => exact .switches next low live current runs root loaded
    · have failed := Bool.eq_false_iff.mpr switched
      have unloaded : (awake.saveAndSwitch frame).2.2 = frame := Kernel.switch_fails_frame _ _ failed
      rw [if_neg switched, unloaded]
      exact stays_onward k frame _ (lost failed) (spares.trans ((Spares.save awake frame).trans (Spares.switch _ frame)))
        _ _ rfl
  · rw [if_neg preempts]
    exact stays_onward k frame awake same spares mem frame rfl

theorem block_onward (call : Call) : GoesOnward k (call.saved frame) (blockFor k mem frame call) := by
  have marks : Leaves k.currentTid k (blockedKernel k call) := by
    refine Leaves.edit k _ (fun t => ?_)
    cases call with
    | _ => exact ⟨rfl, rfl⟩
  have same : SameTask k (blockedKernel k call) := SameTask.edit k _ _
  have spares : Spares k (blockedKernel k call) := by
    refine Spares.edit k _ _ (fun t live => ?_)
    cases call with
    | _ => exact live
  have unmarks : ∀ k₂ : Kernel, Spares k₂ (k₂.editTask k.currentTid call.unmark) := by
    refine fun k₂ => Spares.edit k₂ _ _ (fun t live => ?_)
    cases call with
    | _ => exact live
  have pstate : (call.refused frame).spsr = (call.saved frame).spsr := by
    cases call with
    | _ => rfl
  unfold blockFor
  generalize blockedKernel k call = marked at marks same spares
  dsimp only
  unfold Kernel.blockAndSwitch
  by_cases kernel : marked.currentTid = 0
  · rw [if_pos kernel, if_neg (fun no => (by cases no))]
    exact stays_onward k _ _ (same.trans (SameTask.edit _ _ _)) (spares.trans (unmarks marked)) _ _ pstate
  · have sleeps : Spares marked (marked.blockCurrent (call.saved frame)) :=
      Spares.edit marked _ _ fun _ _ no => (by cases no)
    have blocks : Leaves k.currentTid k (marked.blockCurrent (call.saved frame)) := by
      have edited : Leaves marked.currentTid marked (marked.blockCurrent (call.saved frame)) :=
        Leaves.edit marked _ (fun _ => ⟨rfl, rfl⟩)
      rw [same.current] at edited
      exact marks.trans edited
    have own : ((marked.blockCurrent (call.saved frame)).table k.currentTid).state = .exited ∨
        ((marked.blockCurrent (call.saved frame)).table k.currentTid).saved = call.saved frame := by
      rw [Kernel.blockCurrent, Kernel.edit_task_table, same.current]
      by_cases gone : (marked.table k.currentTid).state = .exited
      · rw [if_neg (fun all => all.2.2 gone)]
        exact .inl gone
      · have inside := confined k.currentTid fun was => gone (marks.ended _ was).1
        rw [if_pos ⟨rfl, inside.2, gone⟩]
        exact .inr rfl
    obtain ⟨found, lost, behind⟩ := switch_onward k (marked.blockCurrent (call.saved frame)) (call.saved frame)
      (call.saved frame) (same.trans (SameTask.edit _ _ _)) blocks own
    rw [if_neg kernel]
    by_cases switched : ((marked.blockCurrent (call.saved frame)).switchToNext (call.saved frame)).1 = true
    · rw [if_pos switched]
      exact switched_onward k _ _ mem _ behind (found switched)
    · have kept := spares.trans (sleeps.trans (Spares.switch _ (call.saved frame)))
      rw [if_neg switched]
      exact stays_onward k _ _ ((lost (Bool.eq_false_iff.mpr switched)).trans (SameTask.edit _ _ _))
        (kept.trans (unmarks _)) _ _ pstate

theorem exit_onward (left : TrapFrame) : GoesOnward k left (svcExit spaces k mem frame) := by
  by_cases nobody : k.currentTid = 0
  · rw [exit_kernel spaces k mem frame nobody]
    refine returns_onward k left _ (exit_return_current spaces k) ?_
    rw [exit_return_table]
    by_contra live
    exact absurd nobody (Nat.ne_of_gt (confined _ live).1)
  · have marked : Leaves k.currentTid k (k.editTask k.currentTid (Kernel.exitWith (frame.x 0).toInt64)) :=
      Leaves.edit k _ (fun _ => ⟨rfl, rfl⟩)
    have ended : Leaves k.currentTid k (k.afterExit (frame.x 0).toInt64) := marked.trans (Leaves.wakes_waiter _ _)
    have gone : ((k.afterExit (frame.x 0).toInt64).table k.currentTid).state = .exited := by
      by_contra live
      have inside := confined k.currentTid fun was => live (ended.ended _ was).1
      have absent := Kernel.after_exit_current_gone k (frame.x 0).toInt64
      rw [Kernel.task_live _ _ inside.2 live] at absent
      cases absent
    obtain ⟨found, lost, behind⟩ := switch_onward k (k.afterExit (frame.x 0).toInt64) left frame
      ((SameTask.edit k _ _).trans (SameTask.sweep _ _)) ended (.inl gone)
    rw [exit_eq spaces k mem frame nobody]
    dsimp only
    by_cases switched : ((k.afterExit (frame.x 0).toInt64).switchToNext frame).1 = true
    · rw [if_pos switched]
      exact switched_onward k left _ mem _ behind (found switched)
    · rw [if_neg switched]
      refine returns_onward k left _ ((exit_return_current spaces _).trans (lost (Bool.eq_false_iff.mpr switched)).current) ?_
      rw [exit_return_table]
      exact (Leaves.switch_ended _ frame _ gone).1

theorem kill_onward (left : TrapFrame) : GoesOnward k left (killTaskFromEl0 spaces k mem frame) := by
  by_cases user : 0 < k.currentTid ∧ k.currentTid < maxTasks
  · have ended : Leaves k.currentTid k k.afterKill := Leaves.edit k _ (fun _ => ⟨rfl, rfl⟩)
    have gone : (k.afterKill.table k.currentTid).state = .exited := by
      rw [Kernel.afterKill, Kernel.edit_task_table]
      by_cases was : (k.table k.currentTid).state = .exited
      · rw [if_neg (fun all => all.2.2 was)]
        exact was
      · rw [if_pos ⟨rfl, user.2, was⟩]
        rfl
    obtain ⟨found, lost, behind⟩ := switch_onward k k.afterKill left frame (SameTask.edit k _ _) ended
      (.inl gone)
    rw [kill_eq spaces k mem frame user]
    dsimp only
    by_cases switched : (k.afterKill.switchToNext frame).1 = true
    · rw [if_pos switched]
      exact switched_onward k left _ mem _ behind (found switched)
    · rw [if_neg switched]
      refine returns_onward k left _ ((kill_return_current spaces _).trans (lost (Bool.eq_false_iff.mpr switched)).current) ?_
      rw [kill_return_table]
      exact (Leaves.switch_ended _ frame _ gone).1
  · rw [kill_kernel spaces k mem frame user]
    refine returns_onward k left _ (kill_return_current spaces k) ?_
    rw [kill_return_table]
    by_contra live
    exact user (confined _ live)

theorem handled_onward (t : Trap) (call : isSvc t = true) {outcome : Outcome}
    (handled : Handled spaces k mem frame outcome) : GoesOnward k (leaving spaces k mem frame t) outcome := by
  have pstate : (leaving spaces k mem frame t).spsr = frame.spsr := leaving_pstate spaces k mem frame t
  cases handled with
  | answered _ _ _ => exact stays_onward k _ k (SameTask.refl k) (Spares.refl k) _ _ pstate.symm
  | readFault _ _ _ => exact parks_onward k _ _ k rfl
  | writeFault _ _ _ _ after took _ =>
      obtain ⟨_, _, _, _, rfl⟩ := (Kernel.ipc_recv_ok _ _ _ _ _).mp took
      exact parks_onward k _ _ _ (Kernel.drain_current k _)
  | sent _ _ msg _ _ accepted _ =>
      obtain ⟨_, _, _, rfl⟩ := (Kernel.ipc_send_ok _ _ _ _).mp accepted
      exact stays_onward k _ _ (SameTask.deposit k _ _) (Spares.deposit k _ _) _ _ pstate.symm
  | received _ _ _ _ _ took _ _ =>
      obtain ⟨_, _, _, _, rfl⟩ := (Kernel.ipc_recv_ok _ _ _ _ _).mp took
      exact stays_onward k _ _ (SameTask.drain k _) (Spares.drain k _) _ _ pstate.symm
  | yielded yield_ =>
      have free := yield_does_not_block spaces k mem frame yield_
      have left : leaving spaces k mem frame t = frame := by simp only [leaving, call, free, if_true]
      rw [left]
      exact yield_onward k mem frame confined
  | blocking call' blocks =>
      have left : leaving spaces k mem frame t = call'.saved frame := by simp only [leaving, call, blocks, if_true]
      rw [left]
      exact block_onward k mem frame confined call'
  | exited _ => exact exit_onward spaces k mem frame confined _

theorem trapped_onward (t : Trap) {outcome : Outcome} (trapped : Trapped spaces k mem frame t outcome) :
    GoesOnward k (leaving spaces k mem frame t) outcome := by
  cases trapped with
  | svc call _ handled => exact handled_onward spaces k mem frame confined t call handled
  | fault _ _ => exact kill_onward spaces k mem frame confined _
  | tick async _ =>
      have left : leaving spaces k mem frame t = frame := by simp [leaving, async]
      rw [left]
      exact tick_onward k mem frame confined
  | ignored _ _ =>
      exact stays_onward k _ k (SameTask.refl k) (Spares.refl k) _ _ (leaving_pstate spaces k mem frame t).symm
  | sError _ => exact parks_onward k _ _ k rfl

end

-- The context an exception leaves, whatever it was taken from.
def Machine.leftBy (spaces : AddressSpaces) (m : Machine) (source : Source) (t : Trap) : TrapFrame :=
  if source = .lowerAArch64 then leaving spaces m.kernel (m.memAt t) (t.frame m.cpu.spEl1) t else t.frame m.cpu.spEl1

theorem Machine.handled_onward (spaces : AddressSpaces) (m : Machine) (confined : m.Confined) (t : Trap) :
    GoesOnward m.kernel (leaving spaces m.kernel (m.memAt t) (t.frame m.cpu.spEl1) t)
      (m.handled spaces .lowerAArch64 t) :=
  trapped_onward spaces m.kernel (m.memAt t) (t.frame m.cpu.spEl1) confined t (m.handled_trapped spaces t)

theorem Machine.exception_onward (spaces : AddressSpaces) (m : Machine) (confined : m.Confined) (event : Event)
    (source : Source) (t : Trap) (taken : event.exception = some (source, t)) :
    GoesOnward m.kernel (m.leftBy spaces source t) (m.handled spaces source t) := by
  cases event with
  | el1 fault =>
      cases taken
      have left : m.leftBy spaces .currentSpElx t = t.frame m.cpu.spEl1 := if_neg (by decide)
      unfold Machine.handled
      rw [left]
      rcases from_el1 spaces m.kernel (m.memFor .currentSpElx t) (t.frame m.cpu.spEl1) t.kind t.device with
        ⟨frame', pstate, same⟩ | same | same
      · rw [same]
        exact stays_onward m.kernel _ m.kernel (Kernel.SameTask.refl _) (Kernel.Spares.refl _) _ _ pstate
      · rw [same]
        exact tick_onward m.kernel _ _ confined
      · rw [same]
        exact parks_onward m.kernel _ _ m.kernel rfl
  | trap fault =>
      cases taken
      exact m.handled_onward spaces confined t
  | _ => cases taken

theorem Machine.left_pstate (spaces : AddressSpaces) (m : Machine) (source : Source) (t : Trap) :
    (m.leftBy spaces source t).spsr = t.pstate := by
  unfold Machine.leftBy
  split_ifs
  · exact leaving_pstate spaces m.kernel _ _ t
  · rfl

end Opal
