import Opal.Grounded

set_option autoImplicit false

namespace Opal

-- What the registers of a task hold that is to block in a call.
def Call.Asks (frame : TrapFrame) : Call → Prop
  | .recvblk =>
      frame.x 8 = sysRecvblk ∧ frame.x 1 ≠ 0 ∧
        isValidUserRange (frame.x 0).toNat (min (frame.x 1).toNat msgMax) = true
  | .sendblk dst =>
      frame.x 8 = sysSendblk ∧ (frame.x 0).toNat = dst ∧ (0 < dst ∧ dst < maxTasks) ∧ frame.x 2 ≠ 0 ∧
        isValidUserRange (frame.x 1).toNat (min (frame.x 2).toNat msgMax) = true
  | .sleep ticks => frame.x 8 = sysSleep ∧ frame.x 0 = ticks ∧ ticks ≠ 0
  | .wait child => frame.x 8 = sysWait ∧ (frame.x 0).toNat = child ∧ 0 < child ∧ child < maxTasks

-- A live task with an unread message.
def Kernel.Full (k : Kernel) (tid : Nat) : Prop := (k.table tid).state ≠ .exited ∧ (k.table tid).mailboxLen ≠ 0

-- What a task that blocks waits for: a message of its own, a live task to read
-- one, or a live task to end.
def Kernel.Awaits (k : Kernel) : Call → Prop
  | .recvblk => (0 < k.currentTid ∧ k.currentTid < maxTasks) → (k.table k.currentTid).mailboxLen = 0
  | .sendblk dst => k.Full dst
  | .sleep _ => True
  | .wait child => (k.table child).state ≠ .exited

theorem blocking_asks (spaces : AddressSpaces) (k : Kernel) (mem : UserMem) (frame : TrapFrame) (call : Call)
    (blocks : blockingCall spaces k mem frame = some call) : call.Asks frame ∧ k.Awaits call := by
  have nr := blocking_call_number spaces k mem frame call blocks
  cases call with
  | recvblk =>
      rw [recvblk_arm spaces k mem frame nr] at blocks
      split_ifs at blocks with asks
      split at blocks
      · next e refused => exact ⟨⟨nr, asks⟩, fun inside => Kernel.ipc_recv_empty k _ e inside refused⟩
      · cases blocks
  | sendblk dst =>
      rw [sendblk_arm spaces k mem frame nr] at blocks
      split_ifs at blocks with asks
      split at blocks
      · cases blocks
      · split at blocks
        · next e refused =>
            split_ifs at blocks with full
            cases blocks
            rw [full] at refused
            obtain ⟨inside, live, some_⟩ := Kernel.ipc_send_full k _ _ refused
            exact ⟨⟨nr, rfl, inside, asks.1, asks.2.1⟩, live, Nat.ne_of_gt some_⟩
        · cases blocks
  | sleep ticks =>
      rw [sleep_arm spaces k mem frame nr] at blocks
      split_ifs at blocks with asks
      cases blocks
      exact ⟨⟨nr, rfl, asks.1⟩, trivial⟩
  | wait child =>
      rw [wait_arm spaces k mem frame nr] at blocks
      split at blocks
      · next e refused =>
          split_ifs at blocks with alive
          cases blocks
          rw [alive] at refused
          obtain ⟨inside, live⟩ := (Kernel.try_wait_alive k _).mp refused
          exact ⟨⟨nr, rfl, inside⟩, live⟩
      · cases blocks

-- A call that has blocked its task and is not answered yet: the frame it was
-- made with, and the tick counter then.
structure Pending where
  call : Call
  frame : TrapFrame
  since : UInt64

-- A Blocked task carries the mark of what it waits for.
def Call.Marked (since : UInt64) : Call → Task → Prop
  | .recvblk, _ => True
  | .sendblk dst, t => t.blockedSendDst = dst
  | .sleep ticks, t => t.wakeTick = deadline since ticks
  | .wait child, t => t.waitingOn = child

theorem Call.marked_congr (call : Call) (since : UInt64) (a b : Task) (same : a.marks = b.marks)
    (marked : call.Marked since b) : call.Marked since a := by
  simp only [Task.marks, Prod.mk.injEq] at same
  obtain ⟨dst, tick, child⟩ := same
  cases call with
  | recvblk => trivial
  | sendblk _ => exact dst.trans marked
  | sleep _ => exact tick.trans marked
  | wait _ => exact child.trans marked

-- The handler's mark, and block_and_switch found another task.
def fallsAsleep (spaces : AddressSpaces) (k : Kernel) (mem : UserMem) (frame : TrapFrame) : Option Pending :=
  match blockingCall spaces k mem frame with
  | none => none
  | some call =>
      if ((blockedKernel k call).blockAndSwitch (call.saved frame)).1 = true then some ⟨call, frame, k.ticks⟩ else none

section
variable (k : Kernel) (mem : UserMem) (frame : TrapFrame) (call : Call)

theorem falls_asleep (spaces : AddressSpaces) (p : Pending) (sleeps : fallsAsleep spaces k mem frame = some p) :
    blockingCall spaces k mem frame = some p.call ∧
      ((blockedKernel k p.call).blockAndSwitch (p.call.saved frame)).1 = true ∧ p.frame = frame ∧ p.since = k.ticks := by
  unfold fallsAsleep at sleeps
  split at sleeps
  · cases sleeps
  · next call blocks =>
      split_ifs at sleeps with finds
      cases sleeps
      exact ⟨blocks, finds, rfl, rfl⟩

theorem exit_stays_awake (spaces : AddressSpaces) (nr : frame.x 8 = sysExit ∨ frame.x 8 = sysExitCode) :
    fallsAsleep spaces k mem frame = none := by
  cases sleeps : fallsAsleep spaces k mem frame with
  | none => rfl
  | some p =>
      have number := blocking_call_number spaces k mem frame _ (falls_asleep k mem frame spaces p sleeps).1
      rcases nr with nr | nr
      · exact absurd (number.symm.trans nr) p.call.number_not_exit.1
      · exact absurd (number.symm.trans nr) p.call.number_not_exit.2

theorem block_finds_user (finds : ((blockedKernel k call).blockAndSwitch (call.saved frame)).1 = true) :
    k.currentTid ≠ 0 := by
  intro kernel
  have current : (blockedKernel k call).currentTid = 0 := (Kernel.edit_task_current k _ _).trans kernel
  rw [Kernel.blockAndSwitch, if_pos current] at finds
  cases finds

theorem block_finds_iff (user : k.currentTid ≠ 0) :
    ((blockedKernel k call).blockAndSwitch (call.saved frame)).1 = true ↔
      ∃ next, k.ready.head? = some next ∧ (k.task next).isSome = true := by
  have current : (blockedKernel k call).currentTid ≠ 0 := by
    rw [blockedKernel, Kernel.edit_task_current]
    exact user
  have spares : Kernel.Spares k ((blockedKernel k call).blockCurrent (call.saved frame)) := by
    refine Kernel.Spares.trans (Kernel.Spares.edit k _ _ fun t live => ?_) (Kernel.Spares.edit _ _ _ fun _ _ no => (by cases no))
    cases call with
    | _ => exact live
  have left : Kernel.Leaves k.currentTid k ((blockedKernel k call).blockCurrent (call.saved frame)) := by
    have marked : Kernel.Leaves k.currentTid k (blockedKernel k call) := by
      refine Kernel.Leaves.edit k _ fun t => ?_
      cases call with
      | _ => exact ⟨rfl, rfl⟩
    have blocked : Kernel.Leaves (blockedKernel k call).currentTid (blockedKernel k call)
        ((blockedKernel k call).blockCurrent (call.saved frame)) := Kernel.Leaves.edit _ _ fun _ => ⟨rfl, rfl⟩
    rw [blockedKernel, Kernel.edit_task_current] at blocked
    exact marked.trans blocked
  have ready : ((blockedKernel k call).blockCurrent (call.saved frame)).ready = k.ready := by
    rw [Kernel.blockCurrent, Kernel.edit_task_ready, blockedKernel, Kernel.edit_task_ready]
  have live : ∀ tid, (((blockedKernel k call).blockCurrent (call.saved frame)).task tid).isSome = true ↔
      (k.task tid).isSome = true := by
    intro tid
    rw [Kernel.task_isSome, Kernel.task_isSome]
    exact ⟨fun both => ⟨both.1, fun gone => both.2 (left.ended tid gone).1⟩, fun both => ⟨both.1, spares tid both.2⟩⟩
  rw [Kernel.blockAndSwitch, if_neg current, Kernel.switch_succeeds, ready]
  constructor
  · rintro ⟨next, rest, waiting, some_⟩
    exact ⟨next, by rw [waiting]; rfl, (live next).mp some_⟩
  · rintro ⟨next, head, some_⟩
    obtain ⟨rest, waiting⟩ := List.head?_eq_some_iff.mp head
    exact ⟨next, rest, waiting, (live next).mpr some_⟩

-- A block that finds another task runs it, and leaves its own task Blocked with
-- its mark, or runs that very task again.
theorem block_finds (live : (k.table k.currentTid).state ≠ .exited) (low : k.currentTid < maxTasks)
    (finds : ((blockedKernel k call).blockAndSwitch (call.saved frame)).1 = true) :
    let k' := ((blockedKernel k call).blockAndSwitch (call.saved frame)).2.1
    (k'.table k'.currentTid).state = .running ∧ (k'.table k.currentTid).state ≠ .exited ∧
      ((k'.table k.currentTid).state = .blocked → call.Marked k.ticks (k'.table k.currentTid)) := by
  intro k'
  have marked : (blockedKernel k call).table k.currentTid = call.mark k.ticks (k.table k.currentTid) := by
    rw [blockedKernel, Kernel.edit_task_table, if_pos ⟨rfl, low, live⟩]
  have current : (blockedKernel k call).currentTid = k.currentTid := Kernel.edit_task_current k _ _
  have alive : ((blockedKernel k call).table k.currentTid).state ≠ .exited := by
    rw [marked]
    cases call with
    | _ => exact live
  have own : ((blockedKernel k call).blockCurrent (call.saved frame)).table k.currentTid =
      { call.mark k.ticks (k.table k.currentTid) with saved := call.saved frame, state := .blocked } := by
    rw [Kernel.blockCurrent, Kernel.edit_task_table, current, if_pos ⟨rfl, low, alive⟩, marked]
  have mark : call.Marked k.ticks { call.mark k.ticks (k.table k.currentTid) with saved := call.saved frame, state := .blocked } := by
    cases call with
    | recvblk => trivial
    | _ => exact rfl
  have switches : (blockedKernel k call).blockAndSwitch (call.saved frame) =
      ((blockedKernel k call).blockCurrent (call.saved frame)).switchToNext (call.saved frame) := by
    rw [Kernel.blockAndSwitch]
    refine if_neg fun kernel => ?_
    rw [Kernel.blockAndSwitch, if_pos kernel] at finds
    cases finds
  have result : k' = (((blockedKernel k call).blockCurrent (call.saved frame)).switchToNext (call.saved frame)).2.1 := by
    rw [← switches]
  rw [switches] at finds
  clear_value k'
  rcases Kernel.switch_cases ((blockedKernel k call).blockCurrent (call.saved frame)) (call.saved frame) with
    ⟨_, same⟩ | ⟨_, _, _, _, same⟩ | ⟨next, rest, t, waiting, found, same⟩
  · rw [same] at finds
    cases finds
  · rw [same] at finds
    cases finds
  · rw [same] at result
    subst result
    by_cases here : k.currentTid = next
    · simp [Kernel.dispatch, Kernel.popped, Kernel.setTask, here]
    · refine ⟨by simp [Kernel.dispatch, Kernel.popped, Kernel.setTask], ?_, fun _ => ?_⟩
      · simp [Kernel.dispatch, Kernel.popped, Kernel.setTask, here, own]
      · simpa [Kernel.dispatch, Kernel.popped, Kernel.setTask, here, own] using mark

end

-- A task that is not Blocked does not become so.
def KeepsAwake (k k' : Kernel) : Prop := ∀ tid, (k.table tid).state ≠ .blocked → (k'.table tid).state ≠ .blocked

theorem tick_keeps_awake (k : Kernel) (mem : UserMem) (frame : TrapFrame) :
    KeepsAwake k (serviceTick k mem frame).kernel := by
  intro tid awake
  have woken : ((onTick k).wakeSleepers.table tid).state ≠ .blocked := by
    rw [Kernel.wakeSleepers, Kernel.sweep_table]
    unfold Kernel.wakesSleeper
    split_ifs
    · exact awake
    · exact awake
    · exact awake
    · exact fun no => (by cases no)
    · exact awake
  have saved : (((onTick k).wakeSleepers.saveCurrent frame).table tid).state ≠ .blocked := by
    rw [Kernel.save_table]
    split_ifs
    · exact fun no => (by cases no)
    · exact woken
    · exact woken
  have switched : (((onTick k).wakeSleepers.saveAndSwitch frame).2.1.table tid).state ≠ .blocked := by
    unfold Kernel.saveAndSwitch
    rcases Kernel.switch_cases ((onTick k).wakeSleepers.saveCurrent frame) frame with
      ⟨_, same⟩ | ⟨_, _, _, _, same⟩ | ⟨next, _, _, _, _, same⟩
    · rw [same]
      exact saved
    · rw [same]
      exact saved
    · rw [same]
      by_cases here : tid = next
      · simp [Kernel.dispatch, Kernel.popped, Kernel.setTask, here]
      · simpa [Kernel.dispatch, Kernel.popped, Kernel.setTask, here] using saved
  unfold serviceTick
  dsimp only
  split_ifs
  · exact switched
  · exact switched
  · exact woken

namespace Machine

-- The history of which task has which call outstanding. A served svc or fault
-- ends what its task was waiting for, and may block it anew.
def pends (spaces : AddressSpaces) (m : Machine) (event : Event) (_ : Machine) (pend : Nat → Option Pending) :
    Nat → Option Pending :=
  match event with
  | .trap t =>
      if m.serves t = true ∧ t.kind = .synchronous then
        Function.update pend m.kernel.currentTid
          (if isSvc t = true then fallsAsleep spaces m.kernel (m.memAt t) (t.frame m.cpu.spEl1) else none)
      else pend
  | _ => pend

end Machine

-- Whoever sleeps in an outstanding call meets a condition.
def Asleep (good : Kernel → Nat → Pending → Prop) (k : Kernel) (pend : Nat → Option Pending) : Prop :=
  ∀ tid p, pend tid = some p → (k.table tid).state = .blocked → good k tid p

-- Outstanding calls belong to live tasks, a Blocked one carries its mark, and
-- the current task is not Blocked in one.
structure Sleepers (k : Kernel) (pend : Nat → Option Pending) : Prop where
  live : ∀ tid p, pend tid = some p → (k.table tid).state ≠ .exited
  marked : ∀ tid p, pend tid = some p → (k.table tid).state = .blocked → p.call.Marked p.since (k.table tid)
  awake : ∀ p, pend k.currentTid = some p → (k.table k.currentTid).state ≠ .blocked

namespace Sleepers

variable {k k' : Kernel} {pend : Nat → Option Pending}

theorem same (sleepers : Sleepers k pend) (table : k'.table = k.table) (current : k'.currentTid = k.currentTid) :
    Sleepers k' pend := by
  refine ⟨?_, ?_, ?_⟩
  · rw [table]
    exact sleepers.live
  · rw [table]
    exact sleepers.marked
  · rw [table, current]
    exact sleepers.awake

theorem others (sleepers : Sleepers k pend) (left : Kernel.Leaves k.currentTid k k') (tid : Nat)
    (other : tid ≠ k.currentTid) (p : Pending) (waits : pend tid = some p) :
    (k'.table tid).state ≠ .exited ∧ ((k'.table tid).state = .blocked → p.call.Marked p.since (k'.table tid)) := by
  refine ⟨left.alive tid other (sleepers.live tid p waits), fun sleeps => ?_⟩
  obtain ⟨slept, marks⟩ := left.asleep tid other sleeps
  exact p.call.marked_congr p.since _ _ marks (sleepers.marked tid p waits slept)

theorem quiet (sleepers : Sleepers k pend) (left : Kernel.Leaves k.currentTid k k') (spares : Kernel.Spares k k')
    (awake : KeepsAwake k k') (runs : k'.currentTid = k.currentTid ∨ (k'.table k'.currentTid).state = .running) :
    Sleepers k' pend := by
  refine ⟨fun tid p waits => spares tid (sleepers.live tid p waits), fun tid p waits sleeps => ?_, fun p waits => ?_⟩
  · by_cases here : tid = k.currentTid
    · subst here
      exact absurd sleeps (awake _ (sleepers.awake p waits))
    · exact (sleepers.others left tid here p waits).2 sleeps
  · rcases runs with same | runs
    · rw [same] at waits ⊢
      exact awake _ (sleepers.awake p waits)
    · rw [runs]
      exact fun no => (by cases no)

theorem answer (sleepers : Sleepers k pend) (left : Kernel.Leaves k.currentTid k k') (own : Option Pending)
    (fresh : ∀ p, own = some p → (k'.table k.currentTid).state ≠ .exited ∧
      ((k'.table k.currentTid).state = .blocked → p.call.Marked p.since (k'.table k.currentTid)) ∧
      (k'.table k'.currentTid).state = .running)
    (runs : k'.currentTid = k.currentTid ∨ (k'.table k'.currentTid).state = .running) :
    Sleepers k' (Function.update pend k.currentTid own) := by
  refine ⟨fun tid p waits => ?_, fun tid p waits sleeps => ?_, fun p waits => ?_⟩
  · by_cases here : tid = k.currentTid
    · rw [here, Function.update_self] at waits
      rw [here]
      exact (fresh p waits).1
    · rw [Function.update_of_ne here] at waits
      exact (sleepers.others left tid here p waits).1
  · by_cases here : tid = k.currentTid
    · rw [here, Function.update_self] at waits
      rw [here] at sleeps ⊢
      exact (fresh p waits).2.1 sleeps
    · rw [Function.update_of_ne here] at waits
      exact (sleepers.others left tid here p waits).2 sleeps
  · have running : (k'.table k'.currentTid).state = .running := by
      rcases runs with same | runs
      · rw [same, Function.update_self] at waits
        exact (fresh p waits).2.2
      · exact runs
    rw [running]
    exact fun no => (by cases no)

end Sleepers

theorem onward_runs (k : Kernel) (left : TrapFrame) (outcome : Outcome) (onward : GoesOnward k left outcome) :
    outcome.kernel.currentTid = k.currentTid ∨ (outcome.kernel.table outcome.kernel.currentTid).state = .running := by
  cases outcome with
  | resumed k' mem' frame' =>
      cases onward.resumes k' mem' frame' rfl with
      | stays same _ _ => exact .inl same.current
      | switches next _ _ goes runs _ _ =>
          refine .inr ?_
          change (k'.table k'.currentTid).state = .running
          rw [goes, runs]
  | toMonitor k' => exact .inl (onward.returns k' rfl).1
  | parked cause k' => exact .inl (onward.parks cause k' rfl)

namespace Machine

section
variable (spaces : AddressSpaces) (address : Static → UInt64) (m : Machine) (pend : Nat → Option Pending)

theorem pends_sync (t : Trap) (after : Machine) (serves : m.serves t = true) (sync : t.kind = .synchronous) :
    pends spaces m (.trap t) after pend = Function.update pend m.kernel.currentTid
      (if isSvc t = true then fallsAsleep spaces m.kernel (m.memAt t) (t.frame m.cpu.spEl1) else none) := by
  rw [pends, if_pos ⟨serves, sync⟩]

theorem pends_other (event : Event) (after : Machine)
    (other : ∀ t, event = .trap t → ¬ (m.serves t = true ∧ t.kind = .synchronous)) :
    pends spaces m event after pend = pend := by
  cases event with
  | trap t => rw [pends, if_neg (other t rfl)]
  | _ => rfl

theorem sleepers_sync (grounded : m.Grounded) (sleepers : Sleepers m.kernel pend) (t : Trap) (down : m.oops = false) :
    Sleepers (m.handled spaces .lowerAArch64 t).kernel (Function.update pend m.kernel.currentTid
      (if isSvc t = true then fallsAsleep spaces m.kernel (m.memAt t) (t.frame m.cpu.spEl1) else none)) := by
  have left := handled_leaves spaces m (.trap t) _ t rfl
  have onward := m.handled_onward spaces grounded.confined t
  refine sleepers.answer left _ (fun p waits => ?_) (onward_runs _ _ _ onward)
  split_ifs at waits with call
  obtain ⟨blocks, finds, _, since⟩ := falls_asleep m.kernel _ _ spaces p waits
  have user := block_finds_user m.kernel (t.frame m.cpu.spEl1) p.call finds
  have live := grounded.current down user
  obtain ⟨runs, alive, marked⟩ := block_finds m.kernel (t.frame m.cpu.spEl1) p.call live (grounded.confined _ live).2 finds
  have outcome : (m.handled spaces .lowerAArch64 t).kernel =
      ((blockedKernel m.kernel p.call).blockAndSwitch (p.call.saved (t.frame m.cpu.spEl1))).2.1 := by
    rw [m.handled_svc spaces t call, handled_blocks _ _ _ _ _ blocks, blockFor]
    simp only [finds, if_true, Outcome.kernel]
  rw [outcome, since]
  exact ⟨alive, marked, runs⟩

-- An exception that is not a trap of the current task's own is a tick or
-- changes nothing.
theorem handled_async (event : Event) (source : Source) (t : Trap) (taken : event.exception = some (source, t))
    (async : source = .currentSpElx ∨ t.kind ≠ .synchronous) :
    (m.handled spaces source t).kernel = m.kernel ∨
      m.handled spaces source t = serviceTick m.kernel (m.memFor source t) (t.frame m.cpu.spEl1) := by
  cases event with
  | el1 fault =>
      cases taken
      unfold handled
      rcases from_el1 spaces m.kernel (m.memFor .currentSpElx t) (t.frame m.cpu.spEl1) t.kind t.device with
        ⟨_, _, same⟩ | same | same
      · exact .inl (by rw [same]; rfl)
      · exact .inr same
      · exact .inl (by rw [same]; rfl)
  | trap fault =>
      cases taken
      have kind := async.resolve_left (by decide)
      have trapped := m.handled_trapped spaces t
      generalize m.handled spaces .lowerAArch64 t = outcome at trapped
      cases trapped with
      | svc call _ _ =>
          simp only [isSvc, decide_eq_true_eq] at call
          exact absurd call.1 kind
      | fault sync _ => exact absurd sync kind
      | tick _ _ => exact .inr rfl
      | ignored _ _ => exact .inl rfl
      | sError _ => exact .inl rfl
  | _ => cases taken

theorem sleepers_async (grounded : m.Grounded) (sleepers : Sleepers m.kernel pend) (event : Event) (source : Source)
    (t : Trap) (taken : event.exception = some (source, t))
    (async : source = .currentSpElx ∨ t.kind ≠ .synchronous) : Sleepers (m.handled spaces source t).kernel pend := by
  have left := handled_leaves spaces m event source t taken
  have runs := onward_runs _ _ _ (m.exception_onward spaces grounded.confined event source t taken)
  rcases handled_async spaces m event source t taken async with same | same
  · rw [same]
    exact sleepers
  · rw [same] at left runs ⊢
    exact sleepers.quiet left (tick_spares m.kernel _ _) (tick_keeps_awake m.kernel _ _) runs

theorem handled_pends (event : Event) (source : Source) (t : Trap) (taken : event.exception = some (source, t))
    (enabled : m.enabled event = true) (down : m.oops = false) (after : Machine) :
    (event = .trap t ∧ source = .lowerAArch64 ∧ m.serves t = true ∧ t.kind = .synchronous) ∨
      ((source = .currentSpElx ∨ t.kind ≠ .synchronous) ∧ pends spaces m event after pend = pend) := by
  cases event with
  | el1 fault =>
      cases taken
      exact .inr ⟨.inl rfl, rfl⟩
  | trap fault =>
      cases taken
      by_cases sync : t.kind = .synchronous
      · exact .inl ⟨rfl, rfl, (m.serves_iff t).mpr ⟨enabled, down⟩, sync⟩
      · refine .inr ⟨.inr sync, pends_other spaces m pend _ after fun u same both => sync ?_⟩
        cases same
        exact both.2
  | _ => cases taken

theorem sleepers_handled (grounded : m.Grounded) (sleepers : Sleepers m.kernel pend) (event : Event) (source : Source)
    (t : Trap) (taken : event.exception = some (source, t)) (enabled : m.enabled event = true) (down : m.oops = false)
    (after : Machine) : Sleepers (m.handled spaces source t).kernel (pends spaces m event after pend) := by
  rcases handled_pends spaces m pend event source t taken enabled down after with
    ⟨rfl, rfl, serves, sync⟩ | ⟨async, still⟩
  · rw [pends_sync spaces m pend t after serves sync]
    exact sleepers_sync spaces m pend grounded sleepers t down
  · rw [still]
    exact sleepers_async spaces m pend grounded sleepers event source t taken async

theorem fire_asleep (event : Event) (quiet : event.exception = none) (tid : Nat)
    (sleeps : ((m.fire spaces address event).kernel.table tid).state = .blocked) :
    (m.fire spaces address event).kernel.table tid = m.kernel.table tid := by
  rcases fire_task spaces address m event quiet tid with same | ⟨_, args, same⟩ | ⟨_, same⟩
  · exact same
  · rw [same] at sleeps
    cases sleeps
  · rw [same] at sleeps
    cases sleeps

theorem fire_spares (event : Event) (quiet : event.exception = none) :
    Kernel.Spares m.kernel (m.fire spaces address event).kernel := by
  intro tid live
  rcases fire_task spaces address m event quiet tid with same | ⟨gone, _⟩ | ⟨_, same⟩
  · rwa [same]
  · exact absurd gone live
  · rw [same]
    exact fun no => (by cases no)

theorem sleepers_fire (sleepers : Sleepers m.kernel pend) (event : Event) (quiet : event.exception = none) :
    Sleepers (m.fire spaces address event).kernel pend := by
  have asleep := fire_asleep spaces address m event quiet
  refine ⟨fun tid p waits => fire_spares spaces address m event quiet tid (sleepers.live tid p waits),
    fun tid p waits sleeps => ?_, fun p waits sleeps => ?_⟩
  · have same := asleep tid sleeps
    rw [same] at sleeps ⊢
    exact sleepers.marked tid p waits sleeps
  · rcases fire_current spaces address m event quiet with current | runs
    · rw [current] at waits sleeps
      have same := asleep _ sleeps
      rw [same] at sleeps
      exact sleepers.awake p waits sleeps
    · rw [runs] at sleeps
      cases sleeps

theorem sleepers_step (grounded : m.Grounded) (sleepers : Sleepers m.kernel pend) (event : Event) :
    Sleepers (m.next spaces address event).kernel (pends spaces m event (m.next spaces address event) pend) := by
  have step := kernel_step spaces address m event
  generalize m.next spaces address event = after at step
  cases step with
  | still unserved kernel =>
      rw [pends_other spaces m pend event after fun t same both => m.not_serves t (same ▸ unserved.imp_right And.left) both.1, kernel]
      exact sleepers
  | calm _ quiet fired =>
      rw [pends_other spaces m pend event _ (fun t same => by rw [same] at quiet; cases quiet), fired]
      exact sleepers_fire spaces address m pend sleepers event quiet
  | handled enabled source t taken down _ kernel =>
      rw [kernel]
      exact (sleepers_handled spaces m pend grounded sleepers event source t taken enabled down after).same rfl rfl

-- The condition lasts if it survives the calm steps and the ticks, holds of
-- every fresh sleeper, and survives what the running task does while the
-- sleeper sleeps on.
theorem asleep_step (good : Kernel → Nat → Pending → Prop) (event : Event) (before : Asleep good m.kernel pend)
    (stackTaken : ∀ (k : Kernel) stack tid p, good k tid p → good { k with pendingKstackSp := stack } tid p)
    (fires : event.exception = none → ∀ tid p, good m.kernel tid p → good (m.fire spaces address event).kernel tid p)
    (ticks : ∀ mem frame tid p, good m.kernel tid p → good (serviceTick m.kernel mem frame).kernel tid p)
    (falls : ∀ t p, m.serves t = true → isSvc t = true →
      fallsAsleep spaces m.kernel (m.memAt t) (t.frame m.cpu.spEl1) = some p →
        good (m.handled spaces .lowerAArch64 t).kernel m.kernel.currentTid p)
    (sleepsOn : ∀ t, event = .trap t → m.serves t = true → t.kind = .synchronous → ∀ tid p, tid ≠ m.kernel.currentTid →
      pend tid = some p → (m.kernel.table tid).state = .blocked →
        ((m.handled spaces .lowerAArch64 t).kernel.table tid).state = .blocked → good m.kernel tid p →
          good (m.handled spaces .lowerAArch64 t).kernel tid p) :
    Asleep good (m.next spaces address event).kernel (pends spaces m event (m.next spaces address event) pend) := by
  have step := kernel_step spaces address m event
  generalize m.next spaces address event = after at step
  intro tid p waits sleeps
  cases step with
  | still unserved kernel =>
      rw [pends_other spaces m pend event after fun t same both => m.not_serves t (same ▸ unserved.imp_right And.left) both.1] at waits
      rw [kernel] at sleeps ⊢
      exact before tid p waits sleeps
  | calm _ quiet fired =>
      rw [pends_other spaces m pend event _ (fun t same => by rw [same] at quiet; cases quiet)] at waits
      rw [fired] at sleeps ⊢
      have same := fire_asleep spaces address m event quiet tid sleeps
      rw [same] at sleeps
      exact fires quiet tid p (before tid p waits sleeps)
  | handled enabled source t taken down stack kernel =>
      rw [kernel] at sleeps ⊢
      refine stackTaken _ stack tid p ?_
      change ((m.handled spaces source t).kernel.table tid).state = .blocked at sleeps
      rcases handled_pends spaces m pend event source t taken enabled down after with
        ⟨rfl, rfl, serves, sync⟩ | ⟨async, still⟩
      · rw [pends_sync spaces m pend t after serves sync] at waits
        by_cases own : tid = m.kernel.currentTid
        · rw [own, Function.update_self] at waits
          split_ifs at waits with call
          rw [own]
          exact falls t p serves call waits
        · rw [Function.update_of_ne own] at waits
          obtain ⟨slept, _⟩ := (handled_leaves spaces m (.trap t) _ t rfl).asleep tid own sleeps
          exact sleepsOn t rfl serves sync tid p own waits slept sleeps (before tid p waits slept)
      · rw [still] at waits
        rcases handled_async spaces m event source t taken async with same | same
        · rw [same] at sleeps ⊢
          exact before tid p waits sleeps
        · rw [same] at sleeps ⊢
          have slept : (m.kernel.table tid).state = .blocked := by
            by_contra awake
            exact tick_keeps_awake m.kernel _ _ tid awake sleeps
          exact ticks _ _ tid p (before tid p waits slept)

end

theorem boot_sleepers (spaces : AddressSpaces) (cpu : Cpu) : Sleepers (boot spaces cpu).kernel fun _ => none :=
  ⟨fun _ _ no => (by cases no), fun _ _ no => (by cases no), fun _ no => (by cases no)⟩

end Machine

end Opal
