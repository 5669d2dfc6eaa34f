import Opal.Coherence
import Opal.Ending

set_option autoImplicit false

namespace Opal

-- The events of a scheduled session and of what leads up to it: every
-- exception is taken from EL0, and EL0 is entered through the scheduler.
def Event.InSession : Event → Prop
  | .el1 _ => False
  | .dropUser _ => False
  | _ => True

instance : DecidablePred Event.InSession
  | .el1 _ | .dropUser _ => .isFalse id
  | .build .. | .spawn _ | .arm | .drop _ | .unmask | .enter _ | .trap _ => .isTrue trivial

-- Every block_and_switch of this step finds another Ready task.
def Machine.BlockFinds (spaces : AddressSpaces) (m : Machine) : Event → Prop
  | .trap t =>
      m.enabled (.trap t) = true → isSvc t = true →
        ∀ call ∈ blockingCall spaces m.kernel (m.memAt t) (t.frame m.cpu.spEl1),
          ((blockedKernel m.kernel call).blockAndSwitch (call.saved (t.frame m.cpu.spEl1))).1 = true
  | _ => True

instance (spaces : AddressSpaces) (m : Machine) : DecidablePred (m.BlockFinds spaces)
  | .trap t =>
      inferInstanceAs (Decidable (m.enabled (.trap t) = true → isSvc t = true →
        ∀ call ∈ blockingCall spaces m.kernel (m.memAt t) (t.frame m.cpu.spEl1),
          ((blockedKernel m.kernel call).blockAndSwitch (call.saved (t.frame m.cpu.spEl1))).1 = true))
  | .build .. | .spawn _ | .arm | .drop _ | .dropUser _ | .unmask | .el1 _ | .enter _ => .isTrue trivial

-- What a kernel at EL0 owes its scheduler.
structure Kernel.Consistent (k : Kernel) : Prop where
  current : 0 < k.currentTid ∧ k.currentTid < maxTasks
  runs : ∀ tid, (k.table tid).state = .running ↔ tid = k.currentTid
  distinct : k.ready.Nodup
  queued : ∀ tid, tid ∈ k.ready ↔ (k.table tid).state = .ready
  slots : ∀ tid, (k.table tid).state ≠ .exited → 0 < tid ∧ tid < maxTasks
  short : k.ready.length ≤ 7

-- An outcome that leaves states and queue in step, with the running task the
-- current one unless the session is over.
def Outcome.Coheres : Outcome → Prop
  | .resumed k _ _ => Coherent k (some k.currentTid)
  | .toMonitor k => Coherent k none
  | .parked _ k => Coherent k (some k.currentTid)

namespace Coherent

theorem consistent (k : Kernel) (coherent : Coherent k (some k.currentTid)) : k.Consistent where
  current := current_slot k.currentTid coherent
  runs := fun tid => by
    rw [coherent.runs tid, Option.some_inj]
    exact eq_comm
  distinct := coherent.lists.distinct
  queued := coherent.lists.mem_iff
  slots := coherent.confined
  short := coherent.length_le

theorem same {k k' : Kernel} {running : Option Nat} (coherent : Coherent k running) (table : k'.table = k.table)
    (ring : k'.scheduler = k.scheduler) (history : k'.history = k.history) : Coherent k' running := by
  have ready : k'.ready = k.ready := congrArg RingBuffer.toList ring
  exact ⟨by rw [ready, table]; exact coherent.lists, by rw [table]; exact coherent.runs,
    by rw [table]; exact coherent.confined, by rw [history]; exact coherent.fine,
    by rw [Kernel.turns, history, ready]; exact coherent.orderly⟩

section
variable {k : Kernel} {running : Option Nat}

theorem edit (coherent : Coherent k running) (tid : Nat) (change : Task → Task)
    (keeps : ∀ t, (change t).state = t.state) : Coherent (k.editTask tid change) running := by
  unfold Kernel.editTask
  split
  · exact coherent
  · next t found =>
      obtain ⟨_, _, rfl⟩ := (Kernel.task_eq_some k tid t).mp found
      exact coherent.retask tid _ (keeps _)

theorem wakes_sender_only (recvTid : Nat) : OnlyWakes (Kernel.wakesSender recvTid) := fun t => by
  unfold Kernel.wakesSender
  by_cases waits : t.state = .blocked ∧ t.blockedSendDst = recvTid
  · simp [waits]
  · simp [waits]

theorem wakes_waiter_only (exitingTid : Nat) : OnlyWakes (Kernel.wakesWaiter exitingTid) := fun t => by
  unfold Kernel.wakesWaiter
  by_cases waits : t.state = .blocked ∧ t.waitingOn = exitingTid
  · simp [waits]
  · simp [waits]

theorem wakes_sleeper_only (now : UInt64) : OnlyWakes (Kernel.wakesSleeper now) := fun t => by
  unfold Kernel.wakesSleeper
  by_cases awake : t.wakeTick = 0
  · simp [awake]
  · by_cases early : t.wakeTick > now
    · simp [awake, early]
    · by_cases blocked : t.state = .blocked
      · simp [awake, early, blocked]
      · simp [awake, early, blocked]

theorem deposit (coherent : Coherent k running) (dst : Nat) (data : List UInt8) :
    Coherent (k.deposit dst data) running := by
  unfold Kernel.deposit
  by_cases asleep : (k.table dst).state = .blocked
  · simp only [asleep, if_true]
    exact coherent.wake dst _ asleep rfl
  · simp only [asleep, if_false]
    exact coherent.retask dst _ rfl

theorem drain (coherent : Coherent k running) (cur : Nat) : Coherent (k.drain cur) running := by
  have emptied := coherent.retask cur { k.table cur with mailboxLen := 0, mailboxFrom := 0 } rfl
  exact emptied.sweep _ (wakes_sender_only cur)

end

section
variable {k : Kernel}

theorem save (coherent : Coherent k (some k.currentTid)) (frame : TrapFrame) :
    Coherent (k.saveCurrent frame) none := by
  have inside := current_slot k.currentTid coherent
  have runs := (coherent.runs k.currentTid).mpr rfl
  have admitted := coherent.admit_ k.currentTid { k.table k.currentTid with saved := frame, state := .ready } inside
    (by rw [runs]; decide) rfl
  rw [if_pos rfl] at admitted
  unfold Kernel.saveCurrent
  rw [if_neg (Nat.ne_of_gt inside.1), current_live k.currentTid coherent]
  dsimp only
  rw [if_pos runs]
  exact admitted

theorem block (coherent : Coherent k (some k.currentTid)) (frame : TrapFrame) :
    Coherent (k.blockCurrent frame) none := by
  have live := (Kernel.task_eq_some k _ _).mp (current_live k.currentTid coherent)
  rw [Kernel.blockCurrent, Kernel.edit_task_live k _ _ live.1 live.2.1]
  exact leave k.currentTid coherent _ (.inl rfl)

theorem exit_ (coherent : Coherent k (some k.currentTid)) (code : Int64) : Coherent (k.afterExit code) none := by
  have live := (Kernel.task_eq_some k _ _).mp (current_live k.currentTid coherent)
  rw [Kernel.afterExit, Kernel.edit_task_live k _ _ live.1 live.2.1]
  exact (leave k.currentTid coherent _ (.inr rfl)).sweep _ (wakes_waiter_only k.currentTid)

theorem kill (coherent : Coherent k (some k.currentTid)) : Coherent k.afterKill none := by
  have live := (Kernel.task_eq_some k _ _).mp (current_live k.currentTid coherent)
  rw [Kernel.afterKill, Kernel.edit_task_live k _ _ live.1 live.2.1]
  exact leave k.currentTid coherent _ (.inr rfl)

end

end Coherent

section
variable (spaces : AddressSpaces) {k : Kernel} (mem : UserMem) (frame : TrapFrame)

theorem switch_coheres {none_ : Kernel} (coherent : Coherent none_ none) (given : TrapFrame) :
    ((none_.switchToNext given).1 = true ∧
        Coherent (none_.switchToNext given).2.1 (some (none_.switchToNext given).2.1.currentTid)) ∨
      ((none_.switchToNext given).1 = false ∧ Coherent (none_.switchToNext given).2.1 none ∧ none_.ready = []) := by
  rcases coherent.switch given with ⟨nobody, same⟩ | ⟨next, rest, _, same, runs⟩
  · rw [same]
    exact .inr ⟨rfl, coherent, nobody⟩
  · rw [same]
    exact .inl ⟨rfl, runs⟩

-- The running task is in the queue again, so a yield or a preemption always
-- finds somebody.
theorem save_switch_coheres (coherent : Coherent k (some k.currentTid)) (given : TrapFrame) :
    (k.saveAndSwitch given).1 = true ∧
      Coherent (k.saveAndSwitch given).2.1 (some (k.saveAndSwitch given).2.1.currentTid) := by
  have runs := (coherent.runs k.currentTid).mpr rfl
  have inside := Coherent.current_slot k.currentTid coherent
  have saved := coherent.save given
  have waits : k.currentTid ∈ (k.saveCurrent given).ready := by
    refine (saved.lists.mem_iff k.currentTid).mpr ?_
    unfold Kernel.saveCurrent
    rw [if_neg (Nat.ne_of_gt inside.1), Coherent.current_live k.currentTid coherent]
    dsimp only
    rw [if_pos runs, Kernel.enqueue_table, Kernel.set_task_table, Function.update_self]
  rcases switch_coheres saved given with found | ⟨_, _, nobody⟩
  · exact found
  · rw [nobody] at waits
    cases waits

theorem tick_coheres (coherent : Coherent k (some k.currentTid)) : (serviceTick k mem frame).Coheres := by
  have counted : Coherent (onTick k) (some k.currentTid) := coherent.same rfl rfl rfl
  have woken := counted.sweep _ (Coherent.wakes_sleeper_only (onTick k).ticks)
  have current : (onTick k).wakeSleepers.currentTid = k.currentTid := Kernel.sweep_current _ _
  have awake : Coherent (onTick k).wakeSleepers (some (onTick k).wakeSleepers.currentTid) := by
    rw [current]
    exact woken
  unfold serviceTick
  dsimp only
  by_cases preempts : (onTick k).wakeSleepers.preempt = true ∧ (onTick k).wakeSleepers.currentTid ≠ 0
  · obtain ⟨found, runs⟩ := save_switch_coheres awake frame
    rw [if_pos preempts, if_pos found]
    exact runs.same rfl rfl rfl
  · rw [if_neg preempts]
    exact awake

theorem exit_coheres (coherent : Coherent k (some k.currentTid)) : (svcExit spaces k mem frame).Coheres := by
  have user := Nat.ne_of_gt (Coherent.current_slot k.currentTid coherent).1
  rw [exit_eq spaces k mem frame user]
  have switched := switch_coheres (coherent.exit_ (frame.x 0).toInt64) frame
  generalize (k.afterExit (frame.x 0).toInt64).switchToNext frame = result at switched ⊢
  rcases switched with ⟨found, runs⟩ | ⟨nobody, idle, _⟩
  · simp only [found, if_true]
    exact runs
  · simp only [nobody, Bool.false_eq_true, if_false]
    exact idle.same rfl rfl rfl

theorem kill_coheres (coherent : Coherent k (some k.currentTid)) : (killTaskFromEl0 spaces k mem frame).Coheres := by
  rw [kill_eq spaces k mem frame (Coherent.current_slot k.currentTid coherent)]
  have switched := switch_coheres coherent.kill frame
  generalize k.afterKill.switchToNext frame = result at switched ⊢
  rcases switched with ⟨found, runs⟩ | ⟨nobody, idle, _⟩
  · simp only [found, if_true]
    exact runs
  · simp only [nobody, Bool.false_eq_true, if_false]
    exact idle.same rfl rfl rfl

theorem block_coheres (coherent : Coherent k (some k.currentTid)) (call : Call)
    (finds : ((blockedKernel k call).blockAndSwitch (call.saved frame)).1 = true) :
    (blockFor k mem frame call).Coheres := by
  have keeps : ∀ t, (call.mark k.ticks t).state = t.state := fun t => by
    cases call with
    | _ => rfl
  have current : (blockedKernel k call).currentTid = k.currentTid := Kernel.edit_task_current k _ _
  have marked : Coherent (blockedKernel k call) (some (blockedKernel k call).currentTid) := by
    rw [current]
    exact coherent.edit k.currentTid (call.mark k.ticks) keeps
  have user : (blockedKernel k call).currentTid ≠ 0 := Nat.ne_of_gt (Coherent.current_slot _ marked).1
  have switches : (blockedKernel k call).blockAndSwitch (call.saved frame) =
      ((blockedKernel k call).blockCurrent (call.saved frame)).switchToNext (call.saved frame) := by
    rw [Kernel.blockAndSwitch, if_neg user]
  simp only [blockFor, finds, if_true]
  rw [switches] at finds ⊢
  rcases switch_coheres (marked.block (call.saved frame)) (call.saved frame) with ⟨_, runs⟩ | ⟨nobody, _⟩
  · exact runs
  · rw [nobody] at finds
    cases finds

theorem recv_coheres {bufLen : Nat} {msg : List UInt8} {sender : Nat} {after : Kernel}
    (coherent : Coherent k (some k.currentTid)) (took : k.ipcRecv bufLen = .ok (msg, sender, after)) :
    Coherent after (some after.currentTid) := by
  unfold Kernel.ipcRecv at took
  dsimp only at took
  split_ifs at took
  cases took
  have current : (k.drain k.currentTid).currentTid = k.currentTid := Kernel.sweep_current _ _
  rw [current]
  exact coherent.drain k.currentTid

theorem send_coheres {dst : Nat} {msg : List UInt8} {after : Kernel} (coherent : Coherent k (some k.currentTid))
    (accepted : k.ipcSend dst msg = .ok after) : Coherent after (some after.currentTid) := by
  unfold Kernel.ipcSend at accepted
  split_ifs at accepted
  cases accepted
  have current : (k.deposit dst msg).currentTid = k.currentTid := by
    unfold Kernel.deposit
    dsimp only
    split_ifs
    · rfl
    · rfl
  rw [current]
  exact coherent.deposit dst msg

theorem handled_coheres {outcome : Outcome} (coherent : Coherent k (some k.currentTid))
    (finds : ∀ call, blockingCall spaces k mem frame = some call →
      ((blockedKernel k call).blockAndSwitch (call.saved frame)).1 = true)
    (handled : Handled spaces k mem frame outcome) : outcome.Coheres := by
  cases handled with
  | answered value _ _ => exact coherent
  | readFault _ _ _ => exact coherent
  | writeFault _ _ _ _ after took _ => exact recv_coheres coherent took
  | sent _ _ _ _ _ accepted _ => exact send_coheres coherent accepted
  | received _ _ _ _ _ took _ _ => exact recv_coheres coherent took
  | yielded _ =>
      have user := Nat.ne_of_gt (Coherent.current_slot k.currentTid coherent).1
      obtain ⟨found, runs⟩ := save_switch_coheres coherent frame
      simp only [svcYield, user, ne_eq, not_false_eq_true, if_true, found]
      exact runs
  | blocking call blocks => exact block_coheres mem frame coherent call (finds call blocks)
  | exited _ => exact exit_coheres spaces mem frame coherent

end

namespace Machine

-- The scheduler's invariant, by where the core is.
structure Scheduled (m : Machine) : Prop where
  idle : m.mode = .monitor → Coherent m.kernel none
  busy : m.mode ≠ .monitor → Coherent m.kernel (some m.kernel.currentTid)

theorem Scheduled.fine {m : Machine} (scheduled : m.Scheduled) : ∀ event ∈ m.kernel.history, event.Fine := by
  by_cases monitor : m.mode = .monitor
  · exact (scheduled.idle monitor).fine
  · exact (scheduled.busy monitor).fine

theorem scheduled_monitor {m : Machine} (monitor : m.mode = .monitor) (coherent : Coherent m.kernel none) :
    m.Scheduled := ⟨fun _ => coherent, fun other => absurd monitor other⟩

theorem scheduled_running {m : Machine} (running : m.mode ≠ .monitor)
    (coherent : Coherent m.kernel (some m.kernel.currentTid)) : m.Scheduled :=
  ⟨fun monitor => absurd monitor running, fun _ => coherent⟩

section
variable (spaces : AddressSpaces) (address : Static → UInt64) (m : Machine)

theorem scheduled_drop (scheduled : m.Scheduled) (unmask : Bool) (monitor : m.mode = .monitor) :
    (m.dropScheduled unmask).Scheduled := by
  have idle := scheduled.idle monitor
  rcases drop_cases m unmask with ⟨_, same⟩ | ⟨first, rest, waiting, gone, _⟩ | ⟨first, rest, t, waiting, found, same⟩
  · rw [same]
    exact scheduled
  · have member : first ∈ m.kernel.ready := by
      rw [waiting]
      exact List.mem_cons_self
    have live := Kernel.task_live m.kernel first (idle.slot first member).2 (by
      rw [(idle.lists.mem_iff first).mp member]
      decide)
    rw [gone] at live
    cases live
  · rw [same]
    exact scheduled_running (fun no => (by cases no)) ((idle.dispatch first rest t waiting found).same rfl rfl rfl)

theorem scheduled_trap (t : Trap) (scheduled : m.Scheduled) (el0 : m.mode = .el0)
    (finds : isSvc t = true → ∀ call,
      blockingCall spaces m.kernel (m.memAt t) (t.frame m.cpu.spEl1) = some call →
        ((blockedKernel m.kernel call).blockAndSwitch (call.saved (t.frame m.cpu.spEl1))).1 = true) :
    (m.deliver spaces address .lowerAArch64 (m.memAt t) t).Scheduled := by
  have runs := scheduled.busy (by rw [el0]; exact fun no => (by cases no))
  cases down : m.oops with
  | true =>
      obtain ⟨parked, _, kernel⟩ := deliver_nested spaces address m .lowerAArch64 (m.memAt t) t down
      refine scheduled_running (by rw [parked]; exact fun no => (by cases no)) ?_
      rw [kernel]
      exact runs
  | false =>
      have outcomes := trapped spaces m.kernel (m.memAt t) (t.frame m.cpu.spEl1) t rfl
      have coheres : (handle spaces m.kernel (m.memAt t) (t.frame m.cpu.spEl1) t.kind .lowerAArch64 t.device).Coheres := by
        generalize handle spaces m.kernel (m.memAt t) (t.frame m.cpu.spEl1) t.kind .lowerAArch64 t.device = outcome
          at outcomes
        cases outcomes with
        | svc call _ handled => exact handled_coheres spaces _ _ runs (finds call) handled
        | fault _ _ => exact kill_coheres spaces _ _ runs
        | tick _ _ => exact tick_coheres _ _ runs
        | ignored _ _ => exact runs
        | sError _ => exact runs
      cases outcome : handle spaces m.kernel (m.memAt t) (t.frame m.cpu.spEl1) t.kind .lowerAArch64 t.device with
      | resumed k mem frame =>
          have resumed := deliver_resumed spaces address m .lowerAArch64 (m.memAt t) t down k mem frame outcome
          rw [outcome] at coheres
          refine scheduled_running ?_ ?_
          · rw [resumed.mode, resumeMode]
            split_ifs with _ own
            · exact fun no => (by cases no)
            · exact absurd own.1 (by decide)
            · exact fun no => (by cases no)
          · rw [resumed.kernel]
            exact coheres.same rfl rfl rfl
      | toMonitor k =>
          have returned := deliver_to_monitor spaces address m .lowerAArch64 (m.memAt t) t down k outcome
          rw [outcome] at coheres
          exact scheduled_monitor returned.mode (by rw [returned.kernel]; exact coheres)
      | parked cause k =>
          obtain ⟨parked, _, kernel⟩ := deliver_parked spaces address m .lowerAArch64 (m.memAt t) t down cause k outcome
          rw [outcome] at coheres
          refine scheduled_running (by rw [parked]; exact fun no => (by cases no)) ?_
          rw [kernel]
          exact coheres

theorem scheduled_step (event : Event) (scheduled : m.Scheduled) (inside : event.InSession)
    (finds : m.BlockFinds spaces event) : (m.next spaces address event).Scheduled := by
  by_cases enabled : m.enabled event = true
  · rw [next_enabled spaces address m event enabled]
    cases event with
    | build root image code => exact ⟨scheduled.idle, scheduled.busy⟩
    | spawn args =>
        have monitor : m.mode = .monitor := of_decide_eq_true enabled
        exact scheduled_monitor monitor ((scheduled.idle monitor).spawn args)
    | arm =>
        have monitor : m.mode = .monitor := of_decide_eq_true enabled
        exact scheduled_monitor monitor ((scheduled.idle monitor).same rfl rfl rfl)
    | drop unmask => exact scheduled_drop m scheduled unmask (of_decide_eq_true enabled)
    | dropUser root => exact absurd inside id
    | unmask => exact ⟨scheduled.idle, scheduled.busy⟩
    | el1 t => exact absurd inside id
    | enter residue =>
        cases dropping : m.mode with
        | dropping root =>
            have runs := scheduled.busy (by rw [dropping]; exact fun no => (by cases no))
            simp only [fire, dropping]
            exact scheduled_running (fun no => (by cases no)) (runs.same rfl rfl rfl)
        | _ => simp [Machine.enabled, dropping] at enabled
    | trap t =>
        have el0 : m.mode = .el0 := by
          simp only [Machine.enabled, Bool.and_eq_true, decide_eq_true_eq] at enabled
          exact enabled.1
        exact scheduled_trap spaces address m t scheduled el0 (finds enabled)
  · rw [next_disabled spaces address m event enabled]
    exact scheduled

end

theorem boot_scheduled (spaces : AddressSpaces) (cpu : Cpu) : (boot spaces cpu).Scheduled := by
  refine scheduled_monitor rfl ⟨⟨?_, fun tid => ?_⟩, fun tid => ?_, fun tid live => ?_, fun event member => ?_, .start⟩
  · exact List.nodup_nil
  · exact ⟨fun no => (by cases no), fun no => (by cases no)⟩
  · exact ⟨fun no => (by cases no), fun no => (by cases no)⟩
  · exact absurd rfl live
  · cases member

-- At every return to EL0 the states and the queue agree, and no entry of the
-- scheduler's history lost a task.
theorem ready_queue_consistent (spaces : AddressSpaces) (address : Static → UInt64) (cpu : Cpu) (events : List Event)
    (session : Run.Along (next spaces address) (fun m event => event.InSession ∧ m.BlockFinds spaces event)
      (boot spaces cpu) events) :
    Run.Always (next spaces address)
      (fun m => (m.mode = .el0 → m.kernel.Consistent) ∧ ∀ event ∈ m.kernel.history, event.Fine) (boot spaces cpu)
      events := by
  refine Run.always_of_invariant (next spaces address) _ Scheduled _ ?_ ?_ _ events (boot_scheduled spaces cpu) session
  · intro m event scheduled meets
    exact scheduled_step spaces address m event scheduled meets.1 meets.2
  · intro m scheduled
    refine ⟨fun el0 => ?_, scheduled.fine⟩
    exact (scheduled.busy (by rw [el0]; exact fun no => (by cases no))).consistent

-- Task 1 blocks for a message, task 2 sends it and is preempted, and task 1
-- takes it and exits.
def blockedReceiver : List Event :=
  [ .spawnAt 1 one_root, .spawnAt 2 two_root, .arm, .drop false, .enter fun _ => 0,
    .trap (Trap.svc (registers sysRecvblk [0x200000, 8]) userCodeVa),
    .trap (Trap.svc (registers sysSend [1, 0x200000, 4]) userCodeVa),
    .trap (Trap.tick (fun _ => 0) userCodeVa),
    .trap (Trap.svc (registers sysRecvblk [0x200000, 8]) userCodeVa),
    .trap (Trap.svc (registers sysExit []) userCodeVa) ]

theorem ready_queue_blocked_receiver :
    ((Run.exec (next flat fun _ => 0) (boot flat coldCpu) blockedReceiver).mode = .el0 ∧
        (Run.exec (next flat fun _ => 0) (boot flat coldCpu) blockedReceiver).kernel.currentTid = 2) ∧
      Run.Always (next flat fun _ => 0)
        (fun m => (m.mode = .el0 → m.kernel.Consistent) ∧ ∀ event ∈ m.kernel.history, event.Fine) (boot flat coldCpu)
        blockedReceiver :=
  ⟨by decide +kernel, ready_queue_consistent flat (fun _ => 0) coldCpu blockedReceiver (by decide +kernel)⟩

end Machine

end Opal
