import Opal.Ending

set_option autoImplicit false

namespace Opal

namespace Machine

-- While no exception is being serviced OOPS is down.
def Guarded (m : Machine) : Prop := (∀ cause, m.mode ≠ .parked cause) → m.oops = false

-- The dispatcher does not take a fresh exception for a nested one.
def DispatchesNormally (spaces : AddressSpaces) (address : Static → UInt64) (m : Machine) : Event → Prop
  | .el1 t => m.enabled (.el1 t) = true → (m.next spaces address (.el1 t)).mode ≠ .parked .nested
  | .trap t => m.enabled (.trap t) = true → (m.next spaces address (.trap t)).mode ≠ .parked .nested
  | _ => True

-- A task exits or faults and nobody is left to switch to: no task is current,
-- or the head of the queue, with the waiters an exit wakes, is not a live task.
def EndsSession (m : Machine) : Event → Prop
  | .trap t =>
      m.enabled (.trap t) = true ∧
        (isSvc t = true ∧ (t.x 8 = sysExit ∨ t.x 8 = sysExitCode) ∧
            (m.kernel.currentTid = 0 ∨
              ¬ m.kernel.HasSuccessor (m.kernel.ready ++ m.kernel.waitersOn m.kernel.currentTid)) ∨
          t.kind = .synchronous ∧ isSvc t = false ∧
            (¬ (0 < m.kernel.currentTid ∧ m.kernel.currentTid < maxTasks) ∨ ¬ m.kernel.HasSuccessor m.kernel.ready))
  | _ => False

end Machine

namespace Outcome

def Resumes (outcome : Outcome) : Prop := ∃ k mem frame, outcome = .resumed k mem frame

def Returns (outcome : Outcome) : Prop := ∃ k, outcome = .toMonitor k

def Parks (outcome : Outcome) : Prop := ∃ cause k, cause ≠ .nested ∧ outcome = .parked cause k

end Outcome

theorem ite_resumes {c : Prop} [Decidable c] (a b : Outcome) (left : a.Resumes) (right : b.Resumes) :
    (if c then a else b).Resumes := by
  split_ifs
  · exact left
  · exact right

theorem tick_resumes (k : Kernel) (mem : UserMem) (frame : TrapFrame) : (serviceTick k mem frame).Resumes := by
  unfold serviceTick
  exact ite_resumes _ _ (ite_resumes _ _ ⟨_, _, _, rfl⟩ ⟨_, _, _, rfl⟩) ⟨_, _, _, rfl⟩

theorem yield_resumes (k : Kernel) (mem : UserMem) (frame : TrapFrame) : (svcYield k mem frame).Resumes := by
  unfold svcYield
  exact ite_resumes _ _ ⟨_, _, _, rfl⟩ ⟨_, _, _, rfl⟩

theorem block_resumes (k : Kernel) (mem : UserMem) (frame : TrapFrame) (call : Call) :
    (blockFor k mem frame call).Resumes := by
  unfold blockFor
  exact ite_resumes _ _ ⟨_, _, _, rfl⟩ ⟨_, _, _, rfl⟩

theorem el1_outcome (spaces : AddressSpaces) (k : Kernel) (mem : UserMem) (frame : TrapFrame) (kind : Kind)
    (device : Device) :
    (handle spaces k mem frame kind .currentSpElx device).Resumes ∨
      (handle spaces k mem frame kind .currentSpElx device).Parks := by
  rcases from_el1 spaces k mem frame kind device with ⟨frame', _, same⟩ | same | same
  · exact .inl ⟨_, _, frame', same⟩
  · rw [same]
    exact .inl (tick_resumes k mem frame)
  · exact .inr ⟨.fatal, k, by decide, same⟩

section
variable (spaces : AddressSpaces) (m : Machine) (t : Trap)

theorem exit_outcome (mem : UserMem) (frame : TrapFrame) :
    ((svcExit spaces m.kernel mem frame).Returns ∧
        (m.kernel.currentTid = 0 ∨
          ¬ m.kernel.HasSuccessor (m.kernel.ready ++ m.kernel.waitersOn m.kernel.currentTid))) ∨
      ((svcExit spaces m.kernel mem frame).Resumes ∧
        ¬ (m.kernel.currentTid = 0 ∨
          ¬ m.kernel.HasSuccessor (m.kernel.ready ++ m.kernel.waitersOn m.kernel.currentTid))) := by
  by_cases nobody : m.kernel.currentTid = 0
  · exact .inl ⟨⟨_, exit_kernel spaces m.kernel mem frame nobody⟩, .inl nobody⟩
  · have heir := Kernel.exit_switches m.kernel (frame.x 0).toInt64 frame
    rw [exit_eq spaces m.kernel mem frame nobody]
    by_cases switched : ((m.kernel.afterExit (frame.x 0).toInt64).switchToNext frame).1 = true
    · refine .inr ⟨⟨_, _, _, if_pos switched⟩, ?_⟩
      rintro (same | none_)
      · exact nobody same
      · exact none_ (heir.mp switched)
    · exact .inl ⟨⟨_, if_neg switched⟩, .inr fun has => switched (heir.mpr has)⟩

theorem kill_outcome (mem : UserMem) (frame : TrapFrame) :
    ((killTaskFromEl0 spaces m.kernel mem frame).Returns ∧
        (¬ (0 < m.kernel.currentTid ∧ m.kernel.currentTid < maxTasks) ∨ ¬ m.kernel.HasSuccessor m.kernel.ready)) ∨
      ((killTaskFromEl0 spaces m.kernel mem frame).Resumes ∧
        ¬ (¬ (0 < m.kernel.currentTid ∧ m.kernel.currentTid < maxTasks) ∨ ¬ m.kernel.HasSuccessor m.kernel.ready)) := by
  by_cases user : 0 < m.kernel.currentTid ∧ m.kernel.currentTid < maxTasks
  · have heir := Kernel.kill_switches m.kernel frame
    rw [kill_eq spaces m.kernel mem frame user]
    by_cases switched : (m.kernel.afterKill.switchToNext frame).1 = true
    · refine .inr ⟨⟨_, _, _, if_pos switched⟩, ?_⟩
      rintro (not_user | none_)
      · exact not_user user
      · exact none_ (heir.mp switched)
    · exact .inl ⟨⟨_, if_neg switched⟩, .inr fun has => switched (heir.mpr has)⟩
  · exact .inl ⟨⟨_, kill_kernel spaces m.kernel mem frame user⟩, .inl user⟩

theorem not_exit {n : UInt64} {frame : TrapFrame} (nr : frame.x 8 = n) (apart : n ≠ sysExit ∧ n ≠ sysExitCode) :
    ¬ (frame.x 8 = sysExit ∨ frame.x 8 = sysExitCode) := by
  rw [nr]
  rintro (same | same)
  · exact apart.1 same
  · exact apart.2 same

theorem not_exit_either {a b : UInt64} {frame : TrapFrame} (nr : frame.x 8 = a ∨ frame.x 8 = b)
    (left : a ≠ sysExit ∧ a ≠ sysExitCode) (right : b ≠ sysExit ∧ b ≠ sysExitCode) :
    ¬ (frame.x 8 = sysExit ∨ frame.x 8 = sysExitCode) := by
  rcases nr with nr | nr
  · exact not_exit nr left
  · exact not_exit nr right

theorem answer_not_exit {k : Kernel} {mem : UserMem} {frame : TrapFrame} {value : UInt64}
    (answer : Answer spaces k mem frame value) : ¬ (frame.x 8 = sysExit ∨ frame.x 8 = sysExitCode) := by
  cases answer with
  | write _ nr => exact not_exit nr (by decide)
  | unknown nr =>
      simp only [List.mem_cons, not_or] at nr
      rintro (same | same)
      · exact nr.2.1 same
      · exact nr.2.2.2.2.2.2.2.2.1 same
  | sendNothing nr _ => exact not_exit_either nr (by decide) (by decide)
  | sendBadBuffer nr _ _ => exact not_exit_either nr (by decide) (by decide)
  | sendRefused nr _ _ _ _ _ _ => exact not_exit_either nr (by decide) (by decide)
  | recvNoBuffer nr _ => exact not_exit_either nr (by decide) (by decide)
  | recvBadBuffer nr _ => exact not_exit_either nr (by decide) (by decide)
  | recvNothing nr _ _ _ _ _ => exact not_exit nr (by decide)
  | sleepNothing nr _ => exact not_exit nr (by decide)
  | sleepNobody nr _ => exact not_exit nr (by decide)
  | waited nr _ _ => exact not_exit nr (by decide)
  | waitRefused nr _ _ _ => exact not_exit nr (by decide)

theorem handled_outcome {k : Kernel} {mem : UserMem} {frame : TrapFrame} {outcome : Outcome}
    (handled : Handled spaces k mem frame outcome) :
    ((frame.x 8 = sysExit ∨ frame.x 8 = sysExitCode) ∧ outcome = svcExit spaces k mem frame) ∨
      (¬ (frame.x 8 = sysExit ∨ frame.x 8 = sysExitCode) ∧ (outcome.Resumes ∨ outcome.Parks)) := by
  cases handled with
  | answered value answer _ => exact .inr ⟨answer_not_exit spaces answer, .inl ⟨_, _, _, rfl⟩⟩
  | readFault nr _ _ =>
      refine .inr ⟨?_, .inr ⟨.faultInHandler, k, by decide, rfl⟩⟩
      rcases nr with nr | nr
      · exact not_exit nr (by decide)
      · exact not_exit_either nr (by decide) (by decide)
  | writeFault nr _ _ _ after _ _ =>
      exact .inr ⟨not_exit_either nr (by decide) (by decide), .inr ⟨.faultInHandler, after, by decide, rfl⟩⟩
  | sent nr _ _ _ _ _ _ => exact .inr ⟨not_exit_either nr (by decide) (by decide), .inl ⟨_, _, _, rfl⟩⟩
  | received nr _ _ _ _ _ _ _ => exact .inr ⟨not_exit_either nr (by decide) (by decide), .inl ⟨_, _, _, rfl⟩⟩
  | yielded nr => exact .inr ⟨not_exit nr (by decide), .inl (yield_resumes k mem frame)⟩
  | blocking call blocks =>
      have nr := blocking_call_number spaces k mem frame call blocks
      exact .inr ⟨not_exit nr call.number_not_exit, .inl (block_resumes k mem frame call)⟩
  | exited nr => exact .inl ⟨nr, rfl⟩

theorem to_monitor_by (k : Kernel) (outcome : m.handled spaces .lowerAArch64 t = .toMonitor k) :
    (isSvc t = true ∧ svcExit spaces m.kernel (m.memAt t) (t.frame m.cpu.spEl1) = .toMonitor k) ∨
      (isSvc t = false ∧ killTaskFromEl0 spaces m.kernel (m.memAt t) (t.frame m.cpu.spEl1) = .toMonitor k) := by
  have cases_ := m.handled_trapped spaces t
  rw [outcome] at cases_
  obtain ⟨result, same⟩ : ∃ result, result = Outcome.toMonitor k := ⟨_, rfl⟩
  rw [← same] at cases_
  cases cases_ with
  | svc call _ handled =>
      rcases handled_outcome spaces handled with ⟨_, exits⟩ | ⟨_, ⟨_, _, _, stays⟩ | ⟨_, _, _, stays⟩⟩
      · exact .inl ⟨call, exits.symm.trans same⟩
      · rw [stays] at same
        cases same
      · rw [stays] at same
        cases same
  | fault _ other => exact .inr ⟨other, same⟩
  | tick _ _ =>
      obtain ⟨_, _, _, stays⟩ := tick_resumes m.kernel (m.memAt t) (t.frame m.cpu.spEl1)
      rw [stays] at same
      cases same
  | ignored _ _ => cases same
  | sError _ => cases same

-- Of all an exception from EL0 can lead to, only the two ends of a session
-- leave for the monitor.
theorem el0_outcome (enabled : m.enabled (.trap t) = true) (outcome : Outcome)
    (cases_ : Trapped spaces m.kernel (m.memAt t) (t.frame m.cpu.spEl1) t outcome) :
    (outcome.Returns ∧ m.EndsSession (.trap t)) ∨ ((outcome.Resumes ∨ outcome.Parks) ∧ ¬ m.EndsSession (.trap t)) := by
  have unless_exit : isSvc t = true → ¬ (t.x 8 = sysExit ∨ t.x 8 = sysExitCode) → ¬ m.EndsSession (.trap t) := by
    rintro svc other ⟨_, ⟨_, exit_, _⟩ | ⟨_, not_svc, _⟩⟩
    · exact other exit_
    · rw [svc] at not_svc
      cases not_svc
  have unless_sync : isSvc t = false → t.kind ≠ .synchronous → ¬ m.EndsSession (.trap t) := by
    rintro not_svc async ⟨_, ⟨svc, _⟩ | ⟨sync, _⟩⟩
    · rw [svc] at not_svc
      cases not_svc
    · exact async sync
  have async_not_svc : t.kind ≠ .synchronous → isSvc t = false := fun async => by simp [isSvc, async]
  cases cases_ with
  | svc call _ handled =>
      rcases handled_outcome spaces handled with ⟨exits, same⟩ | ⟨other, stays⟩
      · rw [same]
        rcases exit_outcome spaces m (m.memAt t) (t.frame m.cpu.spEl1) with ⟨returns, why⟩ | ⟨resumes, why⟩
        · exact .inl ⟨returns, enabled, .inl ⟨call, exits, why⟩⟩
        · refine .inr ⟨.inl resumes, ?_⟩
          rintro ⟨_, ⟨_, _, ends⟩ | ⟨_, not_svc, _⟩⟩
          · exact why ends
          · rw [call] at not_svc
            cases not_svc
      · exact .inr ⟨stays, unless_exit call other⟩
  | fault sync other =>
      rcases kill_outcome spaces m (m.memAt t) (t.frame m.cpu.spEl1) with ⟨returns, why⟩ | ⟨resumes, why⟩
      · exact .inl ⟨returns, enabled, .inr ⟨sync, other, why⟩⟩
      · refine .inr ⟨.inl resumes, ?_⟩
        rintro ⟨_, ⟨svc, _⟩ | ⟨_, _, ends⟩⟩
        · rw [other] at svc
          cases svc
        · exact why ends
  | tick async ticks =>
      have kind : t.kind ≠ .synchronous := fun sync => by simp [isTick, sync] at ticks
      exact .inr ⟨.inl (tick_resumes _ _ _), unless_sync async kind⟩
  | ignored async quiet => exact .inr ⟨.inl ⟨_, _, _, rfl⟩, unless_sync (async_not_svc async) async⟩
  | sError async =>
      have kind : t.kind ≠ .synchronous := by
        rw [async]
        decide
      exact .inr ⟨.inr ⟨.fatal, m.kernel, by decide, rfl⟩, unless_sync (async_not_svc kind) kind⟩

end

namespace Machine

section
variable (spaces : AddressSpaces) (address : Static → UInt64) (m : Machine)

theorem enabled_not_parked (event : Event) (enabled : m.enabled event = true) (cause : ParkCause) :
    m.mode ≠ .parked cause := by
  intro parked
  cases event with
  | el1 t => simp [Machine.enabled, parked] at enabled
  | enter residue => simp [Machine.enabled, parked] at enabled
  | trap t => simp [Machine.enabled, parked] at enabled
  | _ => simp [Machine.enabled, parked] at enabled

theorem enabled_down (guarded : m.Guarded) (event : Event) (enabled : m.enabled event = true) : m.oops = false :=
  guarded fun cause => enabled_not_parked m event enabled cause

section
variable (source : Source) (mem : UserMem) (t : Trap)

-- A delivery leaves the guard intact unless its handler re-entered the
-- monitor.
theorem deliver_guarded (down : m.oops = false) (running : m.mode ≠ .parked .nested)
    (stays : (handle spaces m.kernel mem (t.frame m.cpu.spEl1) t.kind source t.device).Resumes ∨
      (handle spaces m.kernel mem (t.frame m.cpu.spEl1) t.kind source t.device).Parks) :
    (m.deliver spaces address source mem t).Guarded ∧ (m.deliver spaces address source mem t).mode ≠ .parked .nested := by
  rcases stays with ⟨k, mem', frame, outcome⟩ | ⟨cause, k, other, outcome⟩
  · have resumed := deliver_resumed spaces address m source mem t down k mem' frame outcome
    refine ⟨fun _ => resumed.oops, ?_⟩
    rw [resumed.mode]
    unfold resumeMode
    split_ifs
    · exact fun same => by cases same
    · exact running
    · exact fun same => by cases same
  · have parked := (deliver_parked spaces address m source mem t down cause k outcome).1
    refine ⟨fun running => absurd parked (running cause), ?_⟩
    rw [parked]
    intro same
    cases same
    exact other rfl

-- Only the two calls of the monitor loop from inside a handler leave the flag
-- up, and they always do.
theorem deliver_unguarded (down : m.oops = false)
    (leaves : (handle spaces m.kernel mem (t.frame m.cpu.spEl1) t.kind source t.device).Returns) :
    ¬ (m.deliver spaces address source mem t).Guarded := by
  obtain ⟨k, outcome⟩ := leaves
  have returned := deliver_to_monitor spaces address m source mem t down k outcome
  intro guarded
  have lowered := guarded fun cause => by
    rw [returned.mode]
    exact fun same => by cases same
  rw [returned.oops] at lowered
  cases lowered

end

-- One step keeps the guard exactly when it does not end a session.
theorem step_guarded (event : Event) (guarded : m.Guarded) :
    (m.next spaces address event).Guarded ↔ ¬ m.EndsSession event := by
  by_cases enabled : m.enabled event = true
  · have down := enabled_down m guarded event enabled
    have running := enabled_not_parked m event enabled .nested
    rw [next_enabled spaces address m event enabled]
    cases event with
    | el1 t =>
        have stays := el1_outcome spaces m.kernel m.mem (t.frame m.cpu.spEl1) t.kind t.device
        have kept := (deliver_guarded spaces address m .currentSpElx m.mem t down running stays).1
        exact ⟨fun _ ends => ends, fun _ => kept⟩
    | trap t =>
        have outcomes := trapped spaces m.kernel (m.memAt t) (t.frame m.cpu.spEl1) t rfl
        rcases el0_outcome spaces m t enabled _ outcomes with ⟨leaves, ends⟩ | ⟨stays, goes_on⟩
        · have lost := deliver_unguarded spaces address m .lowerAArch64 (m.memAt t) t down leaves
          exact ⟨fun kept => absurd kept lost, fun none_ => absurd ends none_⟩
        · have kept := (deliver_guarded spaces address m .lowerAArch64 (m.memAt t) t down running stays).1
          exact ⟨fun _ => goes_on, fun _ => kept⟩
    | drop unmask =>
        have kept : (m.dropScheduled unmask).Guarded := fun _ => (drop_oops m unmask).trans down
        exact ⟨fun _ ends => ends, fun _ => kept⟩
    | enter residue =>
        have kept : (m.fire spaces address (.enter residue)).Guarded := fun _ => by
          simp only [fire]
          split
          · exact down
          · exact down
        exact ⟨fun _ ends => ends, fun _ => kept⟩
    | _ => exact ⟨fun _ ends => ends, fun _ _ => down⟩
  · have goes_on : ¬ m.EndsSession event := fun ends => by
      cases event with
      | trap t => exact enabled ends.1
      | _ => exact ends
    rw [next_disabled spaces address m event enabled]
    exact ⟨fun _ => goes_on, fun _ => guarded⟩

theorem guarded_dispatches (event : Event) (guarded : m.Guarded) : m.DispatchesNormally spaces address event := by
  cases event with
  | el1 t =>
      intro enabled
      have down := enabled_down m guarded (.el1 t) enabled
      have running := enabled_not_parked m (.el1 t) enabled .nested
      have stays := el1_outcome spaces m.kernel m.mem (t.frame m.cpu.spEl1) t.kind t.device
      rw [next_enabled spaces address m (.el1 t) enabled]
      exact (deliver_guarded spaces address m .currentSpElx m.mem t down running stays).2
  | trap t =>
      intro enabled
      have down := enabled_down m guarded (.trap t) enabled
      have running := enabled_not_parked m (.trap t) enabled .nested
      have outcomes := trapped spaces m.kernel (m.memAt t) (t.frame m.cpu.spEl1) t rfl
      rw [next_enabled spaces address m (.trap t) enabled]
      rcases el0_outcome spaces m t enabled _ outcomes with ⟨⟨k, outcome⟩, _⟩ | ⟨stays, _⟩
      · have returned := deliver_to_monitor spaces address m .lowerAArch64 (m.memAt t) t down k outcome
        intro nested
        have monitor : (m.fire spaces address (.trap t)).mode = .monitor := returned.mode
        rw [monitor] at nested
        cases nested
      · exact (deliver_guarded spaces address m .lowerAArch64 (m.memAt t) t down running stays).2
  | _ => trivial

end

theorem always_guarded_dispatches (spaces : AddressSpaces) (address : Static → UInt64) (m : Machine)
    (events : List Event) (all : Run.Always (next spaces address) Guarded m events) :
    Run.Along (next spaces address) (DispatchesNormally spaces address) m events := by
  induction events generalizing m with
  | nil => trivial
  | cons event rest ih => exact ⟨guarded_dispatches spaces address m event all.1, ih _ all.2⟩

-- OOPS is down whenever no exception is being serviced, and no exception is
-- taken for a nested one, in exactly the runs in which no session ends.
theorem guard_holds_until_session_ends (spaces : AddressSpaces) (address : Static → UInt64) (cpu : Cpu)
    (events : List Event) :
    (Run.Always (next spaces address) Guarded (boot spaces cpu) events ∧
        Run.Along (next spaces address) (DispatchesNormally spaces address) (boot spaces cpu) events) ↔
      Run.Along (next spaces address) (fun m event => ¬ m.EndsSession event) (boot spaces cpu) events := by
  have runs := Run.always_iff_along (next spaces address) (fun _ _ => True) (fun m event => ¬ m.EndsSession event)
    (fun _ => True) Guarded (fun _ _ _ _ _ _ => trivial)
    (fun m event _ _ guarded => step_guarded spaces address m event guarded) (boot spaces cpu) events trivial
    (fun _ => rfl) (Run.along_of_forall _ _ (fun _ _ => trivial) _ _)
  exact ⟨fun both => runs.mp both.1, fun meets =>
    ⟨runs.mpr meets, always_guarded_dispatches spaces address _ events (runs.mpr meets)⟩⟩

-- One task that exits, and a brk from the monitor it leaves behind.
def lastExit : List Event :=
  [.spawnAt 1 one_root, .drop false, .enter fun _ => 0, .trap (Trap.svc (registers sysExit []) userCodeVa)]

def monitorBrk : Event :=
  .el1 ⟨.synchronous, fun _ => 0, 0, 4, 0, fun _ => 0, ecBrk64 <<< (26 : UInt64), 0, ⟨0, false⟩⟩

theorem last_exit_loses_guard :
    ((Run.exec (next flat fun _ => 0) (boot flat coldCpu) lastExit).mode = .monitor ∧
        (Run.exec (next flat fun _ => 0) (boot flat coldCpu) lastExit).oops = true ∧
        (Run.exec (next flat fun _ => 0) (boot flat coldCpu) (lastExit ++ [monitorBrk])).mode = .parked .nested) ∧
      ¬ ∀ events, Run.Always (next flat fun _ => 0) Guarded (boot flat coldCpu) events := by
  have run : (Run.exec (next flat fun _ => 0) (boot flat coldCpu) lastExit).mode = .monitor ∧
      (Run.exec (next flat fun _ => 0) (boot flat coldCpu) lastExit).oops = true ∧
      (Run.exec (next flat fun _ => 0) (boot flat coldCpu) (lastExit ++ [monitorBrk])).mode = .parked .nested := by
    decide +kernel
  refine ⟨run, fun all => ?_⟩
  have guarded := Run.always_last _ _ _ _ (all lastExit)
  have lowered := guarded fun cause => by
    rw [run.1]
    exact fun same => by cases same
  rw [run.2.1] at lowered
  cases lowered

end Machine

end Opal
